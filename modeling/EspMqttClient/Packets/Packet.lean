/-
  `Packet` — an outgoing packet (`Packet.h`, `Packet.cpp`).

  A constructor computes the size, asks for the buffer and fills it from front to back; a write
  behind the end of the buffer, undefined in the source, is dropped here.  With a payload callback
  the buffer holds the header and a window of the payload that `available` moves along.
-/
import EspMqttClient.Data.Buffer
import EspMqttClient.Packets.Codec

namespace EspMqttClient

/-- The memory at the moment a packet is built: the free memory and whether the buffer and the queue
node are granted. -/
structure Alloc where
  freeMemory : ℕ
  malloc : Bool
  node : Bool
deriving DecidableEq, Repr

/-- A payload callback: the bytes it copies when it is called for the `call`-th time with `maxSize`
and `index`.  It copies at most what it was given room for, and does not call the client. -/
structure PayloadCallback where
  copy : (call maxSize index : ℕ) → List Byte
  length_le : ∀ call maxSize index : ℕ, (copy call maxSize index).length ≤ maxSize

structure Packet where
  packetId : UInt16
  /-- The buffer, `[]` for a null pointer. -/
  data : List Byte
  size : ℕ
  /-- Where the payload of a chunked packet starts in the buffer. -/
  payloadIndex : ℕ
  /-- The first and the last position of the packet that the payload window holds. -/
  payloadStartIndex : ℕ
  payloadEndIndex : ℕ
  getPayload : Option PayloadCallback

namespace Packet

variable (cfg : Config)

/-! ### Reading -/

/-- `_chunkedAvailable`, the `call`-th time the environment is asked for something. -/
def chunkedAvailable (call : ℕ) (cb : PayloadCallback) (p : Packet) (index : ℕ) : ℕ × Packet :=
  let maxSize := min cfg.txBufferSize (p.size - p.payloadStartIndex)
  let fill (maxSize : ℕ) : List Byte × ℕ :=
    let copied := cb.copy call maxSize index
    (((⟨p.data, p.payloadIndex⟩ : Buffer Byte).put copied).data, copied.length)
  let p :=
    -- index points to header or first payload byte
    if index < p.payloadIndex then
      if p.payloadIndex < p.size ∧ p.payloadEndIndex ≠ 0 then
        let (data, copied) := fill maxSize
        { p with
          data
          payloadStartIndex := p.payloadIndex
          payloadEndIndex := p.payloadIndex + copied - 1 }
      else p
    -- index points to payload unavailable
    else if index > p.payloadEndIndex ∨ p.payloadStartIndex > index then
      let (data, copied) := fill (min cfg.txBufferSize (p.size - index))
      { p with
        data
        payloadStartIndex := index
        payloadEndIndex := index + copied - 1 }
    else p
  -- now index points to header or payload available
  (p.payloadEndIndex + 1 - index, p)

/-- `available`: how many bytes can be read at `index`. -/
def available (call : ℕ) (p : Packet) (index : ℕ) : ℕ × Packet :=
  if p.size ≤ index then (0, p)
  else match p.getPayload with
    | none => (p.size - index, p)
    | some cb => p.chunkedAvailable cfg call cb index

/-- `data(index)`: the buffer from the byte for `index` on. -/
def dataAt (p : Packet) (index : ℕ) : List Byte :=
  match p.getPayload with
  | none => p.data.drop index
  | some _ =>
    if index < p.payloadIndex then p.data.drop index
    else p.data.drop (index - p.payloadStartIndex + p.payloadIndex)

def packetType (p : Packet) : MQTTPacketType :=
  match p.data with
  | [] => 0
  | b :: _ => b &&& 0xF0

def setDup (p : Packet) : Packet :=
  if p.data = [] then p
  else if p.packetType ≠ PacketType.PUBLISH then p
  else if p.packetId = 0 then p
  else { p with data := p.data.modifyHead (· ||| 0x08) }

def removable (p : Packet) : Bool :=
  if p.packetId = 0 then true
  else p.packetType = PacketType.PUBACK ∨ p.packetType = PacketType.PUBCOMP

/-! ### Construction -/

/-- The members before a constructor's body runs. -/
def init (packetId : UInt16) (getPayload : Option PayloadCallback) : Packet where
  packetId
  data := []
  size := 0
  payloadIndex := 0
  payloadStartIndex := 0
  payloadEndIndex := 0
  getPayload

/-- `_allocate`: a zeroed buffer for a packet with this remaining length, if there is memory. -/
def allocate (alloc : Alloc) (remainingLength : ℕ) (check : Bool) : Option (Buffer Byte) :=
  if check ∧ alloc.freeMemory < cfg.minFreeMemory then none
  else if alloc.malloc then
    some (.fill (cfg.wrap (1 + remainingLengthLength (remainingLength % 2 ^ 32) + remainingLength)) 0)
  else none

/-- The end of a constructor that got its memory. -/
def ofBuffer (p : Packet) (b : Buffer Byte) : Error × Packet :=
  (.SUCCESS, { p with data := b.data, size := b.data.length })

/-- The remaining length goes through a 32-bit argument. -/
def putRemainingLength (b : Buffer Byte) (remainingLength : ℕ) : Buffer Byte :=
  b.put (encodeRemainingLength (remainingLength % 2 ^ 32))

/-- What a CONNECT is built from. -/
structure ConnectArgs where
  cleanSession : Bool
  username : Option CString
  password : Option CString
  willTopic : Option CString
  willRetain : Bool
  willQos : Byte
  /-- The memory the will payload points to. -/
  willPayload : Option (List Byte)
  willPayloadLength : UInt16
  keepAlive : UInt16
  clientId : Option CString
deriving DecidableEq

/-- The length of the will payload: of a C string if none is given. -/
def ConnectArgs.willLength (args : ConnectArgs) : UInt16 :=
  match args.willPayload with
  | some memory =>
    if args.willPayloadLength = 0 then
      let length := (CString.ofMemory memory).length
      if length > 65535 then 65535 else UInt16.ofNat length
    else args.willPayloadLength
  | none => args.willPayloadLength

def ConnectArgs.flags (args : ConnectArgs) : Byte :=
  (if args.cleanSession then ConnectFlag.CLEAN_SESSION else 0) |||
  (if args.username.isSome then ConnectFlag.USERNAME else 0) |||
  (if args.password.isSome then ConnectFlag.PASSWORD else 0) |||
  (if args.willTopic.isSome then
    ConnectFlag.WILL |||
    (if args.willRetain then ConnectFlag.WILL_RETAIN else 0) |||
    (if args.willQos = 0 then ConnectFlag.WILL_QOS0
     else if args.willQos = 1 then ConnectFlag.WILL_QOS1
     else if args.willQos = 2 then ConnectFlag.WILL_QOS2
     else 0)
   else 0)

def connectLength (args : ConnectArgs) : ℕ :=
  let string (s : Option CString) (rest : ℕ) : ℕ := s.elim 0 fun s => 2 + s.length + rest
  cfg.wrap <| 6 + 1 + 1 + 2 + 2 + (args.clientId.getD .empty).length +
    string args.willTopic (2 + args.willLength.toNat) + string args.username 0 + string args.password 0

/-- The bytes of a CONNECT. -/
def fillConnect (b : Buffer Byte) (args : ConnectArgs) : Buffer Byte :=
  -- FIXED HEADER
  let b := b.put [PacketType.CONNECT ||| HeaderFlag.CONNECT_RESERVED]
  let b := putRemainingLength b (connectLength cfg args)
  let b := b.put (encodeString PROTOCOL)
  let b := b.put [0x04]
  let b := b.put [args.flags]
  let b := b.put (bigEndian args.keepAlive)
  -- PAYLOAD
  let b := b.put (encodeString (args.clientId.getD .empty))
  let b := match args.willTopic, args.willPayload with
    | some willTopic, some willPayload =>
      ((b.put (encodeString willTopic)).put (bigEndian args.willLength)).put
        (willPayload.take args.willLength.toNat)
    | _, _ => b
  let b := b.put (args.username.elim [] encodeString)
  b.put (args.password.elim [] encodeString)

/-- CONNECT. -/
def connect (alloc : Alloc) (args : ConnectArgs) : Error × Packet :=
  let p := init 0 none
  if (args.clientId.getD .empty).length = 0 then (.MALFORMED_PARAMETER, p)
  else
    match allocate cfg alloc (connectLength cfg args) false with
    | none => (.OUT_OF_MEMORY, p)
    | some b => p.ofBuffer (fillConnect cfg b args)

/-- The remaining length of a PUBLISH and the packet id it is stored under. -/
def publishLength (packetId : UInt16) (topic : CString) (payloadLength : ℕ) (qos : Byte) :
    ℕ × UInt16 :=
  if qos = 0 then (cfg.wrap (2 + topic.length + payloadLength), 0)
  else (cfg.wrap (2 + topic.length + 2 + payloadLength), packetId)

/-- `_fillPublishHeader`.  A quality of service the header cannot hold leaves `index` where it was. -/
def fillPublishHeader (b : Buffer Byte) (packetId : UInt16) (topic : CString) (remainingLength : ℕ)
    (qos : Byte) (retain : Bool) : Buffer Byte :=
  let header := PacketType.PUBLISH ||| (if retain then HeaderFlag.PUBLISH_RETAIN else 0)
  -- FIXED HEADER
  let b :=
    if qos = 0 then b.put [header ||| HeaderFlag.PUBLISH_QOS0]
    else if qos = 1 then b.put [header ||| HeaderFlag.PUBLISH_QOS1]
    else if qos = 2 then b.put [header ||| HeaderFlag.PUBLISH_QOS2]
    else (b.put [header]).rewind
  let b := putRemainingLength b remainingLength
  -- VARIABLE HEADER
  let b := b.put (encodeString topic)
  if 0 < qos then b.put (bigEndian packetId) else b

/-- PUBLISH with its payload. -/
def publish (alloc : Alloc) (packetId : UInt16) (topic : CString) (payload : List Byte) (qos : Byte)
    (retain : Bool) : Error × Packet :=
  let (remainingLength, storedId) := publishLength cfg packetId topic payload.length qos
  let p := init storedId none
  match allocate cfg alloc remainingLength true with
  | none => (.OUT_OF_MEMORY, p)
  | some b =>
    let b := fillPublishHeader b packetId topic remainingLength qos retain
    -- PAYLOAD
    p.ofBuffer (b.put payload)

/-- What the buffer of a chunked PUBLISH is allocated for: the payload takes at most a read buffer. -/
def chunkedLength (remainingLength payloadLength : ℕ) : ℕ :=
  cfg.wrap (cfg.sub remainingLength payloadLength + min payloadLength cfg.rxBufferSize)

/-- PUBLISH with a payload callback. -/
def publishChunked (alloc : Alloc) (packetId : UInt16) (topic : CString) (callback : PayloadCallback)
    (payloadLength : ℕ) (qos : Byte) (retain : Bool) : Error × Packet :=
  let (remainingLength, storedId) := publishLength cfg packetId topic payloadLength qos
  let p := init storedId (some callback)
  match allocate cfg alloc (chunkedLength cfg remainingLength payloadLength) true with
  | none => (.OUT_OF_MEMORY, p)
  | some b =>
    let b := fillPublishHeader b packetId topic remainingLength qos retain
    -- payload will be added by `available`
    (.SUCCESS, { p with
      data := b.data
      size := cfg.wrap (b.pos + payloadLength)
      payloadIndex := b.pos
      payloadStartIndex := b.pos
      payloadEndIndex := b.pos })

/-- `_createSubscribe`: SUBSCRIBE to a list of topics. -/
def subscribe (alloc : Alloc) (packetId : UInt16) (list : List (CString × Byte)) : Error × Packet :=
  let p := init packetId none
  let payload := (list.map fun item => 2 + item.1.length + 1).sum
  let remainingLength := cfg.wrap (2 + payload)
  match allocate cfg alloc remainingLength true with
  | none => (.OUT_OF_MEMORY, p)
  | some b =>
    let b := b.put [PacketType.SUBSCRIBE ||| HeaderFlag.SUBSCRIBE_RESERVED]
    let b := putRemainingLength b remainingLength
    let b := b.put (bigEndian packetId)
    p.ofBuffer (list.foldl (fun b item => (b.put (encodeString item.1)).put [item.2]) b)

/-- `_createUnsubscribe`: UNSUBSCRIBE from a list of topics. -/
def unsubscribe (alloc : Alloc) (packetId : UInt16) (list : List CString) : Error × Packet :=
  let p := init packetId none
  let payload := (list.map fun topic => 2 + topic.length).sum
  let remainingLength := cfg.wrap (2 + payload)
  match allocate cfg alloc remainingLength true with
  | none => (.OUT_OF_MEMORY, p)
  | some b =>
    let b := b.put [PacketType.UNSUBSCRIBE ||| HeaderFlag.UNSUBSCRIBE_RESERVED]
    let b := putRemainingLength b remainingLength
    let b := b.put (bigEndian packetId)
    p.ofBuffer (list.foldl (fun b topic => b.put (encodeString topic)) b)

/-- PUBACK, PUBREC, PUBREL, PUBCOMP. -/
def ack (alloc : Alloc) (type : MQTTPacketType) (packetId : UInt16) : Error × Packet :=
  let p := init packetId none
  match allocate cfg alloc 2 true with
  | none => (.OUT_OF_MEMORY, p)
  | some b =>
    let b := b.put [if type = PacketType.PUBREL then type ||| HeaderFlag.PUBREL_RESERVED else type]
    let b := putRemainingLength b 2
    p.ofBuffer (b.put (bigEndian packetId))

/-- PINGREQ, DISCONNECT. -/
def control (alloc : Alloc) (type : MQTTPacketType) : Error × Packet :=
  let p := init 0 none
  match allocate cfg alloc 0 true with
  | none => (.OUT_OF_MEMORY, p)
  | some b => p.ofBuffer (b.put [type])

end Packet

end EspMqttClient
