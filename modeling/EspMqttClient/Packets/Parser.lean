/-
  `Parser` — the incremental parser (`Parser.h`, `Parser.cpp`).

  The thirteen state functions are called one after the other on the unread input.  Twelve of them
  read one byte; `payloadPublish` takes as much of the payload as there is.  `_data`, `_len` and
  `_bytesRead` only pass the unread input from `parse` to the state functions and the count back, so
  they are arguments and results here.
-/
import EspMqttClient.Packets.Codec

namespace EspMqttClient

inductive ParserResult
  | awaitData
  | packet
  | protocolError
deriving DecidableEq, Repr

/-- The state function that reads the next byte. -/
inductive ParserFunc
  | fixedHeader
  | remainingLengthFixed
  | remainingLengthNone
  | remainingLengthVariable
  | varHeaderConnack1
  | varHeaderConnack2
  | varHeaderPacketId1
  | varHeaderPacketId2
  | varHeaderTopicLength1
  | varHeaderTopicLength2
  | varHeaderTopic
  | payloadSuback
  | payloadPublish
deriving DecidableEq, Repr

/-- Where `payload.data` points. -/
inductive PayloadData
  | null
  | payloadBuffer
  /-- Into the input: the bytes from there to the end of the buffer that is being parsed. -/
  | input (bytes : List Byte)

structure Payload where
  data : PayloadData
  length : ℕ
  index : ℕ
  total : ℕ

/-- The quality of service in the first byte of a PUBLISH. -/
def publishQos (packetType : Byte) : Byte :=
  if packetType &&& 0xF0 ≠ PacketType.PUBLISH then 0 else (packetType &&& 0x06) >>> 1

def publishRetain (packetType : Byte) : Bool :=
  if packetType &&& 0xF0 ≠ PacketType.PUBLISH then false else packetType &&& 0x01 ≠ 0

def publishDup (packetType : Byte) : Bool :=
  if packetType &&& 0xF0 ≠ PacketType.PUBLISH then false else packetType &&& 0x08 ≠ 0

/-- The two unions of the source are apart here: `remainingLength` is written after the last
`remainingLengthRaw` was read, and both members of `fixed` are cleared by `reset`.  What is parsed after a
length field that is too long, without a `reset`, is another matter: the source writes its next byte behind
`remainingLengthRaw`, onto other members, and then decodes -1, while here the byte is dropped and 0 decoded.
No result turns on the number. -/
structure IncomingPacket (cfg : Config) where
  packetType : Byte
  remainingLength : ℕ
  remainingLengthRaw : Vector Byte 4
  topicLength : UInt16
  /-- The array, with whatever is behind the delimiter. -/
  topic : Vector Byte (cfg.maxTopicLength + 1)
  sessionPresent : Byte
  returnCode : Byte
  packetId : UInt16
  payload : Payload

namespace IncomingPacket

variable {cfg : Config}

def qos (p : IncomingPacket cfg) : Byte := publishQos p.packetType

def retain (p : IncomingPacket cfg) : Bool := publishRetain p.packetType

def dup (p : IncomingPacket cfg) : Bool := publishDup p.packetType

/-- `reset`.  The total, the topic and the remaining length stay. -/
def reset (p : IncomingPacket cfg) : IncomingPacket cfg :=
  { p with
    packetType := 0
    topicLength := 0
    sessionPresent := 0
    returnCode := 0
    packetId := 0
    payload := { p.payload with index := 0, length := 0 } }

end IncomingPacket

structure Parser (cfg : Config) where
  bytePos : ℕ
  parse : ParserFunc
  packet : IncomingPacket cfg
  payloadBuffer : Vector Byte cfg.payloadBufferSize

namespace Parser

variable {cfg : Config}

/-- A new parser. -/
def new (cfg : Config) : Parser cfg where
  bytePos := 0
  parse := .fixedHeader
  packet := ⟨0, 0, .replicate 4 0, 0, .replicate _ 0, 0, 0, 0, ⟨.null, 0, 0, 0⟩⟩
  payloadBuffer := .replicate _ 0

def reset (p : Parser cfg) : Parser cfg :=
  { p with parse := .fixedHeader, bytePos := 0, packet := p.packet.reset }

/-! ### The state functions -/

def fixedHeader (p : Parser cfg) (byte : Byte) : ParserResult × Parser cfg :=
  let p := { p with packet := { p.packet.reset with packetType := byte } }
  if byte &&& 0xF0 = PacketType.PUBLISH then
    let headerFlags := byte &&& 0x0F
    if headerFlags ≤ 0x05 ∨ headerFlags ≥ 0x0A then
      (.awaitData, { p with parse := .remainingLengthVariable, bytePos := 0 })
    else (.protocolError, p)
  else if byte = PacketType.CONNACK ||| HeaderFlag.CONNACK_RESERVED
      ∨ byte = PacketType.PUBACK ||| HeaderFlag.PUBACK_RESERVED
      ∨ byte = PacketType.PUBREC ||| HeaderFlag.PUBREC_RESERVED
      ∨ byte = PacketType.PUBREL ||| HeaderFlag.PUBREL_RESERVED
      ∨ byte = PacketType.PUBCOMP ||| HeaderFlag.PUBCOMP_RESERVED
      ∨ byte = PacketType.UNSUBACK ||| HeaderFlag.UNSUBACK_RESERVED then
    (.awaitData, { p with parse := .remainingLengthFixed })
  else if byte = PacketType.SUBACK ||| HeaderFlag.SUBACK_RESERVED then
    (.awaitData, { p with parse := .remainingLengthVariable, bytePos := 0 })
  else if byte = PacketType.PINGRESP ||| HeaderFlag.PINGRESP_RESERVED then
    (.awaitData, { p with parse := .remainingLengthNone })
  else (.protocolError, p)

def remainingLengthFixed (p : Parser cfg) (byte : Byte) : ParserResult × Parser cfg :=
  let p := { p with packet := { p.packet with remainingLength := byte.toNat } }
  if byte.toNat = 2 then
    if p.packet.packetType &&& 0xF0 ≠ PacketType.CONNACK then
      (.awaitData, { p with parse := .varHeaderPacketId1 })
    else (.awaitData, { p with parse := .varHeaderConnack1 })
  else (.protocolError, { p with parse := .fixedHeader })

def remainingLengthVariable (p : Parser cfg) (byte : Byte) : ParserResult × Parser cfg :=
  let raw := p.packet.remainingLengthRaw.setIfInBounds p.bytePos byte
  let p := { p with packet := { p.packet with remainingLengthRaw := raw } }
  if byte &&& 0x80 ≠ 0 then
    let p := { p with bytePos := p.bytePos + 1 }
    if p.bytePos = 4 then (.protocolError, p) else (.awaitData, p)
  else
    let remainingLength := (decodeRemainingLength raw.toList).toNat
    let p := { p with packet := { p.packet with remainingLength } }
    if p.packet.packetType &&& 0xF0 = PacketType.PUBLISH then
      (.awaitData, { p with parse := .varHeaderTopicLength1 })
    else
      -- total - packet ID
      let payloadSize : ℤ := remainingLength - 2
      if 0 < payloadSize ∧ payloadSize < cfg.payloadBufferSize then
        let payload := ⟨.payloadBuffer, payloadSize.toNat, 0, payloadSize.toNat⟩
        (.awaitData, { p with
          bytePos := 0
          packet := { p.packet with payload }
          parse := .varHeaderPacketId1 })
      else (.protocolError, { p with parse := .fixedHeader })

def remainingLengthNone (p : Parser cfg) (byte : Byte) : ParserResult × Parser cfg :=
  let p := { p with
    packet := { p.packet with remainingLength := byte.toNat }
    parse := .fixedHeader }
  if byte.toNat = 0 then (.packet, p) else (.protocolError, p)

def varHeaderConnack1 (p : Parser cfg) (byte : Byte) : ParserResult × Parser cfg :=
  -- session present flag: equal to 0 or 1
  if byte < 2 then
    (.awaitData, { p with
      packet := { p.packet with sessionPresent := byte }
      parse := .varHeaderConnack2 })
  else (.protocolError, { p with parse := .fixedHeader })

def varHeaderConnack2 (p : Parser cfg) (byte : Byte) : ParserResult × Parser cfg :=
  let p := { p with parse := .fixedHeader }
  -- connect return code max is 5
  if byte ≤ 5 then (.packet, { p with packet := { p.packet with returnCode := byte } })
  else (.protocolError, p)

def varHeaderPacketId1 (p : Parser cfg) (byte : Byte) : ParserResult × Parser cfg :=
  (.awaitData, { p with
    packet := { p.packet with packetId := p.packet.packetId ||| byte.toUInt16 <<< 8 }
    parse := .varHeaderPacketId2 })

def varHeaderPacketId2 (p : Parser cfg) (byte : Byte) : ParserResult × Parser cfg :=
  let packetId := p.packet.packetId ||| byte.toUInt16
  let p := { p with packet := { p.packet with packetId }, parse := .fixedHeader }
  if packetId ≠ 0 then
    if p.packet.packetType &&& 0xF0 = PacketType.SUBACK then
      (.awaitData, { p with parse := .payloadSuback })
    else if p.packet.packetType &&& 0xF0 = PacketType.PUBLISH then
      -- substract packet id length from payload
      let total := cfg.sub p.packet.payload.total 2
      let p := { p with packet := { p.packet with payload := { p.packet.payload with total } } }
      if total = 0 then (.packet, p)
      else (.awaitData, { p with parse := .payloadPublish })
    else (.packet, p)
  else (.protocolError, p)

def varHeaderTopicLength1 (p : Parser cfg) (byte : Byte) : ParserResult × Parser cfg :=
  (.awaitData, { p with
    packet := { p.packet with topicLength := byte.toUInt16 <<< 8 }
    parse := .varHeaderTopicLength2 })

/-- Does a PUBLISH carry a packet id? -/
def hasPacketId (packetType : Byte) : Bool :=
  packetType &&& (HeaderFlag.PUBLISH_QOS1 ||| HeaderFlag.PUBLISH_QOS2) ≠ 0

def varHeaderTopicLength2 (p : Parser cfg) (byte : Byte) : ParserResult × Parser cfg :=
  let topicLength := p.packet.topicLength ||| byte.toUInt16
  let p := { p with packet := { p.packet with topicLength } }
  let maxTopicLength := cfg.sub (cfg.sub p.packet.remainingLength 2)
    (if hasPacketId p.packet.packetType then 2 else 0)
  if topicLength.toNat ≤ maxTopicLength then
    let total := cfg.sub (cfg.sub p.packet.remainingLength 2) topicLength.toNat
    (.awaitData, { p with
      parse := .varHeaderTopic
      bytePos := 0
      packet := { p.packet with payload := { p.packet.payload with total } } })
  else (.protocolError, { p with parse := .fixedHeader })

def varHeaderTopic (p : Parser cfg) (byte : Byte) : ParserResult × Parser cfg :=
  let topic := p.packet.topic.setIfInBounds p.bytePos byte
  let bytePos := p.bytePos + 1
  let p := { p with packet := { p.packet with topic }, bytePos }
  if bytePos = p.packet.topicLength.toNat ∨ bytePos = cfg.maxTopicLength then
    -- add c-string delimiter
    let p := { p with packet := { p.packet with topic := topic.setIfInBounds bytePos 0 } }
    if hasPacketId p.packet.packetType then
      (.awaitData, { p with parse := .varHeaderPacketId1 })
    else if p.packet.payload.total = 0 then
      (.packet, { p with parse := .fixedHeader })
    else (.awaitData, { p with parse := .payloadPublish })
  else (.awaitData, p)

def payloadSuback (p : Parser cfg) (byte : Byte) : ParserResult × Parser cfg :=
  if byte < 0x03 ∨ byte = 0x80 then
    let p := { p with
      payloadBuffer := p.payloadBuffer.setIfInBounds p.bytePos byte
      bytePos := p.bytePos + 1 }
    if p.bytePos = p.packet.payload.total then (.packet, { p with parse := .fixedHeader })
    else (.awaitData, p)
  else (.protocolError, { p with parse := .fixedHeader })

/-- A slice of the payload: everything there is of it in `input`, the unread bytes. -/
def payloadPublish (p : Parser cfg) (input : List Byte) : Parser cfg :=
  let index := p.packet.payload.index + p.packet.payload.length
  let length := min input.length (p.packet.payload.total - index)
  let payload := ⟨.input input, length, index, p.packet.payload.total⟩
  let p := { p with packet := { p.packet with payload } }
  if index + length = p.packet.payload.total then { p with parse := .fixedHeader } else p

/-- One call of a state function on the unread input `byte :: rest`, and how many bytes it read. -/
def call (p : Parser cfg) (byte : Byte) (rest : List Byte) : ParserResult × ℕ × Parser cfg :=
  let one (r : ParserResult × Parser cfg) : ParserResult × ℕ × Parser cfg := (r.1, 1, r.2)
  match p.parse with
  | .fixedHeader => one (p.fixedHeader byte)
  | .remainingLengthFixed => one (p.remainingLengthFixed byte)
  | .remainingLengthNone => one (p.remainingLengthNone byte)
  | .remainingLengthVariable => one (p.remainingLengthVariable byte)
  | .varHeaderConnack1 => one (p.varHeaderConnack1 byte)
  | .varHeaderConnack2 => one (p.varHeaderConnack2 byte)
  | .varHeaderPacketId1 => one (p.varHeaderPacketId1 byte)
  | .varHeaderPacketId2 => one (p.varHeaderPacketId2 byte)
  | .varHeaderTopicLength1 => one (p.varHeaderTopicLength1 byte)
  | .varHeaderTopicLength2 => one (p.varHeaderTopicLength2 byte)
  | .varHeaderTopic => one (p.varHeaderTopic byte)
  | .payloadSuback => one (p.payloadSuback byte)
  | .payloadPublish =>
    let p := p.payloadPublish (byte :: rest)
    (.packet, p.packet.payload.length, p)

/-- `parse`: call state functions until there is a result or the input ends.  The count is
`*bytesRead`. -/
def parseInput (p : Parser cfg) : List Byte → ParserResult × ℕ × Parser cfg
  | [] => (.awaitData, 0, p)
  | byte :: rest =>
    match p.call byte rest with
    | (.awaitData, _, p) =>
      let (result, bytesRead, p) := p.parseInput rest
      (result, bytesRead + 1, p)
    | other => other

/-! ### What a caller reads off -/

/-- The bytes `payload.data` points to. -/
def payloadData (p : Parser cfg) : List Byte :=
  match p.packet.payload.data with
  | .null => []
  | .payloadBuffer => p.payloadBuffer.toList
  | .input bytes => bytes

/-- The contents of a packet as a caller of `getPacket` reads them. -/
structure Report where
  packetType : Byte
  remainingLength : ℕ
  topic : List Byte
  sessionPresent : Byte
  returnCode : Byte
  packetId : UInt16
  payload : List Byte
  index : ℕ
  total : ℕ
deriving DecidableEq

/-- `getPacket`, with the topic as the C string it is and `length` bytes of payload. -/
def report (p : Parser cfg) : Report where
  packetType := p.packet.packetType
  remainingLength := p.packet.remainingLength
  topic := p.packet.topic.toList.takeWhile (· ≠ 0)
  sessionPresent := p.packet.sessionPresent
  returnCode := p.packet.returnCode
  packetId := p.packet.packetId
  payload := p.payloadData.take p.packet.payload.length
  index := p.packet.payload.index
  total := p.packet.payload.total

end Parser

end EspMqttClient
