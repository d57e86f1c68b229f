/-
  `MqttClient` — its data (`MqttClient.h`, `MqttClientSetup.h`, `TypeDefs.h`).

  The outbox is a `CursorList`, which is what the linked queue amounts to (`Session.run_refines`).
  What the client does not decide is an `Env`: every call of the transport, the clock, the allocator or a
  user callback is a question with a number, `tick`, and the environment is a table of answers.

  `log` is ghost state: what happened so far, newest first, and how the client stood at that moment.
-/
import EspMqttClient.Data.CursorList
import EspMqttClient.Packets.Packet
import EspMqttClient.Packets.Parser

namespace EspMqttClient

/-! ### States and reasons -/

inductive State
  | disconnected
  | connectingTcp1
  | connectingTcp2
  | connectingMqtt
  | connected
  | disconnectingMqtt1
  | disconnectingMqtt2
  | disconnectingTcp1
  | disconnectingTcp2
deriving DecidableEq, Repr

namespace State

/-- The number of the enumerator. -/
def toNat : State → ℕ
  | disconnected => 0
  | connectingTcp1 => 1
  | connectingTcp2 => 2
  | connectingMqtt => 3
  | connected => 4
  | disconnectingMqtt1 => 5
  | disconnectingMqtt2 => 6
  | disconnectingTcp1 => 7
  | disconnectingTcp2 => 8

/-- Is there a TCP connection that bytes may come in on? -/
def isOnline : State → Bool
  | connectingMqtt | connected | disconnectingMqtt1 | disconnectingMqtt2 | disconnectingTcp1 => true
  | _ => false

end State

inductive DisconnectReason
  | USER_OK
  | MQTT_UNACCEPTABLE_PROTOCOL_VERSION
  | MQTT_IDENTIFIER_REJECTED
  | MQTT_SERVER_UNAVAILABLE
  | MQTT_MALFORMED_CREDENTIALS
  | MQTT_NOT_AUTHORIZED
  | TLS_BAD_FINGERPRINT
  | TCP_DISCONNECTED
deriving DecidableEq, Repr

/-- The reason with a CONNACK return code for its number.  The parser lets none above 5 through. -/
def DisconnectReason.ofReturnCode (returnCode : Byte) : DisconnectReason :=
  if returnCode = 0 then USER_OK
  else if returnCode = 1 then MQTT_UNACCEPTABLE_PROTOCOL_VERSION
  else if returnCode = 2 then MQTT_IDENTIFIER_REJECTED
  else if returnCode = 3 then MQTT_SERVER_UNAVAILABLE
  else if returnCode = 4 then MQTT_MALFORMED_CREDENTIALS
  else if returnCode = 5 then MQTT_NOT_AUTHORIZED
  else if returnCode = 6 then TLS_BAD_FINGERPRINT
  else TCP_DISCONNECTED

/-! ### Settings -/

/-- The callbacks a user can register. -/
inductive Callback
  | onConnect
  | onDisconnect
  | onSubscribe
  | onUnsubscribe
  | onMessage
  | onPublish
deriving DecidableEq, Repr

/-- The members that the setters of `MqttClientSetup` assign. -/
structure Settings where
  clientId : Option CString
  keepAlive : UInt32
  cleanSession : Bool
  username : Option CString
  password : Option CString
  willTopic : Option CString
  willPayload : Option (List Byte)
  willPayloadLength : UInt16
  willQos : Byte
  willRetain : Bool
  timeout : UInt32
  registered : Callback → Bool

/-- A call of a setter. -/
inductive Setting
  | keepAlive (keepAlive : UInt16)
  | clientId (clientId : Option CString)
  | cleanSession (cleanSession : Bool)
  | credentials (username password : Option CString)
  | will (topic : Option CString) (qos : Byte) (retain : Bool) (payload : Option (List Byte))
      (length : ℕ)
  | timeout (timeout : UInt16)
  | callback (callback : Callback) (registered : Bool)

namespace Settings

/-- The settings of a new client. -/
def new (cfg : Config) (generatedClientId : CString) : Settings where
  clientId := some generatedClientId
  keepAlive := 15000
  cleanSession := true
  username := none
  password := none
  willTopic := none
  willPayload := none
  willPayloadLength := 0
  willQos := 0
  willRetain := false
  timeout := cfg.txTimeout
  registered := fun _ => false

def set (s : Settings) : Setting → Settings
  | .keepAlive keepAlive => { s with keepAlive := keepAlive.toUInt32 * 1000 }
  | .clientId clientId => { s with clientId }
  | .cleanSession cleanSession => { s with cleanSession }
  | .credentials username password => { s with username, password }
  | .will topic qos retain payload length => { s with
      willTopic := topic
      willQos := qos
      willRetain := retain
      willPayload := payload
      willPayloadLength := if payload.isNone then 0 else UInt16.ofNat length }
  | .timeout timeout => { s with timeout := timeout.toUInt32 * 1000 }
  | .callback callback registered => { s with
      registered := fun other => if other = callback then registered else s.registered other }

/-- What `connect` passes on to the packet. -/
def connectArgs (s : Settings) : Packet.ConnectArgs where
  cleanSession := s.cleanSession
  username := s.username
  password := s.password
  willTopic := s.willTopic
  willRetain := s.willRetain
  willQos := s.willQos
  willPayload := s.willPayload
  willPayloadLength := s.willPayloadLength
  keepAlive := (s.keepAlive / 1000).toUInt16
  clientId := s.clientId

end Settings

/-! ### Calls -/

/-- What a user can call. -/
inductive ApiCall
  | connect
  | disconnect (force : Bool)
  | publish (topic : CString) (qos : Byte) (retain : Bool) (payload : List Byte)
  | publishChunked (topic : CString) (qos : Byte) (retain : Bool) (callback : PayloadCallback)
      (length : ℕ)
  | subscribe (topic : CString) (qos : Byte) (args : List (CString × Byte))
  | unsubscribe (topic : CString) (args : List CString)
  | clearQueue (deleteSessionData : Bool)
  | set (setting : Setting)

/-! ### The environment -/

/-- The answers of everything around the client, by the number of the question. -/
structure Env (cfg : Config) where
  /-- `_transport->connect`. -/
  connect : ℕ → Bool
  /-- `_transport->connected`. -/
  connected : ℕ → Bool
  /-- `_transport->disconnected`. -/
  disconnected : ℕ → Bool
  /-- What becomes of a `_transport->write` of so many bytes: how many are accepted, -1 for a failure. -/
  write : (tick size : ℕ) → ℤ
  /-- The bytes of a `_transport->read`, none for a result that is not positive. -/
  read : ℕ → List Byte
  /-- `millis()`. -/
  millis : ℕ → ℕ
  alloc : ℕ → Alloc
  /-- What a user's callback calls. -/
  callback : ℕ → List ApiCall
  le_write : ∀ tick size : ℕ, -1 ≤ write tick size
  write_le : ∀ tick size : ℕ, write tick size ≤ size
  length_read_le : ∀ tick : ℕ, (read tick).length ≤ cfg.rxBufferSize

/-! ### The client -/

structure OutgoingPacket where
  timeSent : UInt32
  packet : Packet
  /-- Ghost: when the packet was added.  It tells packets apart. -/
  added : ℕ

namespace OutgoingPacket

/-- Is it a packet of this type? -/
def isType (type : MQTTPacketType) (item : OutgoingPacket) : Bool := item.packet.packetType = type

/-- Is it a packet of this type with this packet id? -/
def isFor (type : MQTTPacketType) (packetId : UInt16) (item : OutgoingPacket) : Bool :=
  item.isType type ∧ item.packet.packetId = packetId

end OutgoingPacket

/-- What can be wrong with a connection. -/
inductive Fault
  /-- The transport could not connect or is not connected any more. -/
  | transport
  /-- The parser returned an error. -/
  | protocolError
  /-- The first packet is not a CONNACK. -/
  | unexpectedPacket
  /-- The server exceeded the keepalive time. -/
  | keepAlive
deriving DecidableEq, Repr

/-- What can happen.  The last ones are the callbacks that are due: a callback is called if one is
registered. -/
inductive Event
  /-- `_setState` to this state. -/
  | state (state : State)
  | fault (fault : Fault)
  /-- `connect` returned true: a CONNECT was built from these arguments. -/
  | connect (args : Packet.ConnectArgs)
  /-- `disconnect` returned true. -/
  | disconnect (force : Bool)
  /-- `publish` returned this packet id.  `added` is that of the packet. -/
  | publish (added : ℕ) (packetId : UInt16) (topic : CString) (payload : List Byte) (qos : Byte)
      (retain : Bool)
  | publishChunked (added : ℕ) (packetId : UInt16) (topic : CString) (callback : PayloadCallback)
      (length : ℕ) (qos : Byte) (retain : Bool)
  | subscribe (packetId : UInt16)
  | unsubscribe (packetId : UInt16)
  /-- `_getNextPacketId` returned this packet id. -/
  | nextPacketId (packetId : UInt16)
  | transportConnect (success : Bool)
  /-- The transport accepted these bytes. -/
  | write (bytes : List Byte)
  | read (bytes : List Byte)
  /-- `Parser::parse` consumed these bytes. -/
  | parsed (bytes : List Byte)
  | stop
  /-- The current packet was written to its end and the cursor leaves it. -/
  | sent (packet : Packet)
  /-- The parser returned a packet that the client goes on to handle. -/
  | packet (report : Parser.Report)
  /-- A handler takes the packet at this position out of the outbox. -/
  | remove (position : ℕ)
  /-- `_clearQueue` is called. -/
  | clearQueue (clearData : ℕ)
  /-- A PINGREQ was added. -/
  | ping
  /-- The cursor goes back to the front. -/
  | timeout
  /-- A callback is called, and calls these. -/
  | calls (apiCalls : List ApiCall)
  | onConnect (sessionPresent : Bool)
  | onDisconnect (reason : DisconnectReason)
  | onSubscribe (packetId : UInt16) (returncodes : List Byte)
  | onUnsubscribe (packetId : UInt16)
  | onMessage (report : Parser.Report)
  | onPublish (packetId : UInt16)
  | onError (packetId : UInt16) (error : Error)

/-- An event and how the client stood. -/
structure Record where
  event : Event
  state : State
  outbox : CursorList OutgoingPacket
  bytesSent : ℕ
  disconnectReason : DisconnectReason

/-- What happened, newest first. -/
abbrev Log := List Record

structure MqttClient (cfg : Config) where
  settings : Settings
  state : State
  packetId : UInt16
  outbox : CursorList OutgoingPacket
  bytesSent : ℕ
  parser : Parser cfg
  lastClientActivity : UInt32
  lastServerActivity : UInt32
  pingSent : Bool
  disconnectReason : DisconnectReason
  /-- How many questions the environment was asked. -/
  tick : ℕ
  /-- Ghost: what happened so far. -/
  log : Log

namespace MqttClient

variable {cfg : Config}

/-- A new client. -/
def new (cfg : Config) (generatedClientId : CString) : MqttClient cfg where
  settings := .new cfg generatedClientId
  state := .disconnected
  packetId := 0
  outbox := .empty
  bytesSent := 0
  parser := .new cfg
  lastClientActivity := 0
  lastServerActivity := 0
  pingSent := false
  disconnectReason := .TCP_DISCONNECTED
  tick := 0
  log := []

/-- A question was asked. -/
def asked (c : MqttClient cfg) : MqttClient cfg := { c with tick := c.tick + 1 }

/-- Something happened. -/
def note (c : MqttClient cfg) (event : Event) : MqttClient cfg :=
  { c with log := ⟨event, c.state, c.outbox, c.bytesSent, c.disconnectReason⟩ :: c.log }

/-- `_setState`. -/
def setState (c : MqttClient cfg) (state : State) : MqttClient cfg :=
  { c.note (.state state) with state }

/-- `millis()` in a 32-bit variable. -/
def millis (c : MqttClient cfg) (env : Env cfg) : UInt32 := UInt32.ofNat (env.millis c.tick)

end MqttClient

end EspMqttClient
