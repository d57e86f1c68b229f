/-
  `MqttClient` — what a user calls (`MqttClient.h`, `MqttClient.cpp`, `MqttClientSetup.h`).

  `_onErrorCallback` can not be registered, so `_onError` is only an event here.
-/
import EspMqttClient.MqttClient.Queue

namespace EspMqttClient

namespace MqttClient

variable {cfg : Config} (env : Env cfg)

def isConnected (c : MqttClient cfg) : Bool := c.state = .connected

def isDisconnected (c : MqttClient cfg) : Bool := c.state = .disconnected

def connect (c : MqttClient cfg) : Bool × MqttClient cfg :=
  if c.state = .disconnected then
    let args := c.settings.connectArgs
    match c.addPacketFront env fun alloc => Packet.connect cfg alloc args with
    | (true, c) => (true, (c.note (.connect args)).setState .connectingTcp1)
    | (false, c) => (false, c.note (.onError 0 .OUT_OF_MEMORY))
  else (false, c)

def disconnect (c : MqttClient cfg) (force : Bool) : Bool × MqttClient cfg :=
  if force ∧ c.state ≠ .disconnected ∧ c.state ≠ .disconnectingTcp1 ∧ c.state ≠ .disconnectingTcp2 then
    (true, (c.note (.disconnect force)).setState .disconnectingTcp1)
  else if ¬ force ∧ c.state = .connected then
    (true, (c.note (.disconnect force)).setState .disconnectingMqtt1)
  else (false, c)

/-- Is `publish` turned down in this state? -/
def refusesPublish (c : MqttClient cfg) : Bool :=
  if cfg.allowNotConnectedPublish then State.connected.toNat < c.state.toNat else c.state ≠ .connected

/-- The packet id of a PUBLISH. -/
def publishPacketId (c : MqttClient cfg) (qos : Byte) : UInt16 × MqttClient cfg :=
  if 0 < qos then c.getNextPacketId else (1, c)

def publish (c : MqttClient cfg) (topic : CString) (qos : Byte) (retain : Bool) (payload : List Byte) :
    UInt16 × MqttClient cfg :=
  if c.refusesPublish then (0, c)
  else
    let (packetId, c) := c.publishPacketId qos
    let added := c.tick
    match c.addPacket env fun alloc => Packet.publish cfg alloc packetId topic payload qos retain with
    | (true, c) => (packetId, c.note (.publish added packetId topic payload qos retain))
    | (false, c) => (0, c.note (.onError packetId .OUT_OF_MEMORY))

/-- `publish` with a payload callback. -/
def publishChunked (c : MqttClient cfg) (topic : CString) (qos : Byte) (retain : Bool)
    (callback : PayloadCallback) (length : ℕ) : UInt16 × MqttClient cfg :=
  if c.refusesPublish then (0, c)
  else
    let (packetId, c) := c.publishPacketId qos
    let added := c.tick
    match c.addPacket env fun alloc =>
      Packet.publishChunked cfg alloc packetId topic callback length qos retain with
    | (true, c) => (packetId, c.note (.publishChunked added packetId topic callback length qos retain))
    | (false, c) => (0, c.note (.onError packetId .OUT_OF_MEMORY))

def subscribe (c : MqttClient cfg) (topic : CString) (qos : Byte) (args : List (CString × Byte)) :
    UInt16 × MqttClient cfg :=
  if c.state ≠ .connected then (0, c)
  else
    let (packetId, c) := c.getNextPacketId
    match c.addPacket env fun alloc => Packet.subscribe cfg alloc packetId ((topic, qos) :: args) with
    | (true, c) => (packetId, c.note (.subscribe packetId))
    | (false, c) => (0, c)

def unsubscribe (c : MqttClient cfg) (topic : CString) (args : List CString) :
    UInt16 × MqttClient cfg :=
  if c.state ≠ .connected then (0, c)
  else
    let (packetId, c) := c.getNextPacketId
    match c.addPacket env fun alloc => Packet.unsubscribe cfg alloc packetId (topic :: args) with
    | (true, c) => (packetId, c.note (.unsubscribe packetId))
    | (false, c) => (0, c)

/-- `clearQueue(bool)`. -/
def clearQueueApi (c : MqttClient cfg) (deleteSessionData : Bool) : MqttClient cfg :=
  c.clearQueue (if deleteSessionData then 2 else 0)

/-- A setter of `MqttClientSetup`. -/
def set (c : MqttClient cfg) (setting : Setting) : MqttClient cfg :=
  { c with settings := c.settings.set setting }

/-- One call of a user, who may not look at the result. -/
def call (c : MqttClient cfg) : ApiCall → MqttClient cfg
  | .connect => (c.connect env).2
  | .disconnect force => (c.disconnect force).2
  | .publish topic qos retain payload => (c.publish env topic qos retain payload).2
  | .publishChunked topic qos retain callback length =>
    (c.publishChunked env topic qos retain callback length).2
  | .subscribe topic qos args => (c.subscribe env topic qos args).2
  | .unsubscribe topic args => (c.unsubscribe env topic args).2
  | .clearQueue deleteSessionData => c.clearQueueApi deleteSessionData
  | .set setting => c.set setting

/-- A callback is due: if one is registered it is called, and what it calls is done. -/
def callback (c : MqttClient cfg) (callback : Callback) (event : Event) : MqttClient cfg :=
  let c := c.note event
  if c.settings.registered callback then
    let apiCalls := env.callback c.tick
    apiCalls.foldl (fun c apiCall => c.call env apiCall) (c.note (.calls apiCalls)).asked
  else c

end MqttClient

end EspMqttClient
