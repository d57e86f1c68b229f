/-
  `MqttClient` with its mutex (`EMC_SEMAPHORE_TAKE` and `EMC_SEMAPHORE_GIVE` of `Helpers.h`).

  The mutex is taken wherever the queue is used, and given back while a registered callback runs, because that
  may call the client again.  A payload callback runs while it is taken, and calls nothing here.  The mutex can
  not be taken twice: who tries waits for ever, which is `none` here, and so is giving back what one does not
  have.  The functions are those of the client without a mutex, with the calls of the two macros where the source
  has them.  A function that has none is used as it is.
-/
import EspMqttClient.MqttClient.Loop

namespace EspMqttClient

/-- A client, and whether its mutex is taken. -/
structure Guarded (cfg : Config) where
  client : MqttClient cfg
  taken : Bool

namespace Guarded

variable {cfg : Config} (env : Env cfg)

/-- `EMC_SEMAPHORE_TAKE()`. -/
def take (g : Guarded cfg) : Option (Guarded cfg) :=
  if g.taken then none else some { g with taken := true }

/-- `EMC_SEMAPHORE_GIVE()`. -/
def give (g : Guarded cfg) : Option (Guarded cfg) :=
  if g.taken then some { g with taken := false } else none

/-- What leaves the mutex alone. -/
def update (g : Guarded cfg) (f : MqttClient cfg → MqttClient cfg) : Guarded cfg :=
  { g with client := f g.client }

/-! ### What a user calls -/

def connect (g : Guarded cfg) : Option (Bool × Guarded cfg) :=
  if g.client.state = .disconnected then do
    let g ← g.take
    let args := g.client.settings.connectArgs
    match g.client.addPacketFront env fun alloc => Packet.connect cfg alloc args with
    | (true, client) => do
      let g := { g with client }.update fun c => (c.note (.connect args)).setState .connectingTcp1
      let g ← g.give
      return (true, g)
    | (false, client) => do
      let g ← { g with client }.give
      let g := g.update fun c => c.note (.onError 0 .OUT_OF_MEMORY)
      let g ← g.take
      let g ← g.give
      return (false, g)
  else some (false, g)

/-- The end of `publish`: the mutex is given back for `_onError`, too. -/
def finishPublish (g : Guarded cfg) (packetId : UInt16) (event : Event) :
    Bool × MqttClient cfg → Option (UInt16 × Guarded cfg)
  | (true, client) => do
    let g ← { g with client := client.note event }.give
    return (packetId, g)
  | (false, client) => do
    let g ← { g with client }.give
    let g := g.update fun c => c.note (.onError packetId .OUT_OF_MEMORY)
    let g ← g.take
    let g ← g.give
    return (0, g)

def publish (g : Guarded cfg) (topic : CString) (qos : Byte) (retain : Bool) (payload : List Byte) :
    Option (UInt16 × Guarded cfg) :=
  if g.client.refusesPublish then some (0, g)
  else do
    let g ← g.take
    let (packetId, client) := g.client.publishPacketId qos
    g.finishPublish packetId (.publish client.tick packetId topic payload qos retain)
      (client.addPacket env fun alloc => Packet.publish cfg alloc packetId topic payload qos retain)

/-- `publish` with a payload callback. -/
def publishChunked (g : Guarded cfg) (topic : CString) (qos : Byte) (retain : Bool)
    (callback : PayloadCallback) (length : ℕ) : Option (UInt16 × Guarded cfg) :=
  if g.client.refusesPublish then some (0, g)
  else do
    let g ← g.take
    let (packetId, client) := g.client.publishPacketId qos
    g.finishPublish packetId (.publishChunked client.tick packetId topic callback length qos retain)
      (client.addPacket env fun alloc =>
        Packet.publishChunked cfg alloc packetId topic callback length qos retain)

def subscribe (g : Guarded cfg) (topic : CString) (qos : Byte) (args : List (CString × Byte)) :
    Option (UInt16 × Guarded cfg) :=
  if g.client.state ≠ .connected then some (0, g)
  else do
    let g ← g.take
    let (packetId, client) := g.client.getNextPacketId
    let (packetId, client) :=
      match client.addPacket env fun alloc => Packet.subscribe cfg alloc packetId ((topic, qos) :: args) with
      | (true, client) => (packetId, client.note (.subscribe packetId))
      | (false, client) => (0, client)
    let g ← { g with client }.give
    return (packetId, g)

def unsubscribe (g : Guarded cfg) (topic : CString) (args : List CString) : Option (UInt16 × Guarded cfg) :=
  if g.client.state ≠ .connected then some (0, g)
  else do
    let g ← g.take
    let (packetId, client) := g.client.getNextPacketId
    let (packetId, client) :=
      match client.addPacket env fun alloc => Packet.unsubscribe cfg alloc packetId (topic :: args) with
      | (true, client) => (packetId, client.note (.unsubscribe packetId))
      | (false, client) => (0, client)
    let g ← { g with client }.give
    return (packetId, g)

/-- `clearQueue(bool)`. -/
def clearQueueApi (g : Guarded cfg) (deleteSessionData : Bool) : Option (Guarded cfg) := do
  let g ← g.take
  (g.update (·.clearQueueApi deleteSessionData)).give

def queueSize (g : Guarded cfg) : Option (ℕ × Guarded cfg) := do
  let g ← g.take
  let ret := g.client.outbox.size
  let g ← g.give
  return (ret, g)

/-- One call of a user.  `disconnect` and the setters do without the mutex. -/
def call (g : Guarded cfg) : ApiCall → Option (Guarded cfg)
  | .connect => (g.connect env).map Prod.snd
  | .disconnect force => some (g.update fun c => (c.disconnect force).2)
  | .publish topic qos retain payload => (g.publish env topic qos retain payload).map Prod.snd
  | .publishChunked topic qos retain callback length =>
    (g.publishChunked env topic qos retain callback length).map Prod.snd
  | .subscribe topic qos args => (g.subscribe env topic qos args).map Prod.snd
  | .unsubscribe topic args => (g.unsubscribe env topic args).map Prod.snd
  | .clearQueue deleteSessionData => g.clearQueueApi deleteSessionData
  | .set setting => some (g.update (·.set setting))

/-- A callback of the user's runs, and calls the client. -/
def runCallback (g : Guarded cfg) : Option (Guarded cfg) :=
  let apiCalls := env.callback g.client.tick
  apiCalls.foldlM (fun g apiCall => g.call env apiCall) (g.update fun c => (c.note (.calls apiCalls)).asked)

/-- A callback is due in a handler: the mutex is given back for it. -/
def callback (g : Guarded cfg) (callback : Callback) (event : Event) : Option (Guarded cfg) :=
  let g := g.update (·.note event)
  if g.client.settings.registered callback then do
    let g ← g.give
    let g ← g.runCallback env
    g.take
  else some g

/-! ### Incoming packets -/

def onConnack (g : Guarded cfg) : Option (Guarded cfg) :=
  if g.client.incoming.returnCode = 0 then
    let g := g.update fun c =>
      let (_, c) := ({ c with pingSent := false }.setState .connected).advanceOutbox
      if c.incoming.sessionPresent = 0 then c.clearQueue 1 else c
    g.callback env .onConnect (.onConnect (g.client.incoming.sessionPresent ≠ 0))
  else
    some (g.update fun c =>
      { c with disconnectReason := .ofReturnCode c.incoming.returnCode }.setState .disconnectingTcp1)

def onPublish (g : Guarded cfg) : Option (Guarded cfg) :=
  let (callback, client) := g.client.answerPublish env
  if callback then { g with client }.callback env .onMessage (.onMessage client.parser.report)
  else some { g with client }

/-- `_onPuback` and `_onPubcomp`. -/
def finish (g : Guarded cfg) (type : MQTTPacketType) : Option (Guarded cfg) :=
  let idToMatch := g.client.incoming.packetId
  match g.client.findFirst type idToMatch with
  | some it => (g.update (·.remove it)).callback env .onPublish (.onPublish idToMatch)
  | none => some g

def onSuback (g : Guarded cfg) : Option (Guarded cfg) :=
  let idToMatch := g.client.incoming.packetId
  match g.client.outbox.find (·.isFor PacketType.SUBSCRIBE idToMatch) with
  | some it =>
    (g.update (·.remove it)).callback env .onSubscribe
      (.onSubscribe idToMatch (g.client.parser.payloadData.take g.client.incoming.payload.total))
  | none => some g

def onUnsuback (g : Guarded cfg) : Option (Guarded cfg) :=
  let idToMatch := g.client.incoming.packetId
  match g.client.outbox.find (·.packet.packetId = idToMatch) with
  | some it => (g.update (·.remove it)).callback env .onUnsubscribe (.onUnsubscribe idToMatch)
  | none => some g

def handle (g : Guarded cfg) : Option (Bool × Guarded cfg) :=
  let packetType := g.client.incoming.packetType &&& 0xF0
  if g.client.state = .connectingMqtt ∧ packetType ≠ PacketType.CONNACK then
    some (false, g.update fun c => (c.note (.fault .unexpectedPacket)).setState .disconnectingTcp1)
  else do
    let g := g.update fun c => c.note (.packet c.parser.report)
    let goesOn (g : Guarded cfg) : Bool × Guarded cfg := (true, g)
    if packetType = PacketType.CONNACK then do
      let g ← g.onConnack env
      return (g.client.state = .connected, g)
    else if packetType = PacketType.PUBLISH then
      if State.disconnectingMqtt1.toNat ≤ g.client.state.toNat then some (true, g)
      else (g.onPublish env).map goesOn
    else if packetType = PacketType.PUBACK then (g.finish env PacketType.PUBLISH).map goesOn
    else if packetType = PacketType.PUBREC then some (true, g.update (·.onPubrec env))
    else if packetType = PacketType.PUBREL then some (true, g.update (·.onPubrel env))
    else if packetType = PacketType.PUBCOMP then (g.finish env PacketType.PUBREL).map goesOn
    else if packetType = PacketType.SUBACK then (g.onSuback env).map goesOn
    else if packetType = PacketType.UNSUBACK then (g.onUnsuback env).map goesOn
    else if packetType = PacketType.PINGRESP then some (true, g.update fun c => { c with pingSent := false })
    else some (true, g)

/-- The loop of `_checkIncoming`, at most `fuel` times. -/
def checkIncomingLoop : ℕ → Guarded cfg → List Byte → Option (Guarded cfg)
  | 0, g, _ => some g
  | fuel + 1, g, input =>
    if input = [] then some g
    else
      let (result, bytesParsed, parser) := g.client.parser.parseInput input
      let g := g.update fun c => { c with parser }.note (.parsed (input.take bytesParsed))
      match result with
      | .packet => do
        let (more, g) ← g.handle env
        if more then checkIncomingLoop fuel g (input.drop bytesParsed) else some g
      | .protocolError => some (g.update (·.lost .protocolError))
      | .awaitData => checkIncomingLoop fuel g (input.drop bytesParsed)

/-- `_checkIncoming`. -/
def checkIncoming (g : Guarded cfg) : Option (Guarded cfg) :=
  let input := env.read g.client.tick
  let g := g.update fun c => (c.note (.read input)).asked
  if input = [] then some g
  else
    let g := g.update fun c => { c with lastServerActivity := c.millis env }.asked
    g.checkIncomingLoop env input.length input

/-! ### `loop` -/

/-- `loop` in `connected`, in `disconnectingMqtt2` and, if packets may be sent before the CONNACK, in
`connectingMqtt`. -/
def loopConnected (g : Guarded cfg) : Option (Guarded cfg) :=
  if env.connected g.client.tick then do
    let g ← (g.update (·.asked)).take
    let g ← (g.update (·.checkOutbox env)).checkIncoming env
    (g.update fun c => (c.checkPing env).checkTimeout env).give
  else some (g.update fun c => c.asked.lost .transport)

/-- `loop` in `connectingMqtt`. -/
def loopConnectingMqtt (g : Guarded cfg) : Option (Guarded cfg) :=
  if cfg.waitForConnack then
    if env.connected g.client.tick then do
      let g ← (g.update (·.asked)).take
      let g ← (g.update fun c => (c.sendPacket env).2).checkIncoming env
      (g.update (·.checkPing env)).give
    else some (g.update fun c => c.asked.lost .transport)
  else g.loopConnected env

/-- `loop` in `disconnectingMqtt1`. -/
def loopDisconnectingMqtt1 (g : Guarded cfg) : Option (Guarded cfg) := do
  let g ← g.take
  let g ←
    if g.client.outbox.items = [] then
      match g.client.addPacket env fun alloc => Packet.control cfg alloc PacketType.DISCONNECT with
      | (false, client) => do
        let g ← { g with client }.give
        (g.update fun c => c.note (.onError 0 .OUT_OF_MEMORY)).take
      | (true, client) => some ({ g with client }.update (·.setState .disconnectingMqtt2))
    else some g
  let g ← (g.update (·.checkOutbox env)).checkIncoming env
  (g.update fun c => (c.checkPing env).checkTimeout env).give

/-- `loop` in `disconnectingTcp2`: the callback runs without the mutex. -/
def loopDisconnectingTcp2 (g : Guarded cfg) : Option (Guarded cfg) :=
  if env.disconnected g.client.tick then do
    let g ← (g.update (·.asked)).take
    let g ← (g.update (·.clearQueue 0)).give
    let g := g.update fun c => { c with bytesSent := 0 }.setState .disconnected
    let g := g.update fun c => c.note (.onDisconnect c.disconnectReason)
    if g.client.settings.registered .onDisconnect then g.runCallback env else some g
  else some (g.update (·.asked))

def loop (g : Guarded cfg) : Option (Guarded cfg) :=
  match g.client.state with
  | .disconnected => some g
  | .connectingTcp1 => some (g.update (·.loopConnectingTcp1 env))
  | .connectingTcp2 => some (g.update (·.loopConnectingTcp2 env))
  | .connectingMqtt => g.loopConnectingMqtt env
  | .connected => g.loopConnected env
  | .disconnectingMqtt1 => g.loopDisconnectingMqtt1 env
  | .disconnectingMqtt2 => g.loopConnected env
  | .disconnectingTcp1 => some (g.update fun c => (c.note .stop).setState .disconnectingTcp2)
  | .disconnectingTcp2 => g.loopDisconnectingTcp2 env

def act (g : Guarded cfg) : MqttClient.Action → Option (Guarded cfg)
  | .call apiCall => g.call env apiCall
  | .loop => g.loop env

/-- A run: one action after the other. -/
def run (g : Guarded cfg) (actions : List MqttClient.Action) : Option (Guarded cfg) :=
  actions.foldlM (fun g action => g.act env action) g

end Guarded

end EspMqttClient
