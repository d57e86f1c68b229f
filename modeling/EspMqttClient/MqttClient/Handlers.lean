/-
  `MqttClient` — the handlers of incoming packets (`MqttClient.cpp`).

  A handler looks for a packet in the outbox with an iterator, adds the next packet of the exchange to
  the back and removes the one it found.  The iterator is a position here.
-/
import EspMqttClient.MqttClient.Api

namespace EspMqttClient

namespace MqttClient

variable {cfg : Config} (env : Env cfg)

/-- The packet that was parsed. -/
def incoming (c : MqttClient cfg) : IncomingPacket cfg := c.parser.packet

/-- Where the first packet of this type is, if it has this packet id.  Acknowledgements come in the
order the packets were sent, so only the first one is checked. -/
def findFirst (c : MqttClient cfg) (type : MQTTPacketType) (packetId : UInt16) : Option ℕ := do
  let it ← c.outbox.find (·.isType type)
  let item ← c.outbox.items[it]?
  if item.packet.packetId = packetId then some it else none

def onConnack (c : MqttClient cfg) : MqttClient cfg :=
  if c.incoming.returnCode = 0 then
    let c := { c with pingSent := false }.setState .connected
    let (_, c) := c.advanceOutbox
    let c := if c.incoming.sessionPresent = 0 then c.clearQueue 1 else c
    c.callback env .onConnect (.onConnect (c.incoming.sessionPresent ≠ 0))
  else
    { c with disconnectReason := .ofReturnCode c.incoming.returnCode }.setState .disconnectingTcp1

/-- `_onPublish` up to the callback, and whether that is due: a message of quality 2 whose packet id has
a PUBREC in the queue was delivered before. -/
def answerPublish (c : MqttClient cfg) : Bool × MqttClient cfg :=
  let p := c.incoming
  let packetId := p.packetId
  let complete : Bool := p.payload.index + p.payload.length = p.payload.total
  if p.qos = 1 then
    if complete then
      (true, (c.addPacket env fun alloc => Packet.ack cfg alloc PacketType.PUBACK packetId).2)
    else (true, c)
  else if p.qos = 2 then
    let callback := (c.outbox.find (·.isFor PacketType.PUBREC packetId)).isNone
    if complete then
      (callback, (c.addPacket env fun alloc => Packet.ack cfg alloc PacketType.PUBREC packetId).2)
    else (callback, c)
  else (true, c)

def onPublish (c : MqttClient cfg) : MqttClient cfg :=
  let (callback, c) := c.answerPublish env
  if callback then c.callback env .onMessage (.onMessage c.parser.report) else c

/-- The end of an exchange: the first packet of this type goes if it has the packet id that came in. -/
def finish (c : MqttClient cfg) (type : MQTTPacketType) : MqttClient cfg :=
  let idToMatch := c.incoming.packetId
  match c.findFirst type idToMatch with
  | some it => (c.remove it).callback env .onPublish (.onPublish idToMatch)
  | none => c

/-- The next packet of an exchange takes the place of the first one of this type, if that has the packet
id that came in. -/
def proceed (c : MqttClient cfg) (type next : MQTTPacketType) : MqttClient cfg :=
  let idToMatch := c.incoming.packetId
  match c.findFirst type idToMatch with
  | some it => (c.addPacket env fun alloc => Packet.ack cfg alloc next idToMatch).2.remove it
  | none => c

def onPuback (c : MqttClient cfg) : MqttClient cfg := c.finish env PacketType.PUBLISH

def onPubrec (c : MqttClient cfg) : MqttClient cfg := c.proceed env PacketType.PUBLISH PacketType.PUBREL

def onPubrel (c : MqttClient cfg) : MqttClient cfg := c.proceed env PacketType.PUBREC PacketType.PUBCOMP

def onPubcomp (c : MqttClient cfg) : MqttClient cfg := c.finish env PacketType.PUBREL

def onSuback (c : MqttClient cfg) : MqttClient cfg :=
  let idToMatch := c.incoming.packetId
  match c.outbox.find (·.isFor PacketType.SUBSCRIBE idToMatch) with
  | some it =>
    (c.remove it).callback env .onSubscribe
      (.onSubscribe idToMatch (c.parser.payloadData.take c.incoming.payload.total))
  | none => c

/-- Here the type of the packet is not compared. -/
def onUnsuback (c : MqttClient cfg) : MqttClient cfg :=
  let idToMatch := c.incoming.packetId
  match c.outbox.find (·.packet.packetId = idToMatch) with
  | some it => (c.remove it).callback env .onUnsubscribe (.onUnsubscribe idToMatch)
  | none => c

/-- What `_checkIncoming` does with a packet: the client, and whether it goes on with the buffer. -/
def handle (c : MqttClient cfg) : Bool × MqttClient cfg :=
  let packetType := c.incoming.packetType &&& 0xF0
  if c.state = .connectingMqtt ∧ packetType ≠ PacketType.CONNACK then
    (false, (c.note (.fault .unexpectedPacket)).setState .disconnectingTcp1)
  else
    let c := c.note (.packet c.parser.report)
    if packetType = PacketType.CONNACK then
      let c := c.onConnack env
      (c.state = .connected, c)
    else if packetType = PacketType.PUBLISH then
      -- stop processing incoming once user has called disconnect
      (true, if State.disconnectingMqtt1.toNat ≤ c.state.toNat then c else c.onPublish env)
    else if packetType = PacketType.PUBACK then (true, c.onPuback env)
    else if packetType = PacketType.PUBREC then (true, c.onPubrec env)
    else if packetType = PacketType.PUBREL then (true, c.onPubrel env)
    else if packetType = PacketType.PUBCOMP then (true, c.onPubcomp env)
    else if packetType = PacketType.SUBACK then (true, c.onSuback env)
    else if packetType = PacketType.UNSUBACK then (true, c.onUnsuback env)
    else if packetType = PacketType.PINGRESP then (true, { c with pingSent := false })
    else (true, c)

end MqttClient

end EspMqttClient
