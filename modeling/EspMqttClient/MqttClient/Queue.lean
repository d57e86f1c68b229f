/-
  `MqttClient` — the queue: adding packets, sending them, clearing (`MqttClient.h`, `MqttClient.cpp`).
-/
import EspMqttClient.MqttClient.Basic

namespace EspMqttClient

namespace MqttClient

variable {cfg : Config} (env : Env cfg)

/-! ### Adding -/

/-- `_getNextPacketId`. -/
def getNextPacketId (c : MqttClient cfg) : UInt16 × MqttClient cfg :=
  let packetId := c.packetId + 1
  let packetId := if packetId = 0 then packetId + 1 else packetId
  (packetId, { c with packetId }.note (.nextPacketId packetId))

/-- A packet at the back of the queue. -/
def push (c : MqttClient cfg) (packet : Packet) : MqttClient cfg :=
  { c with outbox := c.outbox.emplace ⟨0, packet, c.tick⟩ }

/-- `_addPacket`: a packet that could not be built is taken out again. -/
def addPacket (c : MqttClient cfg) (build : Alloc → Error × Packet) : Bool × MqttClient cfg :=
  let alloc := env.alloc c.tick
  if alloc.node then
    let (error, packet) := build alloc
    let it := c.outbox.items.length
    let c := c.push packet
    if error = .SUCCESS then (true, c.asked)
    else (false, { c with outbox := c.outbox.remove it }.asked)
  else (false, c.asked)

/-- `_addPacketFront`. -/
def addPacketFront (c : MqttClient cfg) (build : Alloc → Error × Packet) : Bool × MqttClient cfg :=
  let alloc := env.alloc c.tick
  if alloc.node then
    let (error, packet) := build alloc
    let it := 0
    let outbox := c.outbox.emplaceFront ⟨0, packet, c.tick⟩
    if error = .SUCCESS then (true, { c with outbox }.asked)
    else (false, { c with outbox := outbox.remove it }.asked)
  else (false, c.asked)

/-! ### Sending -/

/-- `_sendPacket`: the bytes written, as an `int`. -/
def sendPacket (c : MqttClient cfg) : ℤ × MqttClient cfg :=
  match c.outbox.getCurrent with
  | none => (0, c)
  | some item =>
    let (wantToWrite, packet) := item.packet.available cfg c.tick c.bytesSent
    let c := { c with outbox := c.outbox.modifyCurrent fun item => { item with packet } }.asked
    if wantToWrite = 0 then (0, c)
    else
      let result := env.write c.tick wantToWrite
      let written := (result % cfg.sizeMod).toNat
      let c := (c.note (.write ((packet.dataAt c.bytesSent).take result.toNat))).asked
      let timeSent := c.millis env
      let c := { c with outbox := c.outbox.modifyCurrent fun item => { item with timeSent } }.asked
      let c := { c with lastClientActivity := c.millis env }.asked
      let c := { c with bytesSent := cfg.wrap (c.bytesSent + written) }
      ((written : ℤ).bmod (2 ^ 32), c)

/-- The cursor leaves the current packet, which goes if it is not to be acknowledged. -/
def leave (outbox : CursorList OutgoingPacket) (item : OutgoingPacket) : CursorList OutgoingPacket :=
  if item.packet.removable then outbox.removeCurrent
  -- we already set 'dup' here, in case we have to retry
  else (outbox.modifyCurrent fun item =>
    if item.isType PacketType.PUBLISH then { item with packet := item.packet.setDup } else item).next

/-- `_advanceOutbox`: is there a current packet afterwards? -/
def advanceOutbox (c : MqttClient cfg) : Bool × MqttClient cfg :=
  match c.outbox.getCurrent with
  | none => (false, c)
  | some item =>
    if c.bytesSent = item.packet.size then
      let c :=
        if item.packet.packetType = PacketType.DISCONNECT then
          { c.setState .disconnectingTcp1 with disconnectReason := .USER_OK }
        else c
      let c := c.note (.sent item.packet)
      let outbox := leave c.outbox item
      (outbox.getCurrent.isSome, { c with outbox, bytesSent := 0 })
    else (true, c)

/-- The loop of `_checkOutbox`, at most `fuel` times. -/
def checkOutboxLoop : ℕ → MqttClient cfg → MqttClient cfg
  | 0, c => c
  | fuel + 1, c =>
    let (result, c) := c.sendPacket env
    if 0 < result then
      let (more, c) := c.advanceOutbox
      if more then checkOutboxLoop fuel c else c
    else c

/-- How many bytes there are to send. -/
def unsent (c : MqttClient cfg) : ℕ :=
  (c.outbox.pending.map fun item => item.packet.size).sum

/-- `_checkOutbox`.  Every round writes a byte, so there are at most as many as there are bytes. -/
def checkOutbox (c : MqttClient cfg) : MqttClient cfg := c.checkOutboxLoop env (c.unsent + 1)

/-! ### Clearing -/

/-- What `_clearQueue` keeps: 0: PUBLISH with a packet id, PUBREC and PUBREL, 1: PUBLISH, else
nothing. -/
def keeps (clearData : ℕ) (item : OutgoingPacket) : Bool :=
  if clearData = 0 then
    item.isType PacketType.PUBREC ∨ item.isType PacketType.PUBREL ∨
      (item.isType PacketType.PUBLISH ∧ item.packet.packetId ≠ 0)
  else if clearData = 1 then item.isType PacketType.PUBLISH
  else false

/-- `_clearQueue`: walk the whole queue and remove what is not kept. -/
def clearQueue (c : MqttClient cfg) (clearData : ℕ) : MqttClient cfg :=
  let c := c.note (.clearQueue clearData)
  { c with outbox := .sweep (keeps clearData) c.outbox.size 0 c.outbox }

/-- A handler removes the packet an iterator is on. -/
def remove (c : MqttClient cfg) (position : ℕ) : MqttClient cfg :=
  let c := c.note (.remove position)
  { c with outbox := c.outbox.remove position }

end MqttClient

end EspMqttClient
