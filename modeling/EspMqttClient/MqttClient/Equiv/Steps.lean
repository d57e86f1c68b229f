/-
  What a client does, one step at a time.

  A `Step` is what happens between two moments at which user code can run or the transport is asked: its
  constructors say when it can happen and what it changes.  The calls of a user, sending and the handling
  of a packet that came in are nothing but steps.
-/
import EspMqttClient.MqttClient.History
import EspMqttClient.Packets.Equiv.ParserReports
import Mathlib.Logic.Relation

namespace EspMqttClient

namespace MqttClient

variable {cfg : Config} (env : Env cfg)

/-! ### Steps -/

/-- Nothing changed but the settings, the parser, the timers and the number of questions.  The parser is
still sound if it was. -/
structure Quiet (c c' : MqttClient cfg) : Prop where
  state : c'.state = c.state
  packetId : c'.packetId = c.packetId
  outbox : c'.outbox = c.outbox
  bytesSent : c'.bytesSent = c.bytesSent
  pingSent : c'.pingSent = c.pingSent
  disconnectReason : c'.disconnectReason = c.disconnectReason
  tick : c.tick ≤ c'.tick
  log : c'.log = c.log
  sound : c.parser.Sound → c'.parser.Sound

/-- The type of the packet that was parsed. -/
def incomingType (c : MqttClient cfg) : MQTTPacketType := c.incoming.packetType &&& 0xF0

/-- A packet came in that is handled. -/
def received (c : MqttClient cfg) : MqttClient cfg := c.note (.packet c.parser.report)

/-- A CONNACK makes a client connected. -/
def connectedNow (c : MqttClient cfg) : MqttClient cfg := { c with pingSent := false }.setState .connected

/-- A CONNACK is accepted, up to the callback. -/
def admitted (c : MqttClient cfg) : MqttClient cfg :=
  let c := c.connectedNow.advanceOutbox.2
  if c.incoming.sessionPresent = 0 then c.clearQueue 1 else c

/-- A CONNACK is accepted. -/
def accept (c : MqttClient cfg) : MqttClient cfg :=
  c.admitted.note (.onConnect (c.admitted.incoming.sessionPresent ≠ 0))

/-- A round of `_checkOutbox`. -/
def sendRound (c : MqttClient cfg) : MqttClient cfg :=
  if 0 < (c.sendPacket env).1 then (c.sendPacket env).2.advanceOutbox.2 else (c.sendPacket env).2

/-- After a DISCONNECT the client goes. -/
def farewell (c : MqttClient cfg) (packet : Packet) : MqttClient cfg :=
  if packet.packetType = PacketType.DISCONNECT then
    { c.setState .disconnectingTcp1 with disconnectReason := .USER_OK }
  else c

/-- The cursor leaves the current packet. -/
def leaveCurrent (c : MqttClient cfg) (item : OutgoingPacket) : MqttClient cfg :=
  { c with outbox := leave c.outbox item, bytesSent := 0 }

/-- The end of a connection. -/
def close (c : MqttClient cfg) : MqttClient cfg :=
  ({ c.clearQueue 0 with bytesSent := 0 }.setState .disconnected).note (.onDisconnect c.disconnectReason)

/-- May packets other than the CONNECT be sent? -/
def maySend (c : MqttClient cfg) : Prop :=
  c.state.isOnline ∧ (cfg.waitForConnack → c.log.greeted)

/-- Is there a next round of `_checkOutbox`?  It goes on after it has sent the DISCONNECT. -/
def sends (c : MqttClient cfg) : Prop :=
  c.maySend ∧ (c.state = .disconnectingTcp1 → c.log.sending)

/-- A client that waits for its CONNACK listens to nothing else before. -/
def Heard (c : MqttClient cfg) : Prop :=
  cfg.waitForConnack → c.state = .connectingMqtt ∨ c.log.greeted

/-- Packets other than a CONNACK are handled. -/
structure Listens (c : MqttClient cfg) : Prop where
  online : c.state.isOnline
  opened : c.state ≠ .connectingMqtt
  greeted : cfg.waitForConnack → c.log.greeted

/-- A packet is built from what the allocator gives. -/
def Builds (build : Alloc → Error × Packet) (packet : Packet) : Prop :=
  ∃ alloc, build alloc = (.SUCCESS, packet)

/-- What ends an exchange, and the packet it is for. -/
def finishing : List (MQTTPacketType × MQTTPacketType) :=
  [(PacketType.PUBACK, PacketType.PUBLISH), (PacketType.PUBCOMP, PacketType.PUBREL)]

/-- What takes an exchange further, the packet it is for and the one that follows. -/
def proceeding : List (MQTTPacketType × MQTTPacketType × MQTTPacketType) :=
  [(PacketType.PUBREC, PacketType.PUBLISH, PacketType.PUBREL),
    (PacketType.PUBREL, PacketType.PUBREC, PacketType.PUBCOMP)]

inductive Step : MqttClient cfg → MqttClient cfg → Prop
  | quiet {c c'} (h : Quiet c c') : Step c c'
  | error {c} (packetId : UInt16) : Step c (c.note (.onError packetId .OUT_OF_MEMORY))
  | calls {c} (apiCalls : List ApiCall) : Step c (c.note (.calls apiCalls))
  -- the calls of a user
  | connect {c packet} (hstate : c.state = .disconnected)
      (hpacket : Builds (fun alloc => Packet.connect cfg alloc c.settings.connectArgs) packet) :
      Step c (({ c with outbox := c.outbox.emplaceFront ⟨0, packet, c.tick⟩ }.asked.note
        (.connect c.settings.connectArgs)).setState .connectingTcp1)
  | connectFailed {c} (hstate : c.state = .disconnected) :
      Step c { c with outbox := c.outbox.resetCurrent }.asked
  | disconnect {c} (force : Bool) (h : (c.disconnect force).1) : Step c (c.disconnect force).2
  | nextPacketId {c} : Step c c.getNextPacketId.2
  | publish {c topic qos retain payload packet} (hstate : c.refusesPublish = false)
      (hpacket : Builds (fun alloc =>
        Packet.publish cfg alloc (c.publishPacketId qos).1 topic payload qos retain) packet) :
      Step c (((c.publishPacketId qos).2.push packet).asked.note
        (.publish c.tick (c.publishPacketId qos).1 topic payload qos retain))
  | publishChunked {c topic qos retain callback length packet} (hstate : c.refusesPublish = false)
      (hpacket : Builds (fun alloc =>
        Packet.publishChunked cfg alloc (c.publishPacketId qos).1 topic callback length qos retain) packet) :
      Step c (((c.publishPacketId qos).2.push packet).asked.note
        (.publishChunked c.tick (c.publishPacketId qos).1 topic callback length qos retain))
  | subscribe {c list packet} (hstate : c.state = .connected)
      (hpacket : Builds (fun alloc => Packet.subscribe cfg alloc c.getNextPacketId.1 list) packet) :
      Step c ((c.getNextPacketId.2.push packet).asked.note (.subscribe c.getNextPacketId.1))
  | unsubscribe {c list packet} (hstate : c.state = .connected)
      (hpacket : Builds (fun alloc => Packet.unsubscribe cfg alloc c.getNextPacketId.1 list) packet) :
      Step c ((c.getNextPacketId.2.push packet).asked.note (.unsubscribe c.getNextPacketId.1))
  | clearQueue {c} (deleteSessionData : Bool) : Step c (c.clearQueueApi deleteSessionData)
  -- the connection
  | connecting {c} (hstate : c.state = .connectingTcp1) (hdialling : c.log.dialling) :
      Step c (c.setState .connectingTcp2)
  | established {c} (hstate : c.state = .connectingTcp2) : Step c (c.setState .connectingMqtt)
  | lost {c} (fault : Fault)
      (hstate : c.state.isOnline ∨ c.state = .connectingTcp1 ∨ c.state = .connectingTcp2) :
      Step c (c.lost fault)
  | addDisconnect {c packet} (hstate : c.state = .disconnectingMqtt1) (hempty : c.outbox.items = [])
      (hpacket : Builds (fun alloc => Packet.control cfg alloc PacketType.DISCONNECT) packet) :
      Step c ((c.push packet).asked.setState .disconnectingMqtt2)
  | stop {c} (hstate : c.state = .disconnectingTcp1) :
      Step c ((c.note .stop).setState .disconnectingTcp2)
  | close {c} (hstate : c.state = .disconnectingTcp2) : Step c c.close
  -- the queue
  | sendConnect {c} (hstate : c.state = .connectingMqtt) (hwait : cfg.waitForConnack) :
      Step c (c.sendPacket env).2
  | sendRound {c} (hsend : c.sends) : Step c (c.sendRound env)
  | ping {c packet} (hstate : c.state.isOnline)
      (hpacket : Builds (fun alloc => Packet.control cfg alloc PacketType.PINGREQ) packet) :
      Step c ({ (c.push packet).asked with pingSent := true }.note .ping)
  | timeout {c} (hsend : c.maySend) (hbusy : c.bytesSent = 0) (hcursor : c.outbox.cursor ≠ 0) :
      Step c { c.note .timeout with outbox := c.outbox.resetCurrent }
  -- what comes in
  | unexpected {c} (hstate : c.state = .connectingMqtt) (htype : c.incomingType ≠ PacketType.CONNACK) :
      Step c ((c.note (.fault .unexpectedPacket)).setState .disconnectingTcp1)
  | ignore {c pingSent} (hstate : c.Listens)
      (hping : (pingSent = c.pingSent ∧ c.incomingType ≠ PacketType.PINGRESP) ∨
        (pingSent = false ∧ c.incomingType = PacketType.PINGRESP))
      (hconnack : c.incomingType ≠ PacketType.CONNACK)
      (hpublish : c.incomingType = PacketType.PUBLISH →
        State.disconnectingMqtt1.toNat ≤ c.state.toNat)
      (hpubrel : c.incomingType = PacketType.PUBREL →
        c.findFirst PacketType.PUBREC c.incoming.packetId = none) :
      Step c { c.received with pingSent }
  | refused {c} (hstate : c.state.isOnline) (htype : c.incomingType = PacketType.CONNACK)
      (hcode : c.incoming.returnCode ≠ 0) (hheard : c.Heard) :
      Step c ({ c.received with disconnectReason := .ofReturnCode c.incoming.returnCode }.setState
        .disconnectingTcp1)
  | accept {c} (hstate : c.state.isOnline) (htype : c.incomingType = PacketType.CONNACK)
      (hcode : c.incoming.returnCode = 0) (hheard : c.Heard) : Step c c.received.accept
  | message {c} (hstate : c.Listens) (htype : c.incomingType = PacketType.PUBLISH)
      (hopen : c.state.toNat < State.disconnectingMqtt1.toNat) (hsound : c.parser.Sound)
      (hid : Parser.hasPacketId c.incoming.packetType → c.incoming.packetId ≠ 0) :
      Step c (if (c.received.answerPublish env).1 then
        (c.received.answerPublish env).2.note (.onMessage c.parser.report)
        else (c.received.answerPublish env).2)
  | finish {c it type request} (hexchange : (type, request) ∈ finishing) (hstate : c.Listens)
      (htype : c.incomingType = type) (hid : c.incoming.packetId ≠ 0)
      (hfind : c.findFirst request c.incoming.packetId = some it) :
      Step c ((c.received.remove it).note (.onPublish c.incoming.packetId))
  | proceed {c it type request next} (hexchange : (type, request, next) ∈ proceeding)
      (hstate : c.Listens) (htype : c.incomingType = type) (hid : c.incoming.packetId ≠ 0)
      (hfind : c.findFirst request c.incoming.packetId = some it) :
      Step c ((c.received.addPacket env fun alloc =>
        Packet.ack cfg alloc next c.incoming.packetId).2.remove it)
  | suback {c it} (returncodes : List Byte) (hstate : c.Listens)
      (htype : c.incomingType = PacketType.SUBACK) (hid : c.incoming.packetId ≠ 0)
      (hfind : c.outbox.find (·.isFor PacketType.SUBSCRIBE c.incoming.packetId) = some it) :
      Step c ((c.received.remove it).note (.onSubscribe c.incoming.packetId returncodes))
  | unsuback {c it} (hstate : c.Listens) (htype : c.incomingType = PacketType.UNSUBACK)
      (hid : c.incoming.packetId ≠ 0)
      (hfind : c.outbox.find (·.packet.packetId = c.incoming.packetId) = some it) :
      Step c ((c.received.remove it).note (.onUnsubscribe c.incoming.packetId))

/-- Any number of steps. -/
abbrev Steps : MqttClient cfg → MqttClient cfg → Prop := Relation.ReflTransGen (Step env)

/-! ### Calls are steps -/

variable {env}

theorem quiet_asked (c : MqttClient cfg) : Quiet c c.asked where
  state := rfl
  packetId := rfl
  outbox := rfl
  bytesSent := rfl
  pingSent := rfl
  disconnectReason := rfl
  tick := Nat.le_succ _
  log := rfl
  sound := id

theorem steps_of_quiet {c c' : MqttClient cfg} (h : Quiet c c') : Steps env c c' := .single (.quiet h)

theorem steps_asked (c : MqttClient cfg) : Steps env c c.asked := steps_of_quiet (quiet_asked c)

/-- Adding a packet works out, or it leaves no trace. -/
theorem addPacket_cases (env : Env cfg) (c : MqttClient cfg) (build : Alloc → Error × Packet) :
    (∃ packet, build (env.alloc c.tick) = (.SUCCESS, packet) ∧
      c.addPacket env build = (true, (c.push packet).asked)) ∨
    (((env.alloc c.tick).node = false ∨ (build (env.alloc c.tick)).1 ≠ .SUCCESS) ∧
      c.addPacket env build = (false, c.asked)) := by
  rw [addPacket]
  dsimp only
  split_ifs with hnode herror
  · exact .inl ⟨_, Prod.ext herror rfl, rfl⟩
  · refine .inr ⟨.inr herror, ?_⟩
    simp only [push, CursorList.remove_emplace]
  · exact .inr ⟨.inl (by simpa using hnode), rfl⟩

theorem connect_steps (c : MqttClient cfg) : Steps env c (c.connect env).2 := by
  rw [connect]
  split_ifs with hstate
  · dsimp only
    rw [addPacketFront]
    dsimp only
    split_ifs with hnode herror
    · exact .single (.connect hstate ⟨_, Prod.ext herror rfl⟩)
    · simp only [CursorList.remove_emplaceFront]
      exact .tail (.single (.connectFailed hstate)) (.error 0)
    · exact .tail (steps_asked c) (.error 0)
  · exact .refl

theorem disconnect_steps (c : MqttClient cfg) (force : Bool) : Steps env c (c.disconnect force).2 := by
  by_cases h : (c.disconnect force).1
  · exact .single (.disconnect force h)
  · have hsame : (c.disconnect force).2 = c := by
      simp only [disconnect] at h ⊢
      split_ifs at h ⊢
      · exact absurd rfl h
      · exact absurd rfl h
      · rfl
    rw [hsame]

/-- The packet id of a request that failed is used up. -/
theorem publishPacketId_steps (c : MqttClient cfg) (qos : Byte) :
    Steps env c (c.publishPacketId qos).2 := by
  rw [publishPacketId]
  split_ifs
  · exact .single .nextPacketId
  · exact .refl

@[simp] theorem tick_publishPacketId (c : MqttClient cfg) (qos : Byte) :
    (c.publishPacketId qos).2.tick = c.tick := by
  rw [publishPacketId]
  split_ifs <;> rfl

theorem publish_steps (c : MqttClient cfg) (topic : CString) (qos : Byte) (retain : Bool)
    (payload : List Byte) : Steps env c (c.publish env topic qos retain payload).2 := by
  rw [publish]
  split_ifs with hstate
  · exact .refl
  · rcases addPacket_cases env (c.publishPacketId qos).2 fun alloc =>
      Packet.publish cfg alloc (c.publishPacketId qos).1 topic payload qos retain with
      ⟨packet, hbuild, hadd⟩ | ⟨-, hadd⟩
    · simp only [hadd, tick_publishPacketId]
      exact .single (.publish (by simpa using hstate) ⟨_, hbuild⟩)
    · simp only [hadd]
      exact ((publishPacketId_steps c qos).trans (steps_asked _)).tail (.error _)

theorem publishChunked_steps (c : MqttClient cfg) (topic : CString) (qos : Byte) (retain : Bool)
    (callback : PayloadCallback) (length : ℕ) :
    Steps env c (c.publishChunked env topic qos retain callback length).2 := by
  rw [publishChunked]
  split_ifs with hstate
  · exact .refl
  · rcases addPacket_cases env (c.publishPacketId qos).2 fun alloc =>
      Packet.publishChunked cfg alloc (c.publishPacketId qos).1 topic callback length qos retain with
      ⟨packet, hbuild, hadd⟩ | ⟨-, hadd⟩
    · simp only [hadd, tick_publishPacketId]
      exact .single (.publishChunked (by simpa using hstate) ⟨_, hbuild⟩)
    · simp only [hadd]
      exact ((publishPacketId_steps c qos).trans (steps_asked _)).tail (.error _)

theorem subscribe_steps (c : MqttClient cfg) (topic : CString) (qos : Byte)
    (args : List (CString × Byte)) : Steps env c (c.subscribe env topic qos args).2 := by
  rw [subscribe]
  split_ifs with hstate
  · exact .refl
  · rcases addPacket_cases env c.getNextPacketId.2 fun alloc =>
      Packet.subscribe cfg alloc c.getNextPacketId.1 ((topic, qos) :: args) with
      ⟨packet, hbuild, hadd⟩ | ⟨-, hadd⟩
    · simp only [hadd]
      exact .single (.subscribe (not_not.mp hstate) ⟨_, hbuild⟩)
    · simp only [hadd]
      exact .tail (.single .nextPacketId) (.quiet (quiet_asked _))

theorem unsubscribe_steps (c : MqttClient cfg) (topic : CString) (args : List CString) :
    Steps env c (c.unsubscribe env topic args).2 := by
  rw [unsubscribe]
  split_ifs with hstate
  · exact .refl
  · rcases addPacket_cases env c.getNextPacketId.2 fun alloc =>
      Packet.unsubscribe cfg alloc c.getNextPacketId.1 (topic :: args) with
      ⟨packet, hbuild, hadd⟩ | ⟨-, hadd⟩
    · simp only [hadd]
      exact .single (.unsubscribe (not_not.mp hstate) ⟨_, hbuild⟩)
    · simp only [hadd]
      exact .tail (.single .nextPacketId) (.quiet (quiet_asked _))

/-- **A call of a user** is nothing but steps. -/
theorem call_steps (c : MqttClient cfg) (apiCall : ApiCall) : Steps env c (c.call env apiCall) := by
  cases apiCall with
  | connect => exact connect_steps c
  | disconnect force => exact disconnect_steps c force
  | publish topic qos retain payload => exact publish_steps c topic qos retain payload
  | publishChunked topic qos retain callback length =>
    exact publishChunked_steps c topic qos retain callback length
  | subscribe topic qos args => exact subscribe_steps c topic qos args
  | unsubscribe topic args => exact unsubscribe_steps c topic args
  | clearQueue deleteSessionData => exact .single (.clearQueue deleteSessionData)
  | set setting => exact steps_of_quiet ⟨rfl, rfl, rfl, rfl, rfl, rfl, Nat.le_refl _, rfl, id⟩

theorem calls_steps (apiCalls : List ApiCall) (c : MqttClient cfg) :
    Steps env c (apiCalls.foldl (fun c apiCall => c.call env apiCall) c) := by
  induction apiCalls generalizing c with
  | nil => exact .refl
  | cons apiCall apiCalls ih => exact (call_steps c apiCall).trans (ih _)

/-- What a callback does behind its event. -/
theorem callback_steps (c : MqttClient cfg) (callback : Callback) (event : Event) :
    Steps env (c.note event) (c.callback env callback event) := by
  rw [MqttClient.callback]
  split_ifs
  · exact (Relation.ReflTransGen.tail (.single (.calls _)) (.quiet (quiet_asked _))).trans
      (calls_steps _ _)
  · exact .refl

/-! ### While the connection is open -/

/-- Bytes may come in, and the parser is ready for them.  `greeted` is for what is only done when the
client does not wait for its CONNACK. -/
structure Live (greeted : Prop) (c : MqttClient cfg) : Prop where
  online : c.state.isOnline
  sound : c.parser.Sound
  greeted : greeted → c.log.greeted

variable {greeted : Prop}

@[simp] theorem state_addPacket (c : MqttClient cfg) (build : Alloc → Error × Packet) :
    (c.addPacket env build).2.state = c.state := by
  rcases addPacket_cases env c build with ⟨_, -, h⟩ | ⟨-, h⟩ <;> rw [h] <;> rfl

@[simp] theorem parser_addPacket (c : MqttClient cfg) (build : Alloc → Error × Packet) :
    (c.addPacket env build).2.parser = c.parser := by
  rcases addPacket_cases env c build with ⟨_, -, h⟩ | ⟨-, h⟩ <;> rw [h] <;> rfl

@[simp] theorem greeted_addPacket (c : MqttClient cfg) (build : Alloc → Error × Packet) :
    (c.addPacket env build).2.log.greeted = c.log.greeted := by
  rcases addPacket_cases env c build with ⟨_, -, h⟩ | ⟨-, h⟩ <;> rw [h] <;> rfl

@[simp] theorem greeted_publishPacketId (c : MqttClient cfg) (qos : Byte) :
    (c.publishPacketId qos).2.log.greeted = c.log.greeted := by
  rw [publishPacketId]
  split_ifs <;> rfl

/-- Only the next `connect` takes a greeting back. -/
theorem greeted_note {c : MqttClient cfg} {event : Event} (hevent : ∀ args, event ≠ .connect args)
    (h : c.log.greeted) : (c.note event).log.greeted := by
  cases event with
  | connect args => exact absurd rfl (hevent args)
  | onConnect sessionPresent => rfl
  | _ => exact h

@[simp] theorem state_publishPacketId (c : MqttClient cfg) (qos : Byte) :
    (c.publishPacketId qos).2.state = c.state := by
  rw [publishPacketId]
  split_ifs <;> rfl

@[simp] theorem parser_publishPacketId (c : MqttClient cfg) (qos : Byte) :
    (c.publishPacketId qos).2.parser = c.parser := by
  rw [publishPacketId]
  split_ifs <;> rfl

/-- A request changes neither the state nor the parser. -/
theorem Live.request {c c' : MqttClient cfg} (h : c.Live greeted) (hstate : c'.state = c.state)
    (hparser : c'.parser = c.parser) (hlog : c.log.greeted → c'.log.greeted) : c'.Live greeted where
  online := hstate ▸ h.online
  sound := hparser ▸ h.sound
  greeted hgreeted := hlog (h.greeted hgreeted)

/-- Another state in which bytes may come in. -/
theorem Live.moveTo {c c' : MqttClient cfg} (h : c.Live greeted) (hparser : c'.parser = c.parser)
    (hstate : c'.state.isOnline) (hlog : c.log.greeted → c'.log.greeted) : c'.Live greeted where
  online := hstate
  sound := hparser ▸ h.sound
  greeted hgreeted := hlog (h.greeted hgreeted)

theorem disconnect_live {c : MqttClient cfg} (h : c.Live greeted) (force : Bool) :
    (c.disconnect force).2.Live greeted := by
  rw [disconnect]
  split_ifs
  · exact h.moveTo rfl rfl id
  · exact h.moveTo rfl rfl id
  · exact h

/-- A request leaves a client live, whether there is memory for it or not. -/
theorem Live.addPacket {c : MqttClient cfg} (h : c.Live greeted) (env : Env cfg)
    (build : Alloc → Error × Packet) : (c.addPacket env build).2.Live greeted :=
  h.request (state_addPacket c build) (parser_addPacket c build) (greeted_addPacket c build).ge

theorem Live.publishPacketId {c : MqttClient cfg} (h : c.Live greeted) (qos : Byte) :
    (c.publishPacketId qos).2.Live greeted :=
  h.request (state_publishPacketId c qos) (parser_publishPacketId c qos) (greeted_publishPacketId c qos).ge

/-- No call of a user takes the client offline at once. -/
theorem call_live {c : MqttClient cfg} (h : c.Live greeted) (apiCall : ApiCall) :
    (c.call env apiCall).Live greeted := by
  cases apiCall with
  | connect =>
    have hstate : c.state ≠ .disconnected := by
      intro hstate
      simpa [hstate, State.isOnline] using h.online
    simpa [call, connect, hstate] using h
  | disconnect force => exact disconnect_live h force
  | publish topic qos retain payload =>
    rw [call, publish]
    split_ifs
    · exact h
    · have hlive := (h.publishPacketId qos).addPacket env fun alloc =>
        Packet.publish cfg alloc (c.publishPacketId qos).1 topic payload qos retain
      dsimp only
      split <;> rename_i hadd <;> rw [hadd] at hlive <;> exact hlive.request rfl rfl id
  | publishChunked topic qos retain callback length =>
    rw [call, publishChunked]
    split_ifs
    · exact h
    · have hlive := (h.publishPacketId qos).addPacket env fun alloc =>
        Packet.publishChunked cfg alloc (c.publishPacketId qos).1 topic callback length qos retain
      dsimp only
      split <;> rename_i hadd <;> rw [hadd] at hlive <;> exact hlive.request rfl rfl id
  | subscribe topic qos args =>
    rw [call, subscribe]
    split_ifs
    · exact h
    · have hid : c.getNextPacketId.2.Live greeted := h.request rfl rfl id
      have hlive := hid.addPacket env fun alloc =>
        Packet.subscribe cfg alloc c.getNextPacketId.1 ((topic, qos) :: args)
      dsimp only
      split <;> rename_i hadd <;> rw [hadd] at hlive
      · exact hlive.request rfl rfl id
      · exact hlive
  | unsubscribe topic args =>
    rw [call, unsubscribe]
    split_ifs
    · exact h
    · have hid : c.getNextPacketId.2.Live greeted := h.request rfl rfl id
      have hlive := hid.addPacket env fun alloc =>
        Packet.unsubscribe cfg alloc c.getNextPacketId.1 (topic :: args)
      dsimp only
      split <;> rename_i hadd <;> rw [hadd] at hlive
      · exact hlive.request rfl rfl id
      · exact hlive
  | clearQueue deleteSessionData => exact h.request rfl rfl id
  | set setting => exact h.request rfl rfl id

theorem callback_live {c : MqttClient cfg} (callback : Callback) {event : Event}
    (h : (c.note event).Live greeted) : (c.callback env callback event).Live greeted := by
  have hcalls : ∀ (apiCalls : List ApiCall) {c : MqttClient cfg}, c.Live greeted →
      (apiCalls.foldl (fun c apiCall => c.call env apiCall) c).Live greeted := by
    intro apiCalls
    induction apiCalls with
    | nil => exact id
    | cons apiCall apiCalls ih => exact fun h => ih (call_live h apiCall)
  rw [MqttClient.callback]
  split_ifs
  · exact hcalls _ (h.request rfl rfl id)
  · exact h

/-! ### Sending is steps -/

@[simp] theorem state_sendPacket (c : MqttClient cfg) : (c.sendPacket env).2.state = c.state := by
  rw [sendPacket]
  split
  · rfl
  · dsimp only
    split_ifs <;> rfl

@[simp] theorem greeted_sendPacket (c : MqttClient cfg) :
    (c.sendPacket env).2.log.greeted = c.log.greeted := by
  rw [sendPacket]
  split
  · rfl
  · dsimp only
    split_ifs <;> rfl

@[simp] theorem parser_sendPacket (c : MqttClient cfg) : (c.sendPacket env).2.parser = c.parser := by
  rw [sendPacket]
  split
  · rfl
  · dsimp only
    split_ifs <;> rfl

@[simp] theorem parser_farewell (c : MqttClient cfg) (packet : Packet) :
    (c.farewell packet).parser = c.parser := by
  rw [farewell]
  split_ifs <;> rfl

@[simp] theorem greeted_farewell (c : MqttClient cfg) (packet : Packet) :
    (c.farewell packet).log.greeted = c.log.greeted := by
  rw [farewell]
  split_ifs <;> rfl

/-- `_advanceOutbox` does something when the current packet is written to its end. -/
theorem advanceOutbox_cases (c : MqttClient cfg) :
    (c.advanceOutbox.2 = c ∧ ∀ item, c.outbox.getCurrent = some item → c.bytesSent ≠ item.packet.size) ∨
    ∃ item, c.outbox.getCurrent = some item ∧ c.bytesSent = item.packet.size ∧
      c.advanceOutbox.2 = ((c.farewell item.packet).note (.sent item.packet)).leaveCurrent item := by
  rw [advanceOutbox]
  cases hcurrent : c.outbox.getCurrent with
  | none => exact .inl ⟨rfl, by simp⟩
  | some item =>
    by_cases hsize : c.bytesSent = item.packet.size
    · refine .inr ⟨item, rfl, hsize, ?_⟩
      simp only [hsize, if_true, farewell]
      split_ifs <;> rfl
    · exact .inl ⟨by simp only [hsize, if_false], by simpa using hsize⟩

theorem state_advanceOutbox (c : MqttClient cfg) :
    c.advanceOutbox.2.state = c.state ∨ c.advanceOutbox.2.state = .disconnectingTcp1 := by
  rcases advanceOutbox_cases c with ⟨h, -⟩ | ⟨item, -, -, h⟩
  · exact .inl (by rw [h])
  · rw [h, farewell]
    split_ifs
    · exact .inr rfl
    · exact .inl rfl

@[simp] theorem parser_advanceOutbox (c : MqttClient cfg) : c.advanceOutbox.2.parser = c.parser := by
  rcases advanceOutbox_cases c with ⟨h, -⟩ | ⟨item, -, -, h⟩ <;> rw [h]
  exact parser_farewell c item.packet

@[simp] theorem greeted_advanceOutbox (c : MqttClient cfg) :
    c.advanceOutbox.2.log.greeted = c.log.greeted := by
  rcases advanceOutbox_cases c with ⟨h, -⟩ | ⟨item, -, -, h⟩ <;> rw [h]
  exact greeted_farewell c item.packet

theorem advanceOutbox_live {c : MqttClient cfg} (h : c.Live greeted) : c.advanceOutbox.2.Live greeted := by
  rcases state_advanceOutbox c with hstate | hstate
  · exact h.request hstate (parser_advanceOutbox c) (greeted_advanceOutbox c).ge
  · exact h.moveTo (parser_advanceOutbox c) (by rw [hstate]; rfl) (greeted_advanceOutbox c).ge

theorem sendPacket_live (env : Env cfg) {c : MqttClient cfg} (h : c.Live greeted) :
    (c.sendPacket env).2.Live greeted :=
  h.request (state_sendPacket c) (parser_sendPacket c) (greeted_sendPacket c).ge

theorem sendRound_live (env : Env cfg) {c : MqttClient cfg} (h : c.Live greeted) :
    (c.sendRound env).Live greeted := by
  rw [sendRound]
  split_ifs
  · exact advanceOutbox_live (sendPacket_live env h)
  · exact sendPacket_live env h

theorem Live.maySend {c : MqttClient cfg} (h : c.Live (cfg.waitForConnack = true)) : c.maySend :=
  ⟨h.online, h.greeted⟩

theorem sending_sendPacket (c : MqttClient cfg) (h : 0 < (c.sendPacket env).1) :
    (c.sendPacket env).2.log.sending := by
  rw [sendPacket] at h ⊢
  split at h
  · exact absurd h (lt_irrefl 0)
  · dsimp only at h ⊢
    split_ifs at h ⊢ with hwant
    · exact absurd h (lt_irrefl 0)
    · rfl

theorem sending_advanceOutbox (c : MqttClient cfg) (h : c.log.sending) :
    c.advanceOutbox.2.log.sending := by
  rcases advanceOutbox_cases c with ⟨hsame, -⟩ | ⟨item, -, -, hleft⟩
  · rw [hsame]
    exact h
  · rw [hleft]
    rfl

theorem checkOutbox_steps (env : Env cfg) {c : MqttClient cfg} (h : c.Live (cfg.waitForConnack = true))
    (hopen : c.state ≠ .disconnectingTcp1) :
    Steps env c (c.checkOutbox env) ∧ (c.checkOutbox env).Live (cfg.waitForConnack = true) := by
  have hloop : ∀ (fuel : ℕ) {c : MqttClient cfg}, c.Live (cfg.waitForConnack = true) →
      (c.state = .disconnectingTcp1 → c.log.sending) → Steps env c (c.checkOutboxLoop env fuel) ∧
        (c.checkOutboxLoop env fuel).Live (cfg.waitForConnack = true) := by
    intro fuel
    induction fuel with
    | zero => exact fun h _ => ⟨.refl, h⟩
    | succ fuel ih =>
      intro c h hsending
      have hround := sendRound_live env h
      have hstep : Steps env c (c.sendRound env) := .single (.sendRound ⟨h.maySend, hsending⟩)
      rw [checkOutboxLoop]
      rw [sendRound] at hround hstep
      dsimp only
      split_ifs at hround hstep ⊢ with hwritten
      · have hrest := ih hround fun _ => sending_advanceOutbox _ (sending_sendPacket c hwritten)
        exact ⟨hstep.trans hrest.1, hrest.2⟩
      · exact ⟨hstep, hround⟩
      · exact ⟨hstep, hround⟩
  exact hloop _ h fun hclosing => absurd hclosing hopen

/-! ### Receiving is steps -/

/-- A step and then a callback. -/
theorem step_callback {c c' : MqttClient cfg} {callback : Callback} {event : Event}
    (hstep : Step env c (c'.note event)) (h : c'.Live greeted)
    (hevent : ∀ args, event ≠ .connect args) :
    Steps env c (c'.callback env callback event) ∧ (c'.callback env callback event).Live greeted :=
  ⟨(Relation.ReflTransGen.single hstep).trans (callback_steps c' callback event),
    callback_live callback (h.request rfl rfl (greeted_note hevent))⟩

theorem received_live {c : MqttClient cfg} (h : c.Live greeted) : c.received.Live greeted :=
  h.request rfl rfl id

theorem Listens.received {c : MqttClient cfg} (h : c.Listens) : c.received.Listens :=
  ⟨h.online, h.opened, h.greeted⟩

/-- A packet that changes nothing. -/
theorem ignore_steps {c : MqttClient cfg} (h : c.Live greeted) (hlistens : c.Listens)
    (hconnack : c.incomingType ≠ PacketType.CONNACK) (hpingresp : c.incomingType ≠ PacketType.PINGRESP)
    (hpublish : c.incomingType = PacketType.PUBLISH →
      State.disconnectingMqtt1.toNat ≤ c.state.toNat)
    (hpubrel : c.incomingType = PacketType.PUBREL →
      c.findFirst PacketType.PUBREC c.incoming.packetId = none) :
    Steps env c c.received ∧ c.received.Live greeted :=
  ⟨.single (.ignore (c := c) hlistens (.inl ⟨rfl, hpingresp⟩) hconnack hpublish hpubrel), received_live h⟩

theorem ignoreAck_steps {c : MqttClient cfg} (h : c.Live greeted) (hlistens : c.Listens) {type : MQTTPacketType}
    (htype : c.incomingType = type)
    (hother : type ≠ PacketType.CONNACK ∧ type ≠ PacketType.PINGRESP ∧ type ≠ PacketType.PUBLISH)
    (hpubrel : type = PacketType.PUBREL → c.findFirst PacketType.PUBREC c.incoming.packetId = none) :
    Steps env c c.received ∧ c.received.Live greeted :=
  ignore_steps h hlistens (htype ▸ hother.1) (htype ▸ hother.2.1) (fun hc => absurd (htype ▸ hc) hother.2.2)
    fun hc => hpubrel (htype ▸ hc)

theorem onConnack_of_accepted {c : MqttClient cfg} (hcode : c.incoming.returnCode = 0) :
    c.onConnack env =
      c.admitted.callback env .onConnect (.onConnect (c.admitted.incoming.sessionPresent ≠ 0)) := by
  rw [onConnack, if_pos hcode]
  rfl

theorem admit_live {c : MqttClient cfg} (h : c.Live greeted) : c.admitted.Live greeted := by
  have hlive : c.connectedNow.Live greeted := h.moveTo rfl rfl id
  rw [admitted]
  split_ifs
  · exact (advanceOutbox_live hlive).request rfl rfl id
  · exact advanceOutbox_live hlive

/-- A CONNACK is refused, or the client is welcome. -/
theorem onConnack_steps {c : MqttClient cfg} (h : c.Live greeted)
    (htype : c.incomingType = PacketType.CONNACK) (hheard : c.Heard) :
    Steps env c (c.received.onConnack env) ∧ (c.received.onConnack env).Live greeted ∧
      ((c.received.onConnack env).state = .connected → (c.received.onConnack env).Heard) := by
  by_cases hcode : c.received.incoming.returnCode = 0
  · have hlive : c.received.admitted.Live greeted := admit_live (received_live h)
    have hstep : Step env c (c.received.admitted.note
        (.onConnect (c.received.admitted.incoming.sessionPresent ≠ 0))) := .accept h.online htype hcode hheard
    have hwelcome : (c.received.admitted.note
        (.onConnect (c.received.admitted.incoming.sessionPresent ≠ 0))).Live True :=
      ⟨hlive.online, hlive.sound, fun _ => rfl⟩
    rw [onConnack_of_accepted hcode]
    refine ⟨?_, ?_, fun _ _ => .inr ((callback_live _ hwelcome).greeted trivial)⟩
    · exact (step_callback hstep hlive fun _ h => by cases h).1
    · exact (step_callback hstep hlive fun _ h => by cases h).2
  · rw [onConnack, if_neg hcode]
    exact ⟨.single (.refused h.online htype hcode hheard), h.moveTo rfl rfl id, nofun⟩

/-- The answer to a PUBLISH is a PUBACK, a PUBREC or nothing. -/
theorem answerPublish_cases (env : Env cfg) (c : MqttClient cfg) : (c.answerPublish env).2 = c ∨
    ∃ type, (type = PacketType.PUBACK ∨ type = PacketType.PUBREC) ∧ (c.answerPublish env).2 =
      (c.addPacket env fun alloc => Packet.ack cfg alloc type c.incoming.packetId).2 := by
  rw [answerPublish]
  dsimp only
  split_ifs
  · exact .inr ⟨_, .inl rfl, rfl⟩
  · exact .inl rfl
  · exact .inr ⟨_, .inr rfl, rfl⟩
  · exact .inl rfl
  · exact .inl rfl

@[simp] theorem state_answerPublish (c : MqttClient cfg) :
    (c.answerPublish env).2.state = c.state := by
  rcases answerPublish_cases env c with h | ⟨_, -, h⟩ <;> simp [h]

@[simp] theorem parser_answerPublish (c : MqttClient cfg) :
    (c.answerPublish env).2.parser = c.parser := by
  rcases answerPublish_cases env c with h | ⟨_, -, h⟩ <;> simp [h]

@[simp] theorem greeted_answerPublish (c : MqttClient cfg) :
    (c.answerPublish env).2.log.greeted = c.log.greeted := by
  rcases answerPublish_cases env c with h | ⟨_, -, h⟩ <;> simp [h]

theorem onPublish_steps {c : MqttClient cfg} (h : c.Live greeted) (hlistens : c.Listens)
    (htype : c.incomingType = PacketType.PUBLISH)
    (hopen : c.state.toNat < State.disconnectingMqtt1.toNat)
    (hid : Parser.hasPacketId c.incoming.packetType → c.incoming.packetId ≠ 0) :
    Steps env c (c.received.onPublish env) ∧ (c.received.onPublish env).Live greeted := by
  have hstep : Step env c _ := .message hlistens htype hopen h.sound hid
  have hlive : (c.received.answerPublish env).2.Live greeted :=
    h.request (state_answerPublish c.received) (parser_answerPublish c.received)
      (greeted_answerPublish c.received).ge
  have hparser : (c.received.answerPublish env).2.parser = c.parser := parser_answerPublish c.received
  rw [onPublish]
  dsimp only
  rw [hparser]
  split_ifs at hstep ⊢
  · exact step_callback hstep hlive fun _ h => by cases h
  · exact ⟨.single hstep, hlive⟩

section Acknowledgements

variable {c : MqttClient cfg} (h : c.Live greeted) (hlistens : c.Listens)
  (hid : c.incoming.packetId ≠ 0)
include h hlistens hid

theorem finish_steps {type request : MQTTPacketType} (hexchange : (type, request) ∈ finishing)
    (htype : c.incomingType = type) :
    Steps env c (c.received.finish env request) ∧ (c.received.finish env request).Live greeted := by
  rw [finish]
  cases hfind : c.received.findFirst request c.received.incoming.packetId with
  | none =>
    have hother : (type ≠ PacketType.CONNACK ∧ type ≠ PacketType.PINGRESP ∧ type ≠ PacketType.PUBLISH) ∧
        type ≠ PacketType.PUBREL := by
      revert hexchange
      simp only [finishing, List.mem_cons, Prod.mk.injEq]
      rintro (⟨rfl, -⟩ | ⟨rfl, -⟩ | h)
      · decide
      · decide
      · cases h
    exact ignoreAck_steps h hlistens htype hother.1 fun hpubrel => absurd hpubrel hother.2
  | some it =>
    exact step_callback (.finish hexchange hlistens htype hid hfind) (h.request rfl rfl id)
      fun _ h => by cases h

theorem proceed_steps {type request next : MQTTPacketType}
    (hexchange : (type, request, next) ∈ proceeding) (htype : c.incomingType = type) :
    Steps env c (c.received.proceed env request next) ∧
      (c.received.proceed env request next).Live greeted := by
  rw [proceed]
  cases hfind : c.received.findFirst request c.received.incoming.packetId with
  | none =>
    have hother : (type ≠ PacketType.CONNACK ∧ type ≠ PacketType.PINGRESP ∧ type ≠ PacketType.PUBLISH) ∧
        (type = PacketType.PUBREL → request = PacketType.PUBREC) := by
      revert hexchange
      simp only [proceeding, List.mem_cons, Prod.mk.injEq]
      rintro (⟨rfl, rfl, -⟩ | ⟨rfl, rfl, -⟩ | h)
      · decide
      · decide
      · cases h
    exact ignoreAck_steps h hlistens htype hother.1 fun hpubrel => hother.2 hpubrel ▸ hfind
  | some it =>
    exact ⟨.single (.proceed hexchange hlistens htype hid hfind),
      ((received_live h).addPacket env _).request rfl rfl id⟩

theorem onSuback_steps (htype : c.incomingType = PacketType.SUBACK) :
    Steps env c (c.received.onSuback env) ∧ (c.received.onSuback env).Live greeted := by
  rw [onSuback]
  cases hfind : c.received.outbox.find (·.isFor PacketType.SUBSCRIBE c.received.incoming.packetId) with
  | none => exact ignoreAck_steps h hlistens htype (by decide) fun h => absurd h (by decide)
  | some it =>
    exact step_callback (.suback _ hlistens htype hid hfind) (h.request rfl rfl id) fun _ h => by cases h

theorem onUnsuback_steps (htype : c.incomingType = PacketType.UNSUBACK) :
    Steps env c (c.received.onUnsuback env) ∧ (c.received.onUnsuback env).Live greeted := by
  rw [onUnsuback]
  cases hfind : c.received.outbox.find (·.packet.packetId = c.received.incoming.packetId) with
  | none => exact ignoreAck_steps h hlistens htype (by decide) fun h => absurd h (by decide)
  | some it =>
    exact step_callback (.unsuback hlistens htype hid hfind) (h.request rfl rfl id) fun _ h => by cases h

end Acknowledgements

/-- A packet other than a CONNACK is handled in steps. -/
theorem handle_steps_of_listens {c : MqttClient cfg} (h : c.Live greeted) (hlistens : c.Listens)
    (hid : c.parser.Identified) (hconnack : c.incomingType ≠ PacketType.CONNACK) :
    Steps env c (c.handle env).2 ∧ (c.handle env).2.Live greeted := by
  have hidPublish : c.incomingType = PacketType.PUBLISH →
      Parser.hasPacketId c.incoming.packetType → c.incoming.packetId ≠ 0 := by
    intro htype
    rcases hid with hid | hid | hid | hid
    · exact absurd (htype.symm.trans hid) (by decide)
    · exact absurd (htype.symm.trans hid) (by decide)
    · exact hid.2
    · exact fun _ => hid
  have hid : ∀ {type : MQTTPacketType}, c.incomingType = type → type ≠ PacketType.CONNACK →
      type ≠ PacketType.PINGRESP → type ≠ PacketType.PUBLISH → c.incoming.packetId ≠ 0 := by
    rintro _ rfl h1 h2 h3
    rcases hid with hid | hid | hid | hid
    · exact absurd hid h1
    · exact absurd hid h2
    · exact absurd hid.1 h3
    · exact hid
  rw [handle]
  dsimp only
  rw [← incomingType, if_neg (fun hunexpected => hlistens.opened hunexpected.1), ← received,
    if_neg hconnack]
  by_cases hpublish : c.incomingType = PacketType.PUBLISH
  · rw [if_pos hpublish]
    dsimp only
    split_ifs with hclosing
    · have hother : PacketType.PUBLISH ≠ PacketType.PINGRESP ∧ PacketType.PUBLISH ≠ PacketType.PUBREL :=
        by decide
      exact ignore_steps h hlistens hconnack (hpublish ▸ hother.1) (fun _ => hclosing)
        fun hc => absurd (hpublish ▸ hc) hother.2
    · exact onPublish_steps h hlistens hpublish (Nat.not_le.mp hclosing) (hidPublish hpublish)
  rw [if_neg hpublish]
  by_cases hpuback : c.incomingType = PacketType.PUBACK
  · rw [if_pos hpuback]
    exact finish_steps h hlistens (hid hpuback (by decide) (by decide) (by decide)) (by simp [finishing])
      hpuback
  rw [if_neg hpuback]
  by_cases hpubrec : c.incomingType = PacketType.PUBREC
  · rw [if_pos hpubrec]
    exact proceed_steps h hlistens (hid hpubrec (by decide) (by decide) (by decide)) (by simp [proceeding])
      hpubrec
  rw [if_neg hpubrec]
  by_cases hpubrel : c.incomingType = PacketType.PUBREL
  · rw [if_pos hpubrel]
    exact proceed_steps h hlistens (hid hpubrel (by decide) (by decide) (by decide)) (by simp [proceeding])
      hpubrel
  rw [if_neg hpubrel]
  by_cases hpubcomp : c.incomingType = PacketType.PUBCOMP
  · rw [if_pos hpubcomp]
    exact finish_steps h hlistens (hid hpubcomp (by decide) (by decide) (by decide)) (by simp [finishing])
      hpubcomp
  rw [if_neg hpubcomp]
  by_cases hsuback : c.incomingType = PacketType.SUBACK
  · rw [if_pos hsuback]
    exact onSuback_steps h hlistens (hid hsuback (by decide) (by decide) (by decide)) hsuback
  rw [if_neg hsuback]
  by_cases hunsuback : c.incomingType = PacketType.UNSUBACK
  · rw [if_pos hunsuback]
    exact onUnsuback_steps h hlistens (hid hunsuback (by decide) (by decide) (by decide)) hunsuback
  rw [if_neg hunsuback]
  split_ifs with hpingresp
  · exact ⟨.single (.ignore hlistens (.inr ⟨rfl, hpingresp⟩) hconnack (by simp [hpublish]) (by simp [hpubrel])),
      h.request rfl rfl id⟩
  · exact ignore_steps h hlistens hconnack hpingresp (by simp [hpublish]) (by simp [hpubrel])

/-- **An incoming packet** is handled in steps, and more of them are only if the client is heard. -/
theorem handle_steps {c : MqttClient cfg} (h : c.Live greeted) (hheard : c.Heard)
    (hid : c.parser.Identified) :
    Steps env c (c.handle env).2 ∧ (c.handle env).2.Live greeted ∧
      ((c.handle env).1 → (c.handle env).2.Heard) := by
  by_cases hunexpected : c.state = .connectingMqtt ∧ c.incomingType ≠ PacketType.CONNACK
  · rw [handle]
    dsimp only
    rw [← incomingType, if_pos hunexpected]
    exact ⟨.single (.unexpected hunexpected.1 hunexpected.2), h.moveTo rfl rfl id, nofun⟩
  by_cases hconnack : c.incomingType = PacketType.CONNACK
  · rw [handle]
    dsimp only
    rw [← incomingType, if_neg hunexpected, ← received, if_pos hconnack]
    refine ⟨?_, ?_, fun hmore => ?_⟩
    · exact (onConnack_steps h hconnack hheard).1
    · exact (onConnack_steps h hconnack hheard).2.1
    · exact (onConnack_steps h hconnack hheard).2.2 (by simpa using hmore)
  · have hopened : c.state ≠ .connectingMqtt := fun hstate => hunexpected ⟨hstate, hconnack⟩
    have hlistens : c.Listens := ⟨h.online, hopened, fun hwait => (hheard hwait).resolve_left hopened⟩
    have hwelcome : c.Live (cfg.waitForConnack = true) := ⟨h.online, h.sound, hlistens.greeted⟩
    refine ⟨?_, ?_, fun _ hwait => .inr ?_⟩
    · exact (handle_steps_of_listens h hlistens hid hconnack).1
    · exact (handle_steps_of_listens h hlistens hid hconnack).2
    · exact (handle_steps_of_listens hwelcome hlistens hid hconnack).2.greeted hwait

end MqttClient

end EspMqttClient
