/-
  What happens to the queue.

  A `Flow` is one change of the outbox, of what was sent of its current packet, of the state or of the log.
  Every move is nothing but flows (`Move.flows`), so what is kept by every flow holds in every run
  (`run_flow_invariant`).
-/
import EspMqttClient.MqttClient.Equiv.Cycles

namespace EspMqttClient

namespace MqttClient

variable {cfg : Config} (env : Env cfg)

/-- The queue, the state and the log are the same. -/
structure Keeps (c c' : MqttClient cfg) : Prop where
  state : c'.state = c.state
  outbox : c'.outbox = c.outbox
  bytesSent : c'.bytesSent = c.bytesSent
  tick : c.tick ≤ c'.tick
  log : c'.log = c.log

/-- Can a client go from one state to another? -/
def leads : State → State → Bool
  | .connectingTcp1, .connectingTcp2 => true
  | .connectingTcp2, .connectingMqtt => true
  | .connected, .disconnectingMqtt1 => true
  | .disconnectingTcp1, .disconnectingTcp2 => true
  | from_, .disconnectingTcp1 => from_ ≠ .disconnected ∧ from_ ≠ .disconnectingTcp2
  | _, _ => false

/-- A packet is added on request, and the event that says so. -/
inductive Requested (c : MqttClient cfg) : Packet → Event → Prop
  | publish {packetId topic qos retain payload packet} (hstate : c.refusesPublish = false)
      (hid : qos ≠ 0 → packetId ≠ 0)
      (hpacket : Builds (fun alloc => Packet.publish cfg alloc packetId topic payload qos retain) packet) :
      Requested c packet (.publish c.tick packetId topic payload qos retain)
  | publishChunked {packetId topic qos retain callback length packet} (hstate : c.refusesPublish = false)
      (hid : qos ≠ 0 → packetId ≠ 0)
      (hpacket : Builds (fun alloc =>
        Packet.publishChunked cfg alloc packetId topic callback length qos retain) packet) :
      Requested c packet (.publishChunked c.tick packetId topic callback length qos retain)
  | subscribe {packetId list packet} (hstate : c.state = .connected) (hid : packetId ≠ 0)
      (hpacket : Builds (fun alloc => Packet.subscribe cfg alloc packetId list) packet) :
      Requested c packet (.subscribe packetId)
  | unsubscribe {packetId list packet} (hstate : c.state = .connected) (hid : packetId ≠ 0)
      (hpacket : Builds (fun alloc => Packet.unsubscribe cfg alloc packetId list) packet) :
      Requested c packet (.unsubscribe packetId)
  | ping {packet} (hstate : c.state.isOnline)
      (hpacket : Builds (fun alloc => Packet.control cfg alloc PacketType.PINGREQ) packet) :
      Requested c packet .ping

inductive Flow : MqttClient cfg → MqttClient cfg → Prop
  | keep {c c'} (h : Keeps c c') : Flow c c'
  | note {c} (event : Event) (hmute : event.isMute) : Flow c (c.note event)
  | transportConnect {c} (success : Bool) (hstate : c.state = .connectingTcp1) :
      Flow c (c.note (.transportConnect success))
  | move {c} (next : State) (hleads : leads c.state next)
      (hdialling : next = .connectingTcp2 → c.log.dialling) : Flow c (c.setState next)
  | connect {c args packet} (hstate : c.state = .disconnected)
      (hpacket : Builds (fun alloc => Packet.connect cfg alloc args) packet) :
      Flow c (({ c with outbox := c.outbox.emplaceFront ⟨0, packet, c.tick⟩ }.asked.note
        (.connect args)).setState .connectingTcp1)
  | rewind {c} (h : c.state = .disconnected ∨ c.maySend ∧ c.log.sending = false ∧ c.bytesSent = 0) :
      Flow c { c with outbox := c.outbox.resetCurrent }
  | request {c packet event} (h : Requested c packet event) :
      Flow c ((c.push packet).asked.note event)
  | answer {c type packetId packet} (hlistens : c.Listens) (hquiet : c.log.sending = false)
      (htype : type ∈ [PacketType.PUBACK, PacketType.PUBREC, PacketType.PUBREL, PacketType.PUBCOMP])
      (hid : packetId ≠ 0) (hpacket : Builds (fun alloc => Packet.ack cfg alloc type packetId) packet) :
      Flow c (c.push packet).asked
  | addDisconnect {c packet} (hstate : c.state = .disconnectingMqtt1) (hempty : c.outbox.items = [])
      (hpacket : Builds (fun alloc => Packet.control cfg alloc PacketType.DISCONNECT) packet) :
      Flow c ((c.push packet).asked.setState .disconnectingMqtt2)
  | remove {c it item} (hlistens : c.Listens) (hitem : c.outbox.items[it]? = some item)
      (hid : item.packet.packetId ≠ 0) : Flow c (c.remove it)
  | clearQueue {c} (deleteSessionData : Bool) : Flow c (c.clearQueueApi deleteSessionData)
  | sendConnect {c} (hstate : c.state = .connectingMqtt) (hwait : cfg.waitForConnack) :
      Flow c (c.sendPacket env).2
  | sendRound {c} (hsend : c.sends) : Flow c (c.sendRound env)
  | accept {c} (hstate : c.state.isOnline) (hheard : c.Heard) : Flow c c.accept
  | close {c} (hstate : c.state = .disconnectingTcp2) : Flow c c.close

/-- Any number of flows. -/
abbrev Flows : MqttClient cfg → MqttClient cfg → Prop := Relation.ReflTransGen (Flow env)

variable {env}

/-! ### Moves are flows -/

theorem keeps_of_log {c c' : MqttClient cfg} (hstate : c'.state = c.state) (houtbox : c'.outbox = c.outbox)
    (hbytes : c'.bytesSent = c.bytesSent) (htick : c.tick ≤ c'.tick) (hlog : c'.log = c.log) :
    Flows env c c' := .single (.keep ⟨hstate, houtbox, hbytes, htick, hlog⟩)

theorem note_flows (c : MqttClient cfg) {event : Event} (h : event.isMute) : Flows env c (c.note event) :=
  .single (.note event h)

theorem asked_flows (c : MqttClient cfg) : Flows env c c.asked := keeps_of_log rfl rfl rfl (Nat.le_succ _) rfl

theorem getNextPacketId_flows (c : MqttClient cfg) : Flows env c c.getNextPacketId.2 := by
  rw [getNextPacketId]
  have hkeep : Flows env c { c with packetId := c.getNextPacketId.1 } := keeps_of_log rfl rfl rfl le_rfl rfl
  exact hkeep.trans (note_flows _ rfl)

theorem publishPacketId_flows (c : MqttClient cfg) (qos : Byte) : Flows env c (c.publishPacketId qos).2 := by
  rw [publishPacketId]
  split_ifs
  · exact getNextPacketId_flows c
  · exact .refl

/-- 0 is never a packet id. -/
theorem getNextPacketId_ne_zero (c : MqttClient cfg) : c.getNextPacketId.1 ≠ 0 := by
  rw [getNextPacketId]
  dsimp only
  split_ifs with hzero
  · rw [hzero]
    decide
  · exact hzero

theorem publishPacketId_ne_zero (c : MqttClient cfg) {qos : Byte} (h : qos ≠ 0) :
    (c.publishPacketId qos).1 ≠ 0 := by
  rw [publishPacketId, if_pos (UInt8.pos_iff_ne_zero.mpr h)]
  exact getNextPacketId_ne_zero c

@[simp] theorem refusesPublish_publishPacketId (c : MqttClient cfg) (qos : Byte) :
    (c.publishPacketId qos).2.refusesPublish = c.refusesPublish := by
  simp only [refusesPublish, state_publishPacketId]

theorem disconnect_flows {c : MqttClient cfg} (force : Bool) (h : (c.disconnect force).1) :
    Flows env c (c.disconnect force).2 := by
  rw [disconnect] at h ⊢
  split_ifs at h ⊢ with hforce hgentle
  · have hleads : leads c.state .disconnectingTcp1 := by
      generalize c.state = state at hforce
      obtain ⟨-, h1, h2, h3⟩ := hforce
      cases state <;> simp_all [leads]
    exact (note_flows c rfl).tail (.move _ hleads fun h => by cases h)
  · have hleads : leads c.state .disconnectingMqtt1 := by
      rw [hgentle.2]
      rfl
    exact (note_flows c rfl).tail (.move _ hleads fun h => by cases h)

theorem leads_of_isOnline {state : State} (h : state.isOnline ∨ state = .connectingTcp1 ∨
    state = .connectingTcp2) : leads state .disconnectingTcp1 := by
  cases state <;> simp_all [leads, State.isOnline]

theorem findFirst_spec {c : MqttClient cfg} {type : MQTTPacketType} {packetId : UInt16} {it : ℕ}
    (h : c.findFirst type packetId = some it) : ∃ item, c.outbox.find (·.isType type) = some it ∧
      c.outbox.items[it]? = some item ∧ item.isType type ∧ item.packet.packetId = packetId := by
  rw [findFirst] at h
  simp only [Option.bind_eq_bind, Option.bind_eq_some_iff] at h
  obtain ⟨position, hfind, item, hitem, hid⟩ := h
  split_ifs at hid with heq
  obtain rfl := Option.some.inj hid
  obtain ⟨hlt, htype, -⟩ := CursorList.find_eq_some_iff.mp hfind
  rw [List.getElem?_eq_getElem hlt, Option.some.injEq] at hitem
  exact ⟨item, hfind, by rw [List.getElem?_eq_getElem hlt, hitem], by rwa [hitem] at htype, heq⟩

theorem find_spec {c : MqttClient cfg} {p : OutgoingPacket → Bool} {it : ℕ} (h : c.outbox.find p = some it) :
    ∃ item, c.outbox.items[it]? = some item ∧ p item := by
  obtain ⟨hlt, hp, -⟩ := CursorList.find_eq_some_iff.mp h
  exact ⟨_, List.getElem?_eq_getElem hlt, hp⟩

/-- An acknowledgement is added, or it leaves no trace. -/
theorem answer_flows {c : MqttClient cfg} (hlistens : c.Listens) {type : MQTTPacketType} {packetId : UInt16}
    (htype : type ∈ [PacketType.PUBACK, PacketType.PUBREC, PacketType.PUBREL, PacketType.PUBCOMP])
    (hid : packetId ≠ 0) : Flows env c.received
      (c.received.addPacket env fun alloc => Packet.ack cfg alloc type packetId).2 := by
  rcases addPacket_cases env c.received fun alloc => Packet.ack cfg alloc type packetId with
    ⟨packet, hbuild, hadd⟩ | ⟨-, hadd⟩ <;> rw [hadd]
  · exact .single (.answer hlistens.received rfl htype hid ⟨_, hbuild⟩)
  · exact asked_flows _

/-- The packet id of a PUBLISH that is answered is not 0. -/
theorem hasPacketId_of_qos {packetType : Byte} (h : publishQos packetType = 1 ∨
    publishQos packetType = 2) : Parser.hasPacketId packetType := by
  rw [Parser.hasPacketId, decide_eq_true_iff]
  intro hzero
  have hqos : publishQos packetType = 0 := by
    rw [publishQos]
    split_ifs
    · rfl
    · rw [show packetType &&& 0x06 = 0 from hzero]
      rfl
  rw [hqos] at h
  rcases h with h | h
  · cases h
  · cases h

theorem answerPublish_flows {c : MqttClient cfg} (hlistens : c.Listens)
    (hid : Parser.hasPacketId c.incoming.packetType → c.incoming.packetId ≠ 0) :
    Flows env c.received (c.received.answerPublish env).2 := by
  rw [answerPublish]
  dsimp only
  split_ifs with h1 _ h2
  · exact answer_flows hlistens (by simp) (hid (hasPacketId_of_qos (.inl h1)))
  · exact .refl
  · exact answer_flows hlistens (by simp) (hid (hasPacketId_of_qos (.inr h2)))
  · exact .refl
  · exact .refl

theorem listens_addPacket {c : MqttClient cfg} (h : c.Listens) (build : Alloc → Error × Packet) :
    (c.addPacket env build).2.Listens where
  online := (state_addPacket c build).symm ▸ h.online
  opened := (state_addPacket c build).symm ▸ h.opened
  greeted := (greeted_addPacket c build).symm ▸ h.greeted

/-- What was in the queue stays where it was. -/
theorem getElem?_addPacket {c : MqttClient cfg} (build : Alloc → Error × Packet) {it : ℕ}
    {item : OutgoingPacket} (h : c.outbox.items[it]? = some item) :
    (c.addPacket env build).2.outbox.items[it]? = some item := by
  rcases addPacket_cases env c build with ⟨packet, -, hadd⟩ | ⟨-, hadd⟩ <;> rw [hadd]
  · show (c.outbox.emplace _).items[it]? = some item
    rw [CursorList.items_emplace, List.getElem?_append_left (List.getElem?_eq_some_iff.mp h).1, h]
  · exact h

theorem next_mem_of_proceeding {type request next : MQTTPacketType}
    (h : (type, request, next) ∈ proceeding) :
    next ∈ [PacketType.PUBACK, PacketType.PUBREC, PacketType.PUBREL, PacketType.PUBCOMP] := by
  simp only [proceeding, List.mem_cons, Prod.mk.injEq, List.not_mem_nil, or_false] at h
  rcases h with ⟨-, -, rfl⟩ | ⟨-, -, rfl⟩
  · decide
  · decide

theorem remove_flows {c : MqttClient cfg} (hlistens : c.Listens) {it : ℕ} {item : OutgoingPacket}
    (hitem : c.outbox.items[it]? = some item) (hid : item.packet.packetId ≠ 0) {event : Event}
    (hevent : event.isMute) : Flows env c ((c.received.remove it).note event) := by
  have hremove : Flow env c.received (c.received.remove it) := .remove hlistens.received hitem hid
  exact ((note_flows c rfl).tail hremove).trans (note_flows _ hevent)

/-- **A step** is nothing but flows. -/
theorem Step.flows {c c' : MqttClient cfg} (h : Step env c c') : Flows env c c' := by
  cases h with
  | quiet h => exact keeps_of_log h.state h.outbox h.bytesSent h.tick h.log
  | error packetId => exact note_flows c rfl
  | calls apiCalls => exact note_flows c rfl
  | connect hstate hpacket => exact .single (.connect hstate hpacket)
  | connectFailed hstate =>
    exact .tail (.single (.rewind (.inl hstate))) (.keep ⟨rfl, rfl, rfl, Nat.le_succ _, rfl⟩)
  | disconnect force h => exact disconnect_flows force h
  | nextPacketId => exact getNextPacketId_flows c
  | @publish _ qos _ _ _ hstate hpacket =>
    -- the packet id is taken first, then the packet is queued
    have hrequest := Requested.publish ((refusesPublish_publishPacketId c qos).trans hstate)
      (publishPacketId_ne_zero c) hpacket
    rw [tick_publishPacketId] at hrequest
    exact (publishPacketId_flows c qos).tail (.request hrequest)
  | @publishChunked _ qos _ _ _ _ hstate hpacket =>
    have hrequest := Requested.publishChunked ((refusesPublish_publishPacketId c qos).trans hstate)
      (publishPacketId_ne_zero c) hpacket
    rw [tick_publishPacketId] at hrequest
    exact (publishPacketId_flows c qos).tail (.request hrequest)
  | subscribe hstate hpacket =>
    exact (getNextPacketId_flows c).tail (.request (.subscribe hstate (getNextPacketId_ne_zero c) hpacket))
  | unsubscribe hstate hpacket =>
    exact (getNextPacketId_flows c).tail (.request (.unsubscribe hstate (getNextPacketId_ne_zero c) hpacket))
  | clearQueue deleteSessionData => exact .single (.clearQueue deleteSessionData)
  | connecting hstate hdialling => exact .single (.move _ (by rw [hstate]; rfl) fun _ => hdialling)
  | established hstate => exact .single (.move _ (by rw [hstate]; rfl) nofun)
  | lost fault hstate =>
    -- the fault is noted, the state is set and then the reason
    have hmove : Flow env (c.note (.fault fault)) ((c.note (.fault fault)).setState .disconnectingTcp1) :=
      .move _ (leads_of_isOnline hstate) nofun
    exact ((note_flows c rfl).tail hmove).trans (keeps_of_log rfl rfl rfl le_rfl rfl)
  | addDisconnect hstate hempty hpacket => exact .single (.addDisconnect hstate hempty hpacket)
  | stop hstate =>
    have hmove : Flow env (c.note .stop) ((c.note .stop).setState .disconnectingTcp2) :=
      .move _ (by rw [show (c.note .stop).state = c.state from rfl, hstate]; rfl) nofun
    exact (note_flows c rfl).tail hmove
  | close hstate => exact .single (.close hstate)
  | sendConnect hstate hwait => exact .single (.sendConnect hstate hwait)
  | sendRound hsend => exact .single (.sendRound hsend)
  | ping hstate hpacket =>
    have hkeep : Flows env c { c with pingSent := true } := keeps_of_log rfl rfl rfl le_rfl rfl
    have hping : Flow env { c with pingSent := true } _ := .request (.ping hstate hpacket)
    exact hkeep.tail hping
  | timeout hsend hbusy =>
    have hrewind : Flow env (c.note .timeout) _ := .rewind (.inr ⟨hsend, rfl, hbusy⟩)
    exact (note_flows c rfl).tail hrewind
  | unexpected hstate =>
    have hmove : Flow env (c.note (.fault .unexpectedPacket))
        ((c.note (.fault .unexpectedPacket)).setState .disconnectingTcp1) :=
      .move _ (by rw [show (c.note (.fault .unexpectedPacket)).state = c.state from rfl, hstate]; rfl) nofun
    exact (note_flows c rfl).tail hmove
  | ignore => exact (note_flows c rfl).trans (keeps_of_log rfl rfl rfl le_rfl rfl)
  | refused hstate =>
    have hkeep : Flows env c.received
        { c.received with disconnectReason := .ofReturnCode c.incoming.returnCode } :=
      keeps_of_log rfl rfl rfl le_rfl rfl
    exact ((note_flows c rfl).trans hkeep).tail (.move _ (leads_of_isOnline (.inl hstate)) nofun)
  | accept hstate _ _ hheard =>
    have haccept : Flow env c.received c.received.accept := .accept hstate hheard
    exact (note_flows c rfl).tail haccept
  | message hlistens htype hopen hsound hid =>
    split_ifs
    · exact ((note_flows c rfl).trans (answerPublish_flows hlistens hid)).trans (note_flows _ rfl)
    · exact (note_flows c rfl).trans (answerPublish_flows hlistens hid)
  | finish _ hlistens _ hid hfind =>
    obtain ⟨item, -, hitem, -, heq⟩ := findFirst_spec hfind
    exact remove_flows hlistens hitem (heq ▸ hid) rfl
  | suback _ hlistens _ hid hfind =>
    obtain ⟨item, hitem, hfor⟩ := find_spec hfind
    rw [OutgoingPacket.isFor, decide_eq_true_iff] at hfor
    exact remove_flows hlistens hitem (hfor.2 ▸ hid) rfl
  | unsuback hlistens _ hid hfind =>
    obtain ⟨item, hitem, heq⟩ := find_spec hfind
    exact remove_flows hlistens hitem (by simpa using (of_decide_eq_true heq) ▸ hid) rfl
  | proceed hexchange hlistens _ hid hfind =>
    obtain ⟨item, -, hitem, -, heq⟩ := findFirst_spec hfind
    have hnext : _ ∈ [PacketType.PUBACK, PacketType.PUBREC, PacketType.PUBREL, PacketType.PUBCOMP] :=
      next_mem_of_proceeding hexchange
    -- the answer is queued first, and the request is still where it was found
    refine ((note_flows c rfl).trans (answer_flows hlistens hnext hid)).tail ?_
    refine .remove (listens_addPacket hlistens.received _) ?_ (heq ▸ hid)
    exact getElem?_addPacket _ hitem

theorem Move.flows {c c' : MqttClient cfg} (h : Move env c c') : Flows env c c' := by
  cases h with
  | step h => exact h.flows
  | transportConnect success hstate => exact .single (.transportConnect success hstate)
  | read bytes => exact note_flows c rfl
  | parsed parser bytes =>
    have hkeep : Flows env c { c with parser } := keeps_of_log rfl rfl rfl le_rfl rfl
    exact hkeep.trans (note_flows _ rfl)

/-- The log only grows. -/
theorem Flow.log_suffix {c c' : MqttClient cfg} (h : Flow env c c') : c.log <:+ c'.log := by
  cases h with
  | keep h => exact h.log ▸ List.suffix_rfl
  | sendConnect =>
    have hsend : Grows (fun _ => true) c (c.sendPacket env).2 := grows_sendPacket c fun _ => rfl
    exact hsend.log_suffix
  | sendRound =>
    have hround : Grows (fun _ => true) c (c.sendRound env) :=
      grows_sendRound c (fun _ => rfl) (fun _ => rfl) rfl
    exact hround.log_suffix
  | accept =>
    have hadmitted : Grows (fun _ => true) c c.admitted := grows_admitted c (fun _ => rfl) (fun _ => rfl) rfl
    exact hadmitted.log_suffix.trans (List.suffix_cons _ _)
  | rewind | answer => exact List.suffix_rfl
  | connect => exact (List.suffix_cons _ _).trans (List.suffix_cons _ _)
  | close =>
    refine (List.suffix_cons _ _).trans ((List.suffix_cons _ _).trans (List.suffix_cons _ _))
  | _ => exact List.suffix_cons _ _

/-! ### The log -/

theorem writtenBytes_of_event {event : Event} (h : event.isWrite = false) : event.writtenBytes = [] := by
  cases event <;> first | rfl | cases h

theorem isWriting_of_event {r : Record} (h : r.event.isWrite = false) : r.isWriting = false := by
  rw [Record.isWriting, writtenBytes_of_event h]
  rfl

/-! ### On the way to a CONNACK -/

/-- Is the client on its way to a CONNACK? -/
def isConnecting : State → Bool
  | .connectingTcp1 | .connectingTcp2 | .connectingMqtt => true
  | _ => false

theorem leads_isConnecting {state next : State} (h : leads state next) (hnext : isConnecting next) :
    isConnecting state := by
  cases next <;> first | (cases hnext; done) | (cases state <;> first | rfl | cases h)

theorem not_connecting_of_listens {c : MqttClient cfg} (h : c.Listens) : isConnecting c.state = false := by
  have honline := h.online
  have hopened := h.opened
  cases hstate : c.state with
  | connectingMqtt => exact absurd hstate hopened
  | connectingTcp1 | connectingTcp2 =>
    rw [hstate] at honline
    cases honline
  | _ => rfl

/-- No CONNACK was accepted while the client is on its way to one. -/
def Unheard (c : MqttClient cfg) : Prop := isConnecting c.state → c.log.greeted = false

/-- A client that may send is not on its way to a CONNACK, if it waits for one. -/
theorem Unheard.not_connecting {c : MqttClient cfg} (hc : c.Unheard) (hwait : cfg.waitForConnack)
    (h : c.maySend) : isConnecting c.state = false := by
  have hgreeted := h.2 hwait
  by_contra hconnecting
  rw [hc (by simpa using hconnecting)] at hgreeted
  cases hgreeted

theorem greeted_of_isMute {c : MqttClient cfg} {event : Event} (h : event.isMute) :
    (c.note event).log.greeted = c.log.greeted := by
  cases event <;> first | rfl | cases h

theorem Requested.greeted {c c' : MqttClient cfg} {packet : Packet} {event : Event}
    (h : c.Requested packet event) : (c'.note event).log.greeted = c'.log.greeted := by
  cases h <;> rfl

theorem Flow.unheard {c c' : MqttClient cfg} (h : Flow env c c') (hc : c.Unheard) : c'.Unheard := by
  intro hconnecting
  cases h with
  | keep h =>
    rw [h.log]
    exact hc (h.state ▸ hconnecting)
  | note event hmute =>
    rw [greeted_of_isMute hmute]
    exact hc hconnecting
  | move next hleads => exact hc (leads_isConnecting hleads hconnecting)
  | connect => rfl
  | request h =>
    rw [h.greeted]
    exact hc hconnecting
  | sendConnect =>
    rw [greeted_sendPacket]
    exact hc (state_sendPacket c ▸ hconnecting)
  | sendRound =>
    rw [greeted_sendRound]
    rcases state_sendRound env c with h | h
    · exact hc (h ▸ hconnecting)
    · rw [h] at hconnecting
      cases hconnecting
  | accept =>
    have hconnecting : isConnecting c.admitted.state := hconnecting
    rcases state_admitted c with h | h <;> rw [h] at hconnecting <;> cases hconnecting
  | addDisconnect | close => cases hconnecting
  | _ => exact hc hconnecting

/-- Nothing was sent of the first packet while there is no connection. -/
def Idle (c : MqttClient cfg) : Prop := c.state = .disconnected → c.bytesSent = 0

theorem Flow.idle {c c' : MqttClient cfg} (h : Flow env c c') (hc : c.Idle) : c'.Idle := by
  intro hstate
  cases h with
  | keep h =>
    rw [h.bytesSent]
    exact hc (h.state ▸ hstate)
  | move next hleads =>
    obtain rfl : next = .disconnected := hstate
    cases hfrom : c.state <;> rw [hfrom] at hleads <;> cases hleads
  | sendConnect hmqtt =>
    rw [state_sendPacket, hmqtt] at hstate
    cases hstate
  | sendRound hsends =>
    have honline := hsends.1.1
    rcases state_sendRound env c with h | h <;> rw [h] at hstate
    · rw [hstate] at honline
      cases honline
    · cases hstate
  | accept =>
    have hstate : c.admitted.state = .disconnected := hstate
    rcases state_admitted c with h | h <;> rw [h] at hstate <;> cases hstate
  | connect | addDisconnect => cases hstate
  | close => rfl
  | _ => exact hc hstate

/-! ### Runs -/

/-- What holds of a new client and is kept by every flow holds in every run. -/
theorem run_flow_invariant (env : Env cfg) (invariant : MqttClient cfg → Prop) (generatedClientId : CString)
    (hnew : invariant (new cfg generatedClientId))
    (hflow : ∀ {c c' : MqttClient cfg}, Flow env c c' → invariant c → invariant c')
    (actions : List Action) : invariant ((new cfg generatedClientId).run env actions) := by
  have hflows : ∀ {c c' : MqttClient cfg}, Flows env c c' → invariant c → invariant c' := by
    intro c c' h hc
    induction h with
    | refl => exact hc
    | tail _ h ih => exact hflow h ih
  exact run_invariant env invariant generatedClientId hnew (fun hmove => hflows hmove.flows) actions

/-- What is kept by every flow as long as all that is noted meets a condition holds in every run in which all
that is noted does. -/
theorem run_flow_always (env : Env cfg) (condition : Record → Log → Prop) (invariant : MqttClient cfg → Prop)
    (generatedClientId : CString) (hnew : invariant (new cfg generatedClientId))
    (hflow : ∀ {c c' : MqttClient cfg}, Flow env c c' → Trace.Always condition c'.log → invariant c →
      invariant c')
    (actions : List Action)
    (h : Trace.Always condition ((new cfg generatedClientId).run env actions).log) :
    invariant ((new cfg generatedClientId).run env actions) := by
  refine run_flow_invariant env (fun c => Trace.Always condition c.log → invariant c) generatedClientId
    (fun _ => hnew) ?_ actions h
  intro c c' hstep hc halways
  obtain ⟨new, hlog⟩ := hstep.log_suffix
  exact hflow hstep halways (hc (Trace.Always.of_append (hlog ▸ halways)))

end MqttClient

/-- A transport that follows a script does not fail. -/
theorem Script.write_nonneg (cfg : Config) (script : Script) (tick size : ℕ) :
    0 ≤ (script.env cfg).write tick size := by
  show (0 : ℤ) ≤ min (((script.write.lookup tick).getD size : ℕ) : ℤ) size
  omega

end EspMqttClient
