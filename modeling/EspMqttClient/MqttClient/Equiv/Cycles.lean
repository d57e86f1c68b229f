/-
  From `connect` to `onDisconnect`: the states of a client.

  A `Phase` is what a move does to the state and to the disconnect reason.  Most moves are `Calm`: they
  change neither.  A cycle begins with a `connect` that returns true and ends with a call of the
  `onDisconnect` callback.
-/
import EspMqttClient.MqttClient.Equiv.History

namespace EspMqttClient

namespace MqttClient

variable {cfg : Config} {env : Env cfg}

/-! ### Calm moves -/

/-- Neither the state nor the disconnect reason changed. -/
structure Calm (c c' : MqttClient cfg) : Prop where
  state : c'.state = c.state
  reason : c'.disconnectReason = c.disconnectReason
  log : ∃ new, c'.log = new ++ c.log ∧ ∀ r ∈ new, r.event.isCalm ∧ r.state = c.state

theorem Calm.trans {c c' c'' : MqttClient cfg} (h : Calm c c') (h' : Calm c' c'') : Calm c c'' where
  state := h'.state.trans h.state
  reason := h'.reason.trans h.reason
  log := by
    obtain ⟨new, hnew, hcalm⟩ := h.log
    obtain ⟨new', hnew', hcalm'⟩ := h'.log
    refine ⟨new' ++ new, by rw [hnew', hnew, List.append_assoc], fun r hr => ?_⟩
    rcases List.mem_append.mp hr with hr | hr
    · exact ⟨(hcalm' r hr).1, (hcalm' r hr).2.trans h.state⟩
    · exact hcalm r hr

/-- What is asked of the log after calm moves has the same answer. -/
theorem Calm.since {start hit : Event → Bool} {c c' : MqttClient cfg} (h : Calm c c')
    (hcalm : ∀ event : Event, event.isCalm → hit event = false ∧ start event = false) :
    Trace.since (start ·.event) (hit ·.event) c'.log = Trace.since (start ·.event) (hit ·.event) c.log := by
  obtain ⟨new, hnew, hrecords⟩ := h.log
  rw [hnew]
  exact Trace.since_append (fun r hr => hcalm r.event (hrecords r hr).1) c.log

theorem Calm.log_suffix {c c' : MqttClient cfg} (h : Calm c c') : c.log <:+ c'.log := by
  obtain ⟨new, hnew, -⟩ := h.log
  exact ⟨new, hnew.symm⟩

/-- Nothing was noted. -/
theorem calm_of_log {c c' : MqttClient cfg} (hstate : c'.state = c.state)
    (hreason : c'.disconnectReason = c.disconnectReason) (hlog : c'.log = c.log) : Calm c c' :=
  ⟨hstate, hreason, [], hlog, by simp⟩

/-- Something calm was noted. -/
theorem calm_of_cons {c c' : MqttClient cfg} {r : Record} (hstate : c'.state = c.state)
    (hreason : c'.disconnectReason = c.disconnectReason) (hlog : c'.log = r :: c.log)
    (hevent : r.event.isCalm) (hr : r.state = c.state) : Calm c c' where
  state := hstate
  reason := hreason
  log := ⟨[r], hlog, by simpa using ⟨hevent, hr⟩⟩

theorem calm_note (c : MqttClient cfg) {event : Event} (h : event.isCalm) : Calm c (c.note event) :=
  calm_of_cons rfl rfl rfl h rfl

theorem calm_addPacket (c : MqttClient cfg) (build : Alloc → Error × Packet) :
    Calm c (c.addPacket env build).2 := by
  rcases addPacket_cases env c build with ⟨_, -, h⟩ | ⟨-, h⟩ <;> rw [h] <;> exact calm_of_log rfl rfl rfl

theorem calm_answerPublish (env : Env cfg) (c : MqttClient cfg) : Calm c (c.answerPublish env).2 := by
  rcases answerPublish_cases env c with h | ⟨_, -, h⟩ <;> rw [h]
  · exact calm_of_log rfl rfl rfl
  · exact calm_addPacket c _

theorem calm_getNextPacketId (c : MqttClient cfg) : Calm c c.getNextPacketId.2 :=
  calm_of_cons rfl rfl rfl rfl rfl

theorem calm_publishPacketId (c : MqttClient cfg) (qos : Byte) : Calm c (c.publishPacketId qos).2 := by
  rw [publishPacketId]
  split_ifs
  · exact calm_getNextPacketId c
  · exact calm_of_log rfl rfl rfl

theorem calm_sendPacket (env : Env cfg) (c : MqttClient cfg) : Calm c (c.sendPacket env).2 := by
  rw [sendPacket]
  split
  · exact calm_of_log rfl rfl rfl
  · dsimp only
    split_ifs
    · exact calm_of_log rfl rfl rfl
    · exact calm_of_cons rfl rfl rfl rfl rfl

theorem calm_clearQueue (c : MqttClient cfg) (clearData : ℕ) : Calm c (c.clearQueue clearData) :=
  calm_of_cons rfl rfl rfl rfl rfl

theorem calm_remove (c : MqttClient cfg) (position : ℕ) : Calm c (c.remove position) :=
  calm_of_cons rfl rfl rfl rfl rfl

theorem calm_received (c : MqttClient cfg) : Calm c c.received := calm_note c rfl

/-- `_advanceOutbox` is calm unless it leaves a DISCONNECT. -/
theorem calm_advanceOutbox (c : MqttClient cfg) : Calm c c.advanceOutbox.2 ∨
    ∃ item, c.outbox.getCurrent = some item ∧ c.bytesSent = item.packet.size ∧
      item.packet.packetType = PacketType.DISCONNECT ∧
      Calm ((c.farewell item.packet).note (.sent item.packet)) c.advanceOutbox.2 := by
  rcases advanceOutbox_cases c with ⟨h, -⟩ | ⟨item, hcurrent, hsize, h⟩ <;> rw [h]
  · exact .inl (calm_of_log rfl rfl rfl)
  · by_cases htype : item.packet.packetType = PacketType.DISCONNECT
    · exact .inr ⟨item, hcurrent, hsize, htype, calm_of_log rfl rfl rfl⟩
    · rw [farewell, if_neg htype]
      exact .inl ((calm_note c rfl).trans (calm_of_log rfl rfl rfl))

theorem farewell_of_type {c : MqttClient cfg} {packet : Packet}
    (htype : packet.packetType = PacketType.DISCONNECT) :
    c.farewell packet = { c.setState .disconnectingTcp1 with disconnectReason := .USER_OK } := by
  rw [farewell, if_pos htype]

/-! ### Phases -/

/-- What a move does to the state. -/
inductive Phase : MqttClient cfg → MqttClient cfg → Prop
  | calm {c c'} (h : Calm c c') : Phase c c'
  | connect {c} (args : Packet.ConnectArgs) (hstate : c.state = .disconnected) :
      Phase c ((c.note (.connect args)).setState .connectingTcp1)
  | disconnect {c} (force : Bool) (h : (c.disconnect force).1) : Phase c (c.disconnect force).2
  | connecting {c} (hstate : c.state = .connectingTcp1) : Phase c (c.setState .connectingTcp2)
  | established {c} (hstate : c.state = .connectingTcp2) : Phase c (c.setState .connectingMqtt)
  | lost {c} (fault : Fault)
      (hstate : c.state.isOnline ∨ c.state = .connectingTcp1 ∨ c.state = .connectingTcp2) :
      Phase c (c.lost fault)
  | addDisconnect {c} (hstate : c.state = .disconnectingMqtt1) :
      Phase c (c.setState .disconnectingMqtt2)
  | farewell {c packet} (hstate : c.state.isOnline) (htype : packet.packetType = PacketType.DISCONNECT) :
      Phase c ((c.farewell packet).note (.sent packet))
  | stop {c} (hstate : c.state = .disconnectingTcp1) :
      Phase c ((c.note .stop).setState .disconnectingTcp2)
  | close {c} (hstate : c.state = .disconnectingTcp2) : Phase c c.close
  | unexpected {c} (hstate : c.state = .connectingMqtt) :
      Phase c ((c.note (.fault .unexpectedPacket)).setState .disconnectingTcp1)
  | refused {c} (hstate : c.state.isOnline) (htype : c.incomingType = PacketType.CONNACK)
      (hcode : c.incoming.returnCode ≠ 0) :
      Phase c ({ c.received with disconnectReason := .ofReturnCode c.incoming.returnCode }.setState
        .disconnectingTcp1)
  | accept {c} (hstate : c.state.isOnline) (htype : c.incomingType = PacketType.CONNACK)
      (hcode : c.incoming.returnCode = 0) : Phase c c.received.accept

/-- Any number of phases. -/
abbrev Phases : MqttClient cfg → MqttClient cfg → Prop := Relation.ReflTransGen Phase

theorem Calm.phases {c c' : MqttClient cfg} (h : Calm c c') : Phases c c' := .single (.calm h)

theorem sendRound_phases {c : MqttClient cfg} (hstate : c.state.isOnline) : Phases c (c.sendRound env) := by
  have hsend := calm_sendPacket env c
  rw [sendRound]
  split_ifs
  · rcases calm_advanceOutbox (c.sendPacket env).2 with hcalm | ⟨item, -, -, htype, hcalm⟩
    · exact (hsend.trans hcalm).phases
    · exact (hsend.phases.tail (.farewell (hsend.state ▸ hstate) htype)).trans hcalm.phases
  · exact hsend.phases

/-- **A step** is nothing but phases. -/
theorem Step.phases {c c' : MqttClient cfg} (h : Step env c c') : Phases c c' := by
  cases h with
  | quiet h => exact (calm_of_log h.state h.disconnectReason h.log).phases
  | error => exact (calm_note c rfl).phases
  | calls => exact (calm_note c rfl).phases
  | connect hstate =>
    refine .tail (Calm.phases ?_) (.connect _ ?_)
    · exact calm_of_log rfl rfl rfl
    · exact hstate
  | connectFailed =>
    apply Calm.phases
    exact calm_of_log rfl rfl rfl
  | disconnect force h => exact .single (.disconnect force h)
  | nextPacketId => exact (calm_getNextPacketId c).phases
  | publish | publishChunked =>
    apply Calm.phases
    apply (calm_publishPacketId c _).trans
    exact calm_of_cons rfl rfl rfl rfl rfl
  | subscribe | unsubscribe =>
    apply Calm.phases
    apply (calm_getNextPacketId c).trans
    exact calm_of_cons rfl rfl rfl rfl rfl
  | clearQueue => exact (calm_clearQueue c _).phases
  | connecting hstate _ => exact .single (.connecting hstate)
  | established hstate => exact .single (.established hstate)
  | lost fault hstate => exact .single (.lost fault hstate)
  | addDisconnect hstate =>
    refine .tail (Calm.phases ?_) (.addDisconnect ?_)
    · exact calm_of_log rfl rfl rfl
    · exact hstate
  | stop hstate => exact .single (.stop hstate)
  | close hstate => exact .single (.close hstate)
  | sendConnect => exact (calm_sendPacket env c).phases
  | sendRound hsend => exact sendRound_phases hsend.1.1
  | ping =>
    apply Calm.phases
    refine Calm.trans (calm_of_log ?_ ?_ ?_) (calm_note _ rfl)
    · rfl
    · rfl
    · rfl
  | timeout =>
    apply Calm.phases
    exact calm_of_cons rfl rfl rfl rfl rfl
  | unexpected hstate => exact .single (.unexpected hstate)
  | ignore =>
    apply Calm.phases
    exact calm_of_cons rfl rfl rfl rfl rfl
  | refused hstate htype hcode => exact .single (.refused hstate htype hcode)
  | accept hstate htype hcode => exact .single (.accept hstate htype hcode)
  | message =>
    have hanswer := (calm_received c).trans (calm_answerPublish env c.received)
    split_ifs
    · exact (hanswer.trans (calm_note _ rfl)).phases
    · exact hanswer.phases
  | finish | suback | unsuback =>
    exact ((calm_received c).trans ((calm_remove _ _).trans (calm_note _ rfl))).phases
  | proceed =>
    exact ((calm_received c).trans ((calm_addPacket c.received _).trans (calm_remove _ _))).phases

theorem Steps.phases {c c' : MqttClient cfg} (h : Steps env c c') : Phases c c' := by
  induction h with
  | refl => exact .refl
  | tail _ h ih => exact ih.trans h.phases

theorem Move.phases {c c' : MqttClient cfg} (h : Move env c c') : Phases c c' := by
  cases h with
  | step h => exact h.phases
  | transportConnect success => exact (calm_note c rfl).phases
  | read bytes => exact (calm_note c rfl).phases
  | parsed parser bytes =>
    apply Calm.phases
    exact calm_of_cons rfl rfl rfl rfl rfl

theorem Moves.phases {c c' : MqttClient cfg} (h : Moves env c c') : Phases c c' := by
  induction h with
  | refl => exact .refl
  | tail _ h ih => exact ih.trans h.phases

/-- What is kept by every phase is kept by any number of them. -/
theorem Phases.keep {invariant : MqttClient cfg → Prop}
    (hphase : ∀ {c c' : MqttClient cfg}, Phase c c' → invariant c → invariant c') {c c' : MqttClient cfg}
    (h : Phases c c') (hc : invariant c) : invariant c' := by
  induction h with
  | refl => exact hc
  | tail _ h ih => exact hphase h ih

/-- What holds of a new client and is kept by every phase holds in every run. -/
theorem run_phase_invariant (env : Env cfg) (invariant : MqttClient cfg → Prop) (generatedClientId : CString)
    (hnew : invariant (new cfg generatedClientId))
    (hphase : ∀ {c c' : MqttClient cfg}, Phase c c' → invariant c → invariant c')
    (actions : List Action) : invariant ((new cfg generatedClientId).run env actions) :=
  run_invariant env invariant generatedClientId hnew (fun hmove hc => hmove.phases.keep hphase hc) actions

/-- A CONNACK that is accepted leads to `connected`, and further if it lets a DISCONNECT go. -/
theorem calm_admitted (c : MqttClient cfg) : Calm c.connectedNow c.admitted ∨
    ∃ item, c.outbox.getCurrent = some item ∧ c.bytesSent = item.packet.size ∧
      item.packet.packetType = PacketType.DISCONNECT ∧
      Calm ((c.connectedNow.farewell item.packet).note (.sent item.packet)) c.admitted := by
  have hadvance := calm_advanceOutbox c.connectedNow
  rw [admitted]
  split_ifs
  · rcases hadvance with hcalm | ⟨item, hcurrent, hsize, htype, hcalm⟩
    · exact .inl (hcalm.trans (calm_clearQueue _ _))
    · exact .inr ⟨item, hcurrent, hsize, htype, hcalm.trans (calm_clearQueue _ _)⟩
  · exact hadvance

theorem log_suffix_admitted (c : MqttClient cfg) : c.log <:+ c.admitted.log := by
  rcases calm_admitted c with hcalm | ⟨item, -, -, htype, hcalm⟩
  · exact (List.suffix_cons _ _).trans hcalm.log_suffix
  · rw [farewell_of_type htype] at hcalm
    exact ((List.suffix_cons _ _).trans ((List.suffix_cons _ _).trans (List.suffix_cons _ _))).trans
      hcalm.log_suffix

end MqttClient

end EspMqttClient
