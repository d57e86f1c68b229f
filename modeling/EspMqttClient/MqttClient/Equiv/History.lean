/-
  How the log grows.

  A step notes new records in front of the old ones, and none of them is about the bytes that come in
  (`Step.grows`).
-/
import EspMqttClient.MqttClient.Equiv.Moves

namespace EspMqttClient

namespace MqttClient

variable {cfg : Config} {env : Env cfg} {p : Event → Bool}

/-- The log grew by records of such events. -/
def Grows (p : Event → Bool) (c c' : MqttClient cfg) : Prop :=
  ∃ new, c'.log = new ++ c.log ∧ ∀ r ∈ new, p r.event

theorem Grows.log_suffix {c c' : MqttClient cfg} (h : Grows p c c') : c.log <:+ c'.log := by
  obtain ⟨new, hnew, -⟩ := h
  exact ⟨new, hnew.symm⟩

theorem Grows.trans {c c' c'' : MqttClient cfg} (h : Grows p c c') (h' : Grows p c' c'') :
    Grows p c c'' := by
  obtain ⟨new, hnew, hp⟩ := h
  obtain ⟨new', hnew', hp'⟩ := h'
  refine ⟨new' ++ new, by rw [hnew', hnew, List.append_assoc], fun r hr => ?_⟩
  rcases List.mem_append.mp hr with hr | hr
  · exact hp' r hr
  · exact hp r hr

/-- Nothing was noted. -/
theorem grows_of_log {c c' : MqttClient cfg} (hlog : c'.log = c.log) : Grows p c c' :=
  ⟨[], hlog, by simp⟩

theorem grows_of_cons {c c' : MqttClient cfg} {r : Record} (hlog : c'.log = r :: c.log)
    (hr : p r.event) : Grows p c c' := ⟨[r], hlog, by simpa using hr⟩

theorem grows_of_cons_cons {c c' : MqttClient cfg} {r s : Record} (hlog : c'.log = r :: s :: c.log)
    (hr : p r.event) (hs : p s.event) : Grows p c c' := ⟨[r, s], hlog, by simpa using ⟨hr, hs⟩⟩

theorem grows_note (c : MqttClient cfg) {event : Event} (h : p event) : Grows p c (c.note event) :=
  grows_of_cons rfl h

theorem grows_setState (c : MqttClient cfg) {state : State} (h : p (.state state)) :
    Grows p c (c.setState state) := grows_of_cons rfl h

theorem grows_getNextPacketId (c : MqttClient cfg) (h : ∀ packetId, p (.nextPacketId packetId)) :
    Grows p c c.getNextPacketId.2 := grows_of_cons rfl (h _)

theorem grows_remove (c : MqttClient cfg) (position : ℕ) (h : p (.remove position)) :
    Grows p c (c.remove position) := grows_of_cons rfl h

theorem grows_addPacket (c : MqttClient cfg) (build : Alloc → Error × Packet) :
    Grows p c (c.addPacket env build).2 := by
  rcases addPacket_cases env c build with ⟨_, -, h⟩ | ⟨-, h⟩ <;> rw [h] <;> exact grows_of_log rfl

theorem grows_answerPublish (c : MqttClient cfg) : Grows p c (c.answerPublish env).2 := by
  rcases answerPublish_cases env c with h | ⟨_, -, h⟩ <;> rw [h]
  · exact grows_of_log rfl
  · exact grows_addPacket c _

theorem grows_publishPacketId (c : MqttClient cfg) (qos : Byte)
    (h : ∀ packetId, p (.nextPacketId packetId)) : Grows p c (c.publishPacketId qos).2 := by
  rw [publishPacketId]
  split_ifs
  · exact grows_getNextPacketId c h
  · exact grows_of_log rfl

theorem grows_sendPacket (c : MqttClient cfg) (h : ∀ bytes, p (.write bytes)) :
    Grows p c (c.sendPacket env).2 := by
  rw [sendPacket]
  split
  · exact grows_of_log rfl
  · dsimp only
    split_ifs
    · exact grows_of_log rfl
    · exact grows_of_cons rfl (h _)

theorem grows_advanceOutbox (c : MqttClient cfg) (hsent : ∀ packet, p (.sent packet))
    (hstate : p (.state .disconnectingTcp1)) : Grows p c c.advanceOutbox.2 := by
  rcases advanceOutbox_cases c with ⟨h, -⟩ | ⟨item, -, -, h⟩ <;> rw [h]
  · exact grows_of_log rfl
  · rw [farewell]
    split_ifs
    · exact (grows_setState c hstate).trans (grows_of_cons rfl (hsent item.packet))
    · exact grows_of_cons rfl (hsent item.packet)

theorem grows_sendRound (c : MqttClient cfg) (hwrite : ∀ bytes, p (.write bytes))
    (hsent : ∀ packet, p (.sent packet)) (hstate : p (.state .disconnectingTcp1)) :
    Grows p c (c.sendRound env) := by
  have hsend : Grows p c (c.sendPacket env).2 := grows_sendPacket c hwrite
  rw [sendRound]
  split_ifs
  · exact hsend.trans (grows_advanceOutbox _ hsent hstate)
  · exact hsend

theorem grows_admitted (c : MqttClient cfg) (hstate : ∀ state, p (.state state))
    (hsent : ∀ packet, p (.sent packet)) (hclear : p (.clearQueue 1)) : Grows p c c.admitted := by
  have hconnected : Grows p c c.connectedNow := grows_of_cons rfl (hstate _)
  have hadvance := hconnected.trans (grows_advanceOutbox c.connectedNow hsent (hstate _))
  rw [admitted]
  split_ifs
  · exact hadvance.trans (grows_of_cons rfl hclear)
  · exact hadvance

/-- **A step** notes nothing about the bytes that come in. -/
theorem Step.grows {c c' : MqttClient cfg} (h : Step env c c') : Grows Event.isLocal c c' := by
  cases h with
  | quiet h => exact grows_of_log h.log
  | connectFailed => exact grows_of_log rfl
  | disconnect force =>
    rw [MqttClient.disconnect]
    split_ifs
    · exact (grows_note c rfl).trans (grows_of_cons rfl rfl)
    · exact (grows_note c rfl).trans (grows_of_cons rfl rfl)
    · exact grows_of_log rfl
  | publish | publishChunked =>
    exact (grows_publishPacketId c _ fun _ => rfl).trans (grows_of_cons rfl rfl)
  | subscribe | unsubscribe =>
    exact (grows_getNextPacketId c fun _ => rfl).trans (grows_of_cons rfl rfl)
  | sendConnect => exact grows_sendPacket c fun _ => rfl
  | sendRound => exact grows_sendRound c (fun _ => rfl) (fun _ => rfl) rfl
  | accept =>
    exact (grows_note c rfl).trans ((grows_admitted c.received (fun _ => rfl) (fun _ => rfl) rfl).trans
      (grows_note _ rfl))
  | message =>
    have hanswer : Grows Event.isLocal c (c.received.answerPublish env).2 :=
      (grows_note c rfl).trans (grows_answerPublish c.received)
    split_ifs
    · exact hanswer.trans (grows_note _ rfl)
    · exact hanswer
  | proceed =>
    exact (grows_note c rfl).trans ((grows_addPacket c.received _).trans (grows_remove _ _ rfl))
  | finish | suback | unsuback =>
    exact (grows_note c rfl).trans ((grows_remove c.received _ rfl).trans (grows_note _ rfl))
  | connect | lost | stop | unexpected | refused => exact ⟨[_, _], rfl, by simp [Event.isLocal]⟩
  | close => exact ⟨[_, _, _], rfl, by simp [Event.isLocal]⟩
  | error | calls | nextPacketId | clearQueue | connecting | established | addDisconnect | ping |
    timeout | ignore => exact grows_of_cons rfl rfl

theorem Steps.grows {c c' : MqttClient cfg} (h : Steps env c c') : Grows Event.isLocal c c' := by
  induction h with
  | refl => exact grows_of_log rfl
  | tail _ hstep ih => exact ih.trans hstep.grows

/-- **The log only grows.** -/
theorem Moves.log_suffix {c c' : MqttClient cfg} (h : Moves env c c') : c.log <:+ c'.log := by
  induction h with
  | refl => exact List.suffix_rfl
  | tail _ hmove ih =>
    cases hmove with
    | step h =>
      obtain ⟨new, hnew, -⟩ := h.grows
      exact ih.trans ⟨new, hnew.symm⟩
    | transportConnect => exact ih.trans (List.suffix_cons _ _)
    | read => exact ih.trans (List.suffix_cons _ _)
    | parsed => exact ih.trans (List.suffix_cons _ _)

end MqttClient

end EspMqttClient
