/-
  What a client does without its transport.

  The calls of a user and the handling of a packet neither send nor receive anything and blame the transport for
  nothing (`grows_call`, `grows_handle`), and as long as the transport is connected the client stays online
  (`loop_of_connected`).
-/
import EspMqttClient.MqttClient.Equiv.Loss

namespace EspMqttClient

/-! ### What a client notes -/

namespace Event

/-- Does the transport send or receive? -/
def isTalk : Event → Bool
  | .write _ | .read _ => true
  | _ => false

/-- Is it the transport that is to blame? -/
def isLoss : Event → Bool
  | .fault .transport => true
  | _ => false

/-- Is it something that a call of a user notes? -/
def isCall : Event → Bool
  | .state _ | .connect _ | .disconnect _ | .publish .. | .publishChunked .. | .subscribe _ | .unsubscribe _
  | .nextPacketId _ | .clearQueue _ | .onError .. => true
  | _ => false

/-- Anything but what `loop` itself asks the transport. -/
def isInner (event : Event) : Bool := !event.isTalk && !event.isLoss

end Event

namespace MqttClient

variable {cfg : Config} {env : Env cfg} {greeted : Prop}

theorem Grows.imp {p q : Event → Bool} {c c' : MqttClient cfg} (h : Grows p c c')
    (hpq : ∀ event, p event → q event) : Grows q c c' := by
  obtain ⟨new, hnew, hp⟩ := h
  exact ⟨new, hnew, fun r hr => hpq _ (hp r hr)⟩

theorem grows_call (c : MqttClient cfg) (apiCall : ApiCall) : Grows Event.isCall c (c.call env apiCall) := by
  cases apiCall with
  | connect =>
    rw [call, connect]
    split_ifs
    · dsimp only
      rw [addPacketFront]
      dsimp only
      split_ifs
      · exact grows_of_cons_cons rfl rfl rfl
      · exact grows_of_cons rfl rfl
      · exact grows_of_cons rfl rfl
    · exact grows_of_log rfl
  | disconnect force =>
    rw [call, disconnect]
    split_ifs
    · exact grows_of_cons_cons rfl rfl rfl
    · exact grows_of_cons_cons rfl rfl rfl
    · exact grows_of_log rfl
  | publish topic qos retain payload =>
    have hid : Grows Event.isCall c (c.publishPacketId qos).2 := grows_publishPacketId c qos fun _ => rfl
    rw [call, publish]
    split_ifs
    · exact grows_of_log rfl
    · rcases addPacket_cases env (c.publishPacketId qos).2 fun alloc =>
        Packet.publish cfg alloc (c.publishPacketId qos).1 topic payload qos retain with ⟨_, -, hadd⟩ | ⟨-, hadd⟩
      · simp only [hadd]
        exact hid.trans (grows_of_cons rfl rfl)
      · simp only [hadd]
        exact hid.trans (grows_of_cons rfl rfl)
  | publishChunked topic qos retain callback length =>
    have hid : Grows Event.isCall c (c.publishPacketId qos).2 := grows_publishPacketId c qos fun _ => rfl
    rw [call, publishChunked]
    split_ifs
    · exact grows_of_log rfl
    · rcases addPacket_cases env (c.publishPacketId qos).2 fun alloc =>
        Packet.publishChunked cfg alloc (c.publishPacketId qos).1 topic callback length qos retain with
        ⟨_, -, hadd⟩ | ⟨-, hadd⟩
      · simp only [hadd]
        exact hid.trans (grows_of_cons rfl rfl)
      · simp only [hadd]
        exact hid.trans (grows_of_cons rfl rfl)
  | subscribe topic qos args =>
    rw [call, subscribe]
    split_ifs
    · exact grows_of_log rfl
    · rcases addPacket_cases env c.getNextPacketId.2 fun alloc =>
        Packet.subscribe cfg alloc c.getNextPacketId.1 ((topic, qos) :: args) with ⟨_, -, hadd⟩ | ⟨-, hadd⟩
      · simp only [hadd]
        exact grows_of_cons_cons rfl rfl rfl
      · simp only [hadd]
        exact grows_of_cons rfl rfl
  | unsubscribe topic args =>
    rw [call, unsubscribe]
    split_ifs
    · exact grows_of_log rfl
    · rcases addPacket_cases env c.getNextPacketId.2 fun alloc =>
        Packet.unsubscribe cfg alloc c.getNextPacketId.1 (topic :: args) with ⟨_, -, hadd⟩ | ⟨-, hadd⟩
      · simp only [hadd]
        exact grows_of_cons_cons rfl rfl rfl
      · simp only [hadd]
        exact grows_of_cons rfl rfl
  | clearQueue deleteSessionData => exact grows_of_cons rfl rfl
  | set setting => exact grows_of_log rfl

/-- What a callback calls. -/
theorem grows_calls {p : Event → Bool} (c : MqttClient cfg) (callback : Callback) (event : Event)
    (hcalls : ∀ apiCalls, p (.calls apiCalls)) (hcall : ∀ event : Event, event.isCall → p event) :
    Grows p (c.note event) (c.callback env callback event) := by
  have hgrows : ∀ (apiCalls : List ApiCall) (c : MqttClient cfg),
      Grows p c (apiCalls.foldl (fun c apiCall => c.call env apiCall) c) := by
    intro apiCalls
    induction apiCalls with
    | nil => exact fun c => grows_of_log rfl
    | cons apiCall apiCalls ih => exact fun c => ((grows_call c apiCall).imp hcall).trans (ih _)
  rw [MqttClient.callback]
  split_ifs
  · exact Grows.trans (grows_of_cons rfl (hcalls _)) (hgrows _ _)
  · exact grows_of_log rfl

theorem isInner_of_isCall (event : Event) (h : event.isCall) : event.isInner := by
  cases event <;> first | rfl | cases h

/-- A callback does without the transport. -/
theorem callback_inner (c : MqttClient cfg) (callback : Callback) {event : Event} (h : event.isInner) :
    Grows Event.isInner c (c.callback env callback event) :=
  (grows_note c h).trans (grows_calls c callback event (fun _ => rfl) isInner_of_isCall)

theorem grows_onConnack (c : MqttClient cfg) : Grows Event.isInner c (c.onConnack env) := by
  rw [onConnack]
  split_ifs
  · have hadvance : Grows Event.isInner c c.connectedNow.advanceOutbox.2 :=
      Grows.trans (grows_of_cons rfl rfl) (grows_advanceOutbox c.connectedNow (fun _ => rfl) rfl)
    dsimp only
    split_ifs
    · exact (hadvance.trans (grows_of_cons rfl rfl)).trans (callback_inner _ _ rfl)
    · exact hadvance.trans (callback_inner _ _ rfl)
  · exact grows_of_cons rfl rfl

theorem grows_onPublish (c : MqttClient cfg) : Grows Event.isInner c (c.onPublish env) := by
  have hanswer : Grows Event.isInner c (c.answerPublish env).2 := grows_answerPublish c
  rw [onPublish]
  dsimp only
  split_ifs
  · exact hanswer.trans (callback_inner _ _ rfl)
  · exact hanswer

theorem grows_finish (c : MqttClient cfg) (type : MQTTPacketType) :
    Grows Event.isInner c (c.finish env type) := by
  rw [finish]
  split
  · exact (grows_remove c _ rfl).trans (callback_inner _ _ rfl)
  · exact grows_of_log rfl

theorem grows_proceed (c : MqttClient cfg) (type next : MQTTPacketType) :
    Grows Event.isInner c (c.proceed env type next) := by
  rw [proceed]
  split
  · exact (grows_addPacket c _).trans (grows_remove _ _ rfl)
  · exact grows_of_log rfl

theorem grows_onSuback (c : MqttClient cfg) : Grows Event.isInner c (c.onSuback env) := by
  rw [onSuback]
  split
  · exact (grows_remove _ _ rfl).trans (callback_inner _ _ rfl)
  · exact grows_of_log rfl

theorem grows_onUnsuback (c : MqttClient cfg) : Grows Event.isInner c (c.onUnsuback env) := by
  rw [onUnsuback]
  split
  · exact (grows_remove _ _ rfl).trans (callback_inner _ _ rfl)
  · exact grows_of_log rfl

/-- Whichever branch is taken. -/
theorem grows_ite {p : Event → Bool} {c : MqttClient cfg} {cond : Prop} [Decidable cond]
    {a b : Bool × MqttClient cfg} (ha : Grows p c a.2) (hb : Grows p c b.2) :
    Grows p c (if cond then a else b).2 := by
  split
  · exact ha
  · exact hb

/-- **An incoming packet** is handled without the transport. -/
theorem grows_handle (c : MqttClient cfg) : Grows Event.isInner c (c.handle env).2 := by
  have hpacket : Grows Event.isInner c c.received := grows_note c rfl
  rw [handle]
  refine grows_ite (grows_of_cons_cons rfl rfl rfl) ?_
  refine grows_ite (hpacket.trans (grows_onConnack _)) (grows_ite ?_ ?_)
  · dsimp only
    split
    · exact hpacket
    · exact hpacket.trans (grows_onPublish _)
  refine grows_ite (hpacket.trans (grows_finish _ _)) (grows_ite (hpacket.trans (grows_proceed _ _ _)) ?_)
  refine grows_ite (hpacket.trans (grows_proceed _ _ _)) (grows_ite (hpacket.trans (grows_finish _ _)) ?_)
  refine grows_ite (hpacket.trans (grows_onSuback _)) (grows_ite (hpacket.trans (grows_onUnsuback _)) ?_)
  exact grows_ite hpacket hpacket

theorem grows_checkIncomingLoop (env : Env cfg) (fuel : ℕ) (c : MqttClient cfg) (input : List Byte) :
    Grows Event.isInner c (c.checkIncomingLoop env fuel input) := by
  induction fuel generalizing c input with
  | zero => exact grows_of_log rfl
  | succ fuel ih =>
    rw [checkIncomingLoop]
    split_ifs
    · exact grows_of_log rfl
    dsimp only
    generalize c.parser.parseInput input = parsed
    obtain ⟨result, bytesParsed, parser⟩ := parsed
    have hparsed : Grows Event.isInner c ({ c with parser }.note (.parsed (input.take bytesParsed))) :=
      grows_of_cons rfl rfl
    cases result with
    | awaitData => exact hparsed.trans (ih _ _)
    | packet =>
      dsimp only
      split_ifs
      · exact (hparsed.trans (grows_handle _)).trans (ih _ _)
      · exact hparsed.trans (grows_handle _)
    | protocolError => exact hparsed.trans (grows_of_cons_cons rfl rfl rfl)

theorem not_isLoss_of_isInner (event : Event) (h : event.isInner) : !event.isLoss := by
  rw [Event.isInner, Bool.and_eq_true] at h
  exact h.2

theorem grows_checkOutboxLoop (fuel : ℕ) (c : MqttClient cfg) :
    Grows (fun event => !event.isLoss) c (c.checkOutboxLoop env fuel) := by
  induction fuel generalizing c with
  | zero => exact grows_of_log rfl
  | succ fuel ih =>
    have hsend : Grows (fun event => !event.isLoss) c (c.sendPacket env).2 := grows_sendPacket c fun _ => rfl
    have hadvance : Grows (fun event => !event.isLoss) _ (c.sendPacket env).2.advanceOutbox.2 :=
      grows_advanceOutbox (c.sendPacket env).2 (fun _ => rfl) rfl
    rw [checkOutboxLoop]
    dsimp only
    split_ifs
    · exact (hsend.trans hadvance).trans (ih _)
    · exact hsend.trans hadvance
    · exact hsend

theorem grows_checkIncoming (c : MqttClient cfg) :
    Grows (fun event => !event.isLoss) c (c.checkIncoming env) := by
  have hread : Grows (fun event => !event.isLoss) c (c.note (.read (env.read c.tick))).asked :=
    grows_of_cons rfl rfl
  rw [checkIncoming]
  dsimp only
  split_ifs
  · exact hread
  · have hloop := (grows_checkIncomingLoop env (env.read c.tick).length
      { (c.note (.read (env.read c.tick))).asked with
        lastServerActivity := (c.note (.read (env.read c.tick))).asked.millis env }.asked (env.read c.tick)).imp
      not_isLoss_of_isInner
    exact Grows.trans (hread.trans (grows_of_log rfl)) hloop

theorem grows_checkPing (c : MqttClient cfg) : Grows (fun event => !event.isLoss) c (c.checkPing env) := by
  rw [checkPing]
  dsimp only
  split_ifs
  · exact grows_of_log rfl
  · exact grows_of_cons_cons rfl rfl rfl
  · rcases addPacket_cases env c.asked fun alloc =>
      Packet.control cfg alloc PacketType.PINGREQ with ⟨_, -, hadd⟩ | ⟨-, hadd⟩
    · rw [hadd]
      exact grows_of_cons rfl rfl
    · rw [hadd]
      exact grows_of_log rfl
  · exact grows_of_log rfl

theorem grows_checkTimeout (c : MqttClient cfg) : Grows (fun event => !event.isLoss) c (c.checkTimeout env) := by
  rw [checkTimeout]
  split
  · exact grows_of_log rfl
  · dsimp only
    split_ifs
    · exact grows_of_cons rfl rfl
    · exact grows_of_log rfl
    · exact grows_of_log rfl

/-- The four checks blame anything but the transport. -/
theorem grows_checks (c : MqttClient cfg) : Grows (fun event => !event.isLoss) c
    ((((c.checkOutbox env).checkIncoming env).checkPing env).checkTimeout env) :=
  (((grows_checkOutboxLoop _ c).trans (grows_checkIncoming _)).trans (grows_checkPing _)).trans
    (grows_checkTimeout _)

/-! ### States -/

/-- A call leaves the state alone, begins a connection, breaks one off or begins to disconnect. -/
theorem state_call_cases (env : Env cfg) (c : MqttClient cfg) (apiCall : ApiCall) :
    (c.call env apiCall).state = c.state ∨
      (c.state = .disconnected ∧ (c.call env apiCall).state = .connectingTcp1) ∨
      ((c.call env apiCall).state = .disconnectingTcp1 ∧ c.state ≠ .disconnectingTcp2) ∨
      (c.state = .connected ∧ (c.call env apiCall).state = .disconnectingMqtt1) := by
  by_cases hdisconnect : ∃ force, apiCall = .disconnect force
  · obtain ⟨force, rfl⟩ := hdisconnect
    rw [call, disconnect]
    split_ifs with hforce hgentle
    · exact .inr (.inr (.inl ⟨rfl, hforce.2.2.2⟩))
    · exact .inr (.inr (.inr ⟨hgentle.2, rfl⟩))
    · exact .inl rfl
  by_cases hconnect : apiCall = .connect ∧ c.state = .disconnected
  · obtain ⟨rfl, hstate⟩ := hconnect
    rw [call, connect, if_pos hstate]
    dsimp only
    rw [addPacketFront]
    dsimp only
    split_ifs
    · exact .inr (.inl ⟨hstate, rfl⟩)
    · exact .inl rfl
    · exact .inl rfl
  · exact .inl (state_call (fun heq hstate => hconnect ⟨heq, hstate⟩) fun force heq => hdisconnect ⟨force, heq⟩)

/-- What every call keeps, calls keep. -/
theorem calls_keep {p : MqttClient cfg → Prop} (hcall : ∀ c apiCall, p c → p (c.call env apiCall))
    (apiCalls : List ApiCall) {c : MqttClient cfg} (h : p c) :
    p (apiCalls.foldl (fun c apiCall => c.call env apiCall) c) := by
  induction apiCalls generalizing c with
  | nil => exact h
  | cons apiCall apiCalls ih => exact ih (hcall c apiCall h)

theorem callback_keeps {p : MqttClient cfg → Prop} (hcall : ∀ c apiCall, p c → p (c.call env apiCall))
    {c : MqttClient cfg} {callback : Callback} {event : Event}
    (h : ∀ c' : MqttClient cfg, c'.state = c.state → p c') : p (c.callback env callback event) := by
  rw [MqttClient.callback]
  split_ifs
  · exact calls_keep hcall _ (h _ rfl)
  · exact h _ rfl

/-- The state after the four checks. -/
theorem isOnline_checks {c : MqttClient cfg} (h : c.Live (cfg.waitForConnack = true))
    (hopen : c.state ≠ .disconnectingTcp1) :
    ((((c.checkOutbox env).checkIncoming env).checkPing env).checkTimeout env).state.isOnline := by
  have hlive1 := (checkOutbox_steps env h hopen).2
  have hheard : (c.checkOutbox env).Heard := fun hwait => .inr (hlive1.greeted hwait)
  have hlive2 := (checkIncoming_moves env hlive1 hheard).2
  rw [state_checkTimeout]
  exact (checkPing_steps env hlive2).2.online

/-- **A connected transport** is not blamed for anything, and the client stays online. -/
theorem loop_of_connected (env : Env cfg) {c : MqttClient cfg} (hready : c.Ready) (hmqtt : isMqtt c.state)
    (hconnected : ∀ tick, env.connected tick) :
    (c.loop env).state.isOnline ∧ Grows (fun event => !event.isLoss) c (c.loop env) := by
  have hasked : Grows (fun event => !event.isLoss) c c.asked := grows_of_log rfl
  have honline : c.state.isOnline := by
    cases h : c.state <;> rw [h] at hmqtt <;> first | rfl | cases hmqtt
  have hopen : c.state ≠ .disconnectingTcp1 := by
    intro h
    rw [h] at hmqtt
    cases hmqtt
  have hchecks : c.Live (cfg.waitForConnack = true) → (c.loopConnected env).state.isOnline ∧
      Grows (fun event => !event.isLoss) c (c.loopConnected env) := by
    intro hlive
    rw [loopConnected, if_pos (hconnected _)]
    exact ⟨isOnline_checks (hlive.request rfl rfl id) hopen, hasked.trans (grows_checks _)⟩
  rw [loop]
  cases hstate : c.state <;> rw [hstate] at hmqtt <;> try cases hmqtt
  case connectingMqtt =>
    dsimp only
    rw [loopConnectingMqtt]
    split_ifs with hwait hdown
    · have hlive : c.asked.Live False := ⟨honline, hready.sound, False.elim⟩
      have hsent := sendPacket_live env hlive
      have hheard : (c.asked.sendPacket env).2.Heard := fun _ => .inl ((state_sendPacket c.asked).trans hstate)
      have hlive2 := (checkIncoming_moves env hsent hheard).2
      refine ⟨(checkPing_steps env hlive2).2.online, ?_⟩
      have hsend : Grows (fun event => !event.isLoss) c (c.asked.sendPacket env).2 :=
        hasked.trans (grows_sendPacket _ fun _ => rfl)
      exact (hsend.trans (grows_checkIncoming _)).trans (grows_checkPing _)
    · exact absurd (hconnected _) hdown
    · exact hchecks ⟨honline, hready.sound, fun h => absurd h hwait⟩
  case connected => exact hchecks (hready.live (by rw [hstate]; rfl))
  case disconnectingMqtt1 =>
    have hlive : c.Live (cfg.waitForConnack = true) := hready.live (by rw [hstate]; rfl)
    have hdue : (c.dueDisconnect env).state ≠ .disconnectingTcp1 := by
      rcases state_dueDisconnect env hstate with h | h <;> rw [h] <;> decide
    have hgrows : Grows (fun event => !event.isLoss) c (c.dueDisconnect env) := by
      rcases dueDisconnect_cases env c with ⟨-, _, -, h⟩ | ⟨-, h⟩ | ⟨-, h⟩ <;> rw [h]
      · exact grows_of_cons rfl rfl
      · exact grows_of_cons rfl rfl
      · exact grows_of_log rfl
    dsimp only
    rw [loopDisconnectingMqtt1_eq]
    exact ⟨isOnline_checks (dueDisconnect_live hlive) hdue, hgrows.trans (grows_checks _)⟩
  case disconnectingMqtt2 => exact hchecks (hready.live (by rw [hstate]; rfl))

end MqttClient

end EspMqttClient
