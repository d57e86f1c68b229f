/-
  The life of a connection.

  Every `connect` that returned true is answered by one call of the `onDisconnect` callback
  (`run_onDisconnect`).  In between the states are passed through in one direction, as long as no CONNACK is
  accepted after the client has left `connectingMqtt` (`run_forward`).
-/
import EspMqttClient.MqttClient.Equiv.Cycles

namespace EspMqttClient

/-! ### Properties of a log -/

/-- How many calls of `onDisconnect` are to come. -/
def State.toCome : State → ℕ
  | disconnected => 0
  | _ => 1

/-- What may be left in the queue when a connection has come to its end: a PUBLISH that has a packet id,
which it has for a quality of service above 0, a PUBREC or a PUBREL. -/
def OutgoingPacket.isSession (item : OutgoingPacket) : Bool :=
  (item.isType PacketType.PUBLISH ∧ item.packet.packetId ≠ 0) ∨
    item.isType PacketType.PUBREC ∨ item.isType PacketType.PUBREL

namespace Record

/-- A callback is called when as many calls of `onDisconnect` are missing as the state says. -/
def isBalanced (r : Record) (earlier : Log) : Bool :=
  match r.event with
  | .calls _ => earlier.onDisconnects + r.state.toCome = earlier.connects
  | _ => true

/-- `onDisconnect` is called when everything is over. -/
def isAtRest (r : Record) : Bool :=
  match r.event with
  | .onDisconnect _ => r.state = .disconnected ∧ r.bytesSent = 0 ∧ r.outbox.items.all (·.isSession)
  | _ => true

/-- The state moves forward or from the last one to the first, and a client that has begun to disconnect
does not become connected again.  `onConnect` is called once, and not by such a client. -/
def isForward (r : Record) (earlier : Log) : Bool :=
  match r.event with
  | .state next =>
    (r.state.toNat ≤ next.toNat ∨ (r.state = .disconnectingTcp2 ∧ next = .disconnected)) ∧
      ¬ (earlier.closing ∧ next = .connected)
  | .onConnect _ => ¬ earlier.closing ∧ ¬ earlier.greeted
  | _ => true

/-- A CONNACK with return code 0 comes when one is waited for, and it is not a DISCONNECT that has been
written. -/
def isTimely (r : Record) : Bool :=
  match r.event with
  | .packet report =>
    if report.packetType &&& 0xF0 = PacketType.CONNACK ∧ report.returnCode = 0 then
      r.state = .connectingMqtt ∧ r.outbox.getCurrent.all fun item =>
        ¬ (item.isType PacketType.DISCONNECT ∧ r.bytesSent = item.packet.size)
    else true
  | _ => true

end Record

namespace MqttClient

variable {cfg : Config} {env : Env cfg}

/-! ### One `onDisconnect` for each `connect` -/

theorem Calm.always {p : Record → Log → Prop} {c c' : MqttClient cfg} (h : Calm c c')
    (hcalm : ∀ r : Record, r.event.isCalm → r.state = c.state → ∀ earlier, p r earlier)
    (hlog : Trace.Always p c.log) : Trace.Always p c'.log := by
  obtain ⟨new, hnew, hrecords⟩ := h.log
  rw [hnew]
  exact hlog.append fun r hr => hcalm r (hrecords r hr).1 (hrecords r hr).2

theorem connects_append {new : Log} (h : ∀ r ∈ new, r.event.isCalm) (log : Log) :
    Log.connects (new ++ log) = log.connects := by
  have hzero : new.countP (·.event.isConnect) = 0 := by
    rw [List.countP_eq_zero]
    intro r hr hconnect
    obtain ⟨event, _, _, _, _⟩ := r
    cases event with
    | connect => cases h _ hr
    | _ => cases hconnect
  rw [Log.connects, List.countP_append, hzero, Nat.zero_add, Log.connects]

theorem onDisconnects_append {new : Log} (h : ∀ r ∈ new, r.event.isCalm) (log : Log) :
    Log.onDisconnects (new ++ log) = log.onDisconnects := by
  have hzero : new.countP (·.event.isOnDisconnect) = 0 := by
    rw [List.countP_eq_zero]
    intro r hr hevent
    obtain ⟨event, _, _, _, _⟩ := r
    cases event with
    | onDisconnect => cases h _ hr
    | _ => cases hevent
  rw [Log.onDisconnects, List.countP_append, hzero, Nat.zero_add, Log.onDisconnects]

/-- As many calls of `onDisconnect` are missing as the state says, whenever user code runs. -/
structure Balanced (c : MqttClient cfg) : Prop where
  balance : c.log.onDisconnects + c.state.toCome = c.log.connects
  calls : Trace.Always (fun r earlier => r.isBalanced earlier) c.log

theorem Balanced.calm {c c' : MqttClient cfg} (hc : c.Balanced) (h : Calm c c') : c'.Balanced := by
  obtain ⟨new, hnew, hrecords⟩ := h.log
  refine ⟨?_, ?_⟩
  · have hcalm : ∀ r ∈ new, r.event.isCalm := fun r hr => (hrecords r hr).1
    rw [hnew, onDisconnects_append hcalm, connects_append hcalm, h.state]
    exact hc.balance
  · rw [hnew]
    clear hnew
    induction new with
    | nil => exact hc.calls
    | cons r new ih =>
      rw [List.forall_mem_cons] at hrecords
      have hcalm : ∀ r ∈ new, r.event.isCalm := fun r hr => (hrecords.2 r hr).1
      refine ⟨?_, ih hrecords.2⟩
      show r.isBalanced (new ++ c.log)
      unfold Record.isBalanced
      split
      · rw [onDisconnects_append hcalm, connects_append hcalm, hrecords.1.2, hc.balance]
        exact decide_eq_true rfl
      · rfl

/-- A change of the state that is not counted. -/
theorem Balanced.moveTo {c : MqttClient cfg} (hc : c.Balanced) {state : State}
    (hcount : state.toCome = c.state.toCome) : (c.setState state).Balanced :=
  ⟨hcount ▸ hc.balance, rfl, hc.calls⟩

/-- What `disconnect` does when it returns true. -/
theorem disconnect_cases {c : MqttClient cfg} {force : Bool} (h : (c.disconnect force).1) :
    ∃ state, (c.disconnect force).2 = (c.note (.disconnect force)).setState state ∧
      c.state ≠ .disconnected ∧ c.state.toNat < state.toNat ∧
      ((state = .disconnectingTcp1 ∧ force) ∨ (state = .disconnectingMqtt1 ∧ ¬ force)) := by
  rw [disconnect] at h ⊢
  split_ifs at h ⊢ with hforce hgentle
  · obtain ⟨hforce, h1, h2, h3⟩ := hforce
    refine ⟨_, rfl, h1, ?_, .inl ⟨rfl, hforce⟩⟩
    cases hstate : c.state <;> simp [hstate, State.toNat] at h1 h2 h3 ⊢
  · refine ⟨_, rfl, ?_, ?_, .inr ⟨rfl, hgentle.1⟩⟩
    · simp [hgentle.2]
    · simp [hgentle.2, State.toNat]

theorem toCome_of_ne {state : State} (h : state ≠ .disconnected) : state.toCome = 1 := by
  cases state <;> simp [State.toCome] at h ⊢

theorem ne_disconnected_of_isOnline {state : State} (h : state.isOnline) : state ≠ .disconnected := by
  rintro rfl
  cases h

/-- A connection that fails was begun. -/
theorem ne_disconnected_of_fails {state : State}
    (h : state.isOnline ∨ state = .connectingTcp1 ∨ state = .connectingTcp2) : state ≠ .disconnected := by
  rcases h with h | rfl | rfl
  · exact ne_disconnected_of_isOnline h
  · simp
  · simp

theorem toCome_of_isOnline {state : State} (h : state.isOnline) : state.toCome = 1 :=
  toCome_of_ne (ne_disconnected_of_isOnline h)

theorem Phase.balanced {c c' : MqttClient cfg} (h : Phase c c') (hc : c.Balanced) : c'.Balanced := by
  have hbalance := hc.balance
  cases h with
  | calm h => exact hc.calm h
  | connect args hstate =>
    refine ⟨?_, rfl, rfl, hc.calls⟩
    rw [hstate, State.toCome] at hbalance
    show c.log.onDisconnects + 1 = Log.connects (_ :: _ :: c.log)
    rw [Log.connects, List.countP_cons_of_neg (by simp [Event.isConnect]), List.countP_cons_of_pos rfl]
    exact congrArg (· + 1) hbalance
  | disconnect force h =>
    obtain ⟨state, hstate, hne, hlt, -⟩ := disconnect_cases h
    rw [hstate]
    refine ⟨?_, rfl, rfl, hc.calls⟩
    have hne' : state ≠ .disconnected := by
      rintro rfl
      exact absurd hlt (Nat.not_lt_zero _)
    show c.log.onDisconnects + state.toCome = c.log.connects
    rw [toCome_of_ne hne', ← toCome_of_ne hne, hbalance]
  | connecting hstate => exact hc.moveTo (by rw [hstate]; rfl)
  | established hstate => exact hc.moveTo (by rw [hstate]; rfl)
  | addDisconnect hstate => exact hc.moveTo (by rw [hstate]; rfl)
  | lost fault hstate =>
    rw [toCome_of_ne (ne_disconnected_of_fails hstate)] at hbalance
    exact ⟨hbalance, rfl, rfl, hc.calls⟩
  | farewell hstate htype =>
    rw [toCome_of_isOnline hstate] at hbalance
    rw [farewell_of_type htype]
    exact ⟨hbalance, rfl, rfl, hc.calls⟩
  | stop hstate =>
    rw [hstate] at hbalance
    exact ⟨hbalance, rfl, rfl, hc.calls⟩
  | close hstate =>
    refine ⟨?_, rfl, rfl, rfl, hc.calls⟩
    rw [hstate] at hbalance
    show Log.onDisconnects (_ :: _ :: _ :: c.log) + 0 = c.log.connects
    rw [Log.onDisconnects, List.countP_cons_of_pos rfl, ← hbalance]
    rfl
  | unexpected hstate =>
    rw [hstate] at hbalance
    exact ⟨hbalance, rfl, rfl, hc.calls⟩
  | refused hstate =>
    rw [toCome_of_isOnline hstate] at hbalance
    exact ⟨hbalance, rfl, rfl, hc.calls⟩
  | accept hstate =>
    rw [toCome_of_isOnline hstate] at hbalance
    have hconnected : c.received.connectedNow.Balanced := ⟨hbalance, rfl, rfl, hc.calls⟩
    have hadmitted : c.received.admitted.Balanced := by
      rcases calm_admitted c.received with h | ⟨item, -, -, htype, h⟩
      · exact hconnected.calm h
      · refine Balanced.calm ?_ h
        rw [farewell_of_type htype]
        exact ⟨hbalance, rfl, rfl, rfl, rfl, hc.calls⟩
    exact ⟨hadmitted.balance, rfl, hadmitted.calls⟩

/-- What the clearing of a queue leaves at the end of a connection. -/
theorem isSession_of_keeps {item : OutgoingPacket} (h : keeps 0 item) : item.isSession := by
  rw [OutgoingPacket.isSession]
  simp only [keeps, if_true, decide_eq_true_eq] at h ⊢
  tauto

theorem close_atRest (c : MqttClient cfg) {r : Record} {earlier : Log} (h : c.close.log = r :: earlier) :
    r.isAtRest := by
  obtain ⟨rfl, -⟩ := List.cons.inj h
  refine decide_eq_true ⟨rfl, rfl, ?_⟩
  show (CursorList.items (.sweep (keeps 0) c.outbox.size 0 c.outbox)).all (·.isSession)
  rw [CursorList.sweep_eq_filter, CursorList.items_filter, List.all_eq_true]
  intro item hitem
  exact isSession_of_keeps (List.mem_filter.mp hitem).2

theorem Phase.atRest {c c' : MqttClient cfg} (h : Phase c c')
    (hc : Trace.Always (fun r _ => r.isAtRest) c.log) : Trace.Always (fun r _ => r.isAtRest) c'.log := by
  have hcalm : ∀ {c c' : MqttClient cfg}, Calm c c' → Trace.Always (fun r _ => r.isAtRest) c.log →
      Trace.Always (fun r _ => r.isAtRest) c'.log := by
    intro c c' h
    apply h.always
    rintro ⟨event, _, _, _, _⟩ hevent - -
    cases event with
    | onDisconnect => cases hevent
    | _ => rfl
  cases h with
  | calm h => exact hcalm h hc
  | disconnect force h =>
    obtain ⟨state, hstate, -⟩ := disconnect_cases h
    rw [hstate]
    exact ⟨rfl, rfl, hc⟩
  | farewell hstate htype =>
    rw [farewell_of_type htype]
    exact ⟨rfl, rfl, hc⟩
  | close => exact ⟨close_atRest c rfl, rfl, rfl, hc⟩
  | accept =>
    have hadmitted : Trace.Always (fun r _ => r.isAtRest) c.received.admitted.log := by
      rcases calm_admitted c.received with h | ⟨item, -, -, htype, h⟩
      · refine hcalm h ?_
        exact ⟨rfl, rfl, hc⟩
      · refine hcalm h ?_
        rw [farewell_of_type htype]
        exact ⟨rfl, rfl, rfl, rfl, hc⟩
    exact ⟨rfl, hadmitted⟩
  | connecting | established | addDisconnect => exact ⟨rfl, hc⟩
  | connect | lost | stop | unexpected | refused => exact ⟨rfl, rfl, hc⟩

/-- **One `onDisconnect` for each `connect`**: a call is missing exactly when the client is not
disconnected, also while a callback runs, and it is made when nothing but the session is left. -/
theorem run_onDisconnect (env : Env cfg) (generatedClientId : CString) (actions : List Action) :
    let c := (new cfg generatedClientId).run env actions
    c.log.onDisconnects + c.state.toCome = c.log.connects ∧
      Trace.Always (fun r earlier => r.isBalanced earlier) c.log ∧
      Trace.Always (fun r _ => r.isAtRest) c.log := by
  have hbalanced : Balanced ((new cfg generatedClientId).run env actions) :=
    run_phase_invariant env Balanced generatedClientId ⟨rfl, trivial⟩ Phase.balanced actions
  refine ⟨hbalanced.balance, hbalanced.calls, ?_⟩
  apply run_phase_invariant env fun c => Trace.Always (fun r _ => r.isAtRest) c.log
  · trivial
  · exact Phase.atRest

/-! ### Forward only -/

/-- The states are passed through in one direction. -/
structure Onward (c : MqttClient cfg) : Prop where
  forward : Trace.Always (fun r earlier => r.isForward earlier) c.log
  closing : c.log.closing → State.disconnectingMqtt1.toNat ≤ c.state.toNat ∨ c.state = .disconnected
  greeted : c.log.greeted → State.connected.toNat ≤ c.state.toNat ∨ c.state = .disconnected

theorem Calm.closing {c c' : MqttClient cfg} (h : Calm c c') : c'.log.closing = c.log.closing := by
  apply h.since
  intro event hevent
  cases event <;> first | exact ⟨rfl, rfl⟩ | cases hevent

theorem Calm.greeted {c c' : MqttClient cfg} (h : Calm c c') : c'.log.greeted = c.log.greeted := by
  apply h.since
  intro event hevent
  cases event <;> first | exact ⟨rfl, rfl⟩ | cases hevent

theorem Onward.calm {c c' : MqttClient cfg} (hc : c.Onward) (h : Calm c c') : c'.Onward where
  forward := by
    apply h.always _ hc.forward
    rintro ⟨event, _, _, _, _⟩ hevent - earlier
    cases event with
    | state => cases hevent
    | onConnect => cases hevent
    | _ => rfl
  closing := by
    rw [h.closing, h.state]
    exact hc.closing
  greeted := by
    rw [h.greeted, h.state]
    exact hc.greeted

/-- Going on to a later state. -/
theorem Onward.moveTo {c : MqttClient cfg} (hc : c.Onward) (hstate : c.state ≠ .disconnected)
    {state : State} (hle : c.state.toNat ≤ state.toNat) : (c.setState state).Onward where
  forward := by
    refine ⟨decide_eq_true ⟨.inl hle, ?_⟩, hc.forward⟩
    rintro ⟨hclosing, rfl⟩
    have hlate := (hc.closing hclosing).resolve_right hstate
    exact absurd (hlate.trans hle) (by decide)
  closing h := by
    rcases Bool.or_eq_true_iff.mp h with hleaving | hclosing
    · exact .inl (of_decide_eq_true hleaving)
    · exact .inl (((hc.closing hclosing).resolve_right hstate).trans hle)
  greeted h := .inl (((hc.greeted h).resolve_right hstate).trans hle)

theorem toNat_le_of_isOnline {state : State} (h : state.isOnline) :
    state.toNat ≤ State.disconnectingTcp1.toNat := by
  cases state <;> first | decide | cases h

theorem toNat_le_of_fails {state : State}
    (h : state.isOnline ∨ state = .connectingTcp1 ∨ state = .connectingTcp2) :
    state.toNat ≤ State.disconnectingTcp1.toNat := by
  rcases h with h | rfl | rfl
  · exact toNat_le_of_isOnline h
  · decide
  · decide

/-- A CONNACK that is accepted in time. -/
theorem Onward.admitted {c : MqttClient cfg} (hc : c.Onward) (hstate : c.state = .connectingMqtt)
    (hcurrent : ∀ item, c.outbox.getCurrent = some item →
      ¬ (item.packet.packetType = PacketType.DISCONNECT ∧ c.bytesSent = item.packet.size)) :
    c.accept.Onward := by
  have hclosing : ¬ c.log.closing := by
    intro h
    have := hc.closing h
    rw [hstate] at this
    exact absurd this (by decide)
  have hgreeted : ¬ c.log.greeted := by
    intro h
    have := hc.greeted h
    rw [hstate] at this
    exact absurd this (by decide)
  have hquiet : ({ c with pingSent := false } : MqttClient cfg).Onward :=
    ⟨hc.forward, hc.closing, hc.greeted⟩
  have hconnected : c.connectedNow.Onward := by
    apply hquiet.moveTo
    · show c.state ≠ .disconnected
      simp [hstate]
    · show c.state.toNat ≤ _
      simp [hstate, State.toNat]
  rcases calm_admitted c with hcalm | ⟨item, hitem, hsize, htype, -⟩
  · have hadmitted := hconnected.calm hcalm
    have hclosing' : c.admitted.log.closing = c.log.closing := hcalm.closing
    have hgreeted' : c.admitted.log.greeted = c.log.greeted := hcalm.greeted
    have hstate' : c.admitted.state = .connected := hcalm.state
    refine ⟨⟨decide_eq_true ?_, hadmitted.forward⟩, hadmitted.closing, fun _ => .inl ?_⟩
    · rw [hclosing', hgreeted']
      exact ⟨hclosing, hgreeted⟩
    · show _ ≤ c.admitted.state.toNat
      rw [hstate']
  · exact absurd ⟨htype, hsize⟩ (hcurrent item hitem)

/-- Something was noted that has nothing to do with it. -/
theorem Onward.noted {c : MqttClient cfg} (hc : c.Onward) {event : Event} (h : event.isCalm) :
    (c.note event).Onward := hc.calm (calm_note c h)

theorem isTimely_received {c : MqttClient cfg} (htype : c.incomingType = PacketType.CONNACK)
    (hcode : c.incoming.returnCode = 0)
    (h : Record.isTimely ⟨.packet c.parser.report, c.state, c.outbox, c.bytesSent, c.disconnectReason⟩) :
    c.state = .connectingMqtt ∧ ∀ item, c.outbox.getCurrent = some item →
      ¬ (item.packet.packetType = PacketType.DISCONNECT ∧ c.bytesSent = item.packet.size) := by
  have hconnack : c.parser.report.packetType &&& 0xF0 = PacketType.CONNACK ∧
      c.parser.report.returnCode = 0 := ⟨htype, hcode⟩
  simp only [Record.isTimely, hconnack] at h
  obtain ⟨hstate, hcurrent⟩ := of_decide_eq_true h
  refine ⟨hstate, fun item hitem => ?_⟩
  rw [hitem] at hcurrent
  rintro ⟨htype, hsize⟩
  simp [OutgoingPacket.isType, htype, hsize] at hcurrent

theorem Phase.onward {c c' : MqttClient cfg} (h : Phase c c')
    (hc : Trace.Always (fun r _ => r.isTimely) c.log → c.Onward)
    (htimely : Trace.Always (fun r _ => r.isTimely) c'.log) : c'.Onward := by
  cases h with
  | calm h =>
    obtain ⟨new, hnew, -⟩ := h.log
    rw [hnew] at htimely
    exact (hc htimely.of_append).calm h
  | connect args hstate =>
    have hc := hc htimely.2.2
    refine ⟨⟨decide_eq_true ⟨.inl ?_, ?_⟩, rfl, hc.forward⟩, nofun, nofun⟩
    · show c.state.toNat ≤ _
      simp [hstate, State.toNat]
    · rintro ⟨-, h⟩
      cases h
  | disconnect force h =>
    -- forced or not, the state goes up
    obtain ⟨state, hleave, hstate, hlt, -⟩ := disconnect_cases h
    rw [hleave] at htimely ⊢
    have hc := hc htimely.2.2
    have hnoted : (c.note (.disconnect force)).Onward := ⟨⟨rfl, hc.forward⟩, hc.closing, hc.greeted⟩
    exact hnoted.moveTo hstate hlt.le
  | connecting hstate =>
    exact (hc htimely.2).moveTo (by simp [hstate]) (by simp [hstate, State.toNat])
  | established hstate =>
    exact (hc htimely.2).moveTo (by simp [hstate]) (by simp [hstate, State.toNat])
  | addDisconnect hstate =>
    exact (hc htimely.2).moveTo (by simp [hstate]) (by simp [hstate, State.toNat])
  | lost fault hstate =>
    have hc := hc htimely.2.2
    have hnoted : (c.note (.fault fault)).Onward := ⟨⟨rfl, hc.forward⟩, hc.closing, hc.greeted⟩
    -- the reason that is set behind it does not count
    have hlost : ((c.note (.fault fault)).setState .disconnectingTcp1).Onward := by
      apply hnoted.moveTo
      · exact ne_disconnected_of_fails hstate
      · exact toNat_le_of_fails hstate
    exact ⟨hlost.forward, hlost.closing, hlost.greeted⟩
  | farewell hstate htype =>
    rw [farewell_of_type htype] at htimely ⊢
    have hleft := (hc htimely.2.2).moveTo (ne_disconnected_of_isOnline hstate) (toNat_le_of_isOnline hstate)
    exact ⟨⟨rfl, hleft.forward⟩, hleft.closing, hleft.greeted⟩
  | stop hstate =>
    have hc := hc htimely.2.2
    have hnoted : (c.note .stop).Onward := ⟨⟨rfl, hc.forward⟩, hc.closing, hc.greeted⟩
    apply hnoted.moveTo
    · show c.state ≠ _
      simp [hstate]
    · show c.state.toNat ≤ _
      simp [hstate, State.toNat]
  | close hstate =>
    -- the only way down is this one, and it starts at `disconnectingTcp2`
    have hc := hc htimely.2.2.2
    have hlast : ∀ earlier, Record.isForward ⟨.state .disconnected, c.state, (c.clearQueue 0).outbox, 0,
        c.disconnectReason⟩ earlier := by
      intro earlier
      refine decide_eq_true ⟨.inr ⟨hstate, rfl⟩, ?_⟩
      rintro ⟨-, h⟩
      cases h
    exact ⟨⟨rfl, hlast _, rfl, hc.forward⟩, fun _ => .inr rfl, fun _ => .inr rfl⟩
  | unexpected hstate =>
    have hc := hc htimely.2.2
    have hnoted : (c.note (.fault .unexpectedPacket)).Onward :=
      ⟨⟨rfl, hc.forward⟩, hc.closing, hc.greeted⟩
    apply hnoted.moveTo
    · show c.state ≠ _
      simp [hstate]
    · show c.state.toNat ≤ _
      simp [hstate, State.toNat]
  | refused hstate =>
    have hreceived := (hc htimely.2.2).calm (calm_received c)
    apply Onward.moveTo
    · exact ⟨hreceived.forward, hreceived.closing, hreceived.greeted⟩
    · exact ne_disconnected_of_isOnline hstate
    · exact toNat_le_of_isOnline hstate
  | accept hstate htype hcode =>
    obtain ⟨new, hnew⟩ := log_suffix_admitted c.received
    have htimely : Trace.Always (fun r _ => r.isTimely) c.received.log := by
      have hadmitted := htimely.2
      rw [← hnew] at hadmitted
      exact hadmitted.of_append
    -- by assumption the client is still waiting for this CONNACK
    obtain ⟨hintime, hcurrent⟩ := isTimely_received htype hcode htimely.1
    exact ((hc htimely.2).calm (calm_received c)).admitted hintime hcurrent

/-- **A disconnect that was begun is final**, in every run in which each CONNACK with return code 0 comes
when one is waited for. -/
theorem run_forward (env : Env cfg) (generatedClientId : CString) (actions : List Action)
    (h : Trace.Always (fun r _ => r.isTimely) ((new cfg generatedClientId).run env actions).log) :
    Trace.Always (fun r earlier => r.isForward earlier) ((new cfg generatedClientId).run env actions).log := by
  have honward := run_phase_invariant env (fun c => Trace.Always (fun r _ => r.isTimely) c.log → c.Onward)
    generatedClientId (fun _ => ⟨trivial, nofun, nofun⟩) Phase.onward actions
  exact (honward h).forward

/-- The script of a connection that is opened and, after `disconnect`, closed. -/
def farewellScript : Script where
  read := [(9, [0x20, 2, 1, 0])]

theorem run_forward_farewell : Trace.Always (fun r earlier => r.isForward earlier)
    (farewellScript.run [.call .connect, .loop, .loop, .call (.disconnect false), .loop]).log := by
  apply run_forward
  decide +kernel

/-- A server that sends a second CONNACK when it has got the DISCONNECT. -/
def lateConnackScript : Script where
  read := [(9, [0x20, 2, 1, 0]), (17, [0x20, 2, 1, 0])]

/-- After a second CONNACK the client is connected again. -/
theorem not_forward_lateConnack : ¬ Trace.Always (fun r earlier => r.isForward earlier)
    (lateConnackScript.run [.call .connect, .loop, .loop, .call (.disconnect false), .loop]).log := by
  decide +kernel

end MqttClient

end EspMqttClient
