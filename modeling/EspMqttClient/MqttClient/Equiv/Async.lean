/-
  The client that a TCP library calls.

  Two of the library's functions set the state without a look at it.  A disconnect is final as long as
  they are not called when that would take it back (`run_final`).
-/
import EspMqttClient.MqttClient.Async
import EspMqttClient.MqttClient.Equiv.Lifecycle

namespace EspMqttClient

/-! ### Properties of a log -/

/-- Did a `disconnect(true)` return true? -/
def Event.isForced : Event → Bool
  | .disconnect force => force
  | _ => false

/-- Did a `disconnect(true)` return true since the last `connect`? -/
def Log.forced : Log → Bool := Trace.since (·.event.isConnect) (·.event.isForced)

/-- Was `onDisconnect` called since the last `connect`? -/
def Log.closed : Log → Bool := Trace.since (·.event.isConnect) (·.event.isOnDisconnect)

/-- Is it one of the states a broken connection goes through? -/
def State.isLeft : State → Bool
  | disconnectingTcp1 | disconnectingTcp2 | disconnected => true
  | _ => false

namespace Record

/-- After a forced disconnect the client goes on to `disconnected`, and `onDisconnect` is called once. -/
def isFinal (r : Record) (earlier : Log) : Bool :=
  match r.event with
  | .state next => earlier.forced → next.isLeft
  | .onDisconnect _ => ¬ earlier.closed
  | _ => true

/-- No CONNACK with return code 0 comes in after a forced disconnect. -/
def isObserved (r : Record) (earlier : Log) : Bool :=
  match r.event with
  | .packet report =>
    report.packetType &&& 0xF0 = PacketType.CONNACK ∧ report.returnCode = 0 → ¬ earlier.forced
  | _ => true

end Record

namespace MqttClientAsync

open MqttClient

variable {cfg : Config} {env : AsyncEnv cfg}

/-- Does the library report what suits the state: a connection is made when none was broken off or has come
to its end, and lost when it has not come to its end? -/
def suits (c : MqttClient cfg) : Action → Bool
  | .onConnectCb => ¬ c.log.forced ∧ c.state ≠ .disconnected
  | .onDisconnectCb => c.state ≠ .disconnected
  | _ => true

/-- Does every action of a run suit the state it finds? -/
def orderly (env : AsyncEnv cfg) : MqttClient cfg → List Action → Bool
  | _, [] => true
  | c, action :: actions => suits c action ∧ orderly env (act env c action) actions

end MqttClientAsync

namespace MqttClient

variable {cfg : Config} {env : Env cfg}

/-! ### Phases -/

/-- A broken connection is on its way to `disconnected`, and stays there. -/
structure Final (c : MqttClient cfg) : Prop where
  final : Trace.Always (fun r earlier => r.isFinal earlier) c.log
  forced : c.log.forced → c.state.isLeft
  closed : c.log.closed → c.state = .disconnected

theorem Calm.forced {c c' : MqttClient cfg} (h : Calm c c') : c'.log.forced = c.log.forced := by
  apply h.since
  intro event hevent
  cases event <;> first | exact ⟨rfl, rfl⟩ | cases hevent

theorem Calm.closed {c c' : MqttClient cfg} (h : Calm c c') : c'.log.closed = c.log.closed := by
  apply h.since
  intro event hevent
  cases event <;> first | exact ⟨rfl, rfl⟩ | cases hevent

theorem Final.calm {c c' : MqttClient cfg} (hc : c.Final) (h : Calm c c') : c'.Final where
  final := by
    apply h.always _ hc.final
    rintro ⟨event, _, _, _, _⟩ hevent - earlier
    cases event with
    | state => cases hevent
    | onDisconnect => cases hevent
    | _ => rfl
  forced := by
    rw [h.forced, h.state]
    exact hc.forced
  closed := by
    rw [h.closed, h.state]
    exact hc.closed

/-- Going on to another state, but not back. -/
theorem Final.moveTo {c : MqttClient cfg} (hc : c.Final) (hstate : c.state ≠ .disconnected)
    {state : State} (hleft : c.log.forced → state.isLeft) : (c.setState state).Final where
  final := ⟨decide_eq_true hleft, hc.final⟩
  forced := hleft
  closed h := absurd (hc.closed h) hstate

/-- A broken connection is neither being made nor open. -/
theorem Final.not_forced {c : MqttClient cfg} (hc : c.Final) (h : ¬ c.state.isLeft) : ¬ c.log.forced :=
  fun hforced => h (hc.forced hforced)

/-- A CONNACK is accepted: the connection it is for was not broken before. -/
theorem Final.admitted {c : MqttClient cfg} (hc : c.Final) (hstate : c.state.isOnline)
    (hnotForced : ¬ c.log.forced) : c.admitted.Final := by
  have hconnected : c.connectedNow.Final := by
    apply Final.moveTo
    · exact ⟨hc.final, hc.forced, hc.closed⟩
    · exact ne_disconnected_of_isOnline hstate
    · exact fun h => absurd h hnotForced
  rcases calm_admitted c with hcalm | ⟨item, -, -, htype, hcalm⟩
  · exact hconnected.calm hcalm
  · -- a DISCONNECT under the cursor: the client is connected and leaves at once
    refine Final.calm ?_ hcalm
    rw [farewell_of_type htype]
    have hleft : (c.connectedNow.setState .disconnectingTcp1).Final :=
      hconnected.moveTo (fun h => by cases h) fun _ => rfl
    exact ⟨⟨rfl, hleft.final⟩, hleft.forced, hleft.closed⟩

theorem Phase.final {c c' : MqttClient cfg} (h : Phase c c')
    (hc : Trace.Always (fun r earlier => r.isObserved earlier) c.log → c.Final)
    (hobserved : Trace.Always (fun r earlier => r.isObserved earlier) c'.log) : c'.Final := by
  cases h with
  | calm h =>
    obtain ⟨new, hnew⟩ := h.log_suffix
    rw [← hnew] at hobserved
    exact (hc hobserved.of_append).calm h
  | connect args =>
    refine ⟨⟨rfl, rfl, (hc hobserved.2.2).final⟩, fun h => ?_, fun h => ?_⟩
    · cases h
    · cases h
  | disconnect force h =>
    obtain ⟨state, hleave, hstate, hlt, hcases⟩ := disconnect_cases h
    rw [hleave] at hobserved ⊢
    have hc := hc hobserved.2.2
    have hclosed : ¬ c.log.closed := fun h => hstate (hc.closed h)
    rcases hcases with ⟨rfl, rfl⟩ | ⟨rfl, hgentle⟩
    · exact ⟨⟨rfl, rfl, hc.final⟩, fun _ => rfl, fun h => absurd h hclosed⟩
    · obtain rfl : force = false := by simpa using hgentle
      have hnoted : (c.note (.disconnect false)).Final := ⟨⟨rfl, hc.final⟩, hc.forced, hc.closed⟩
      have hleft : ¬ c.state.isLeft := by
        cases hsame : c.state <;> simp [hsame, State.toNat] at hlt hstate <;> simp [State.isLeft]
      exact hnoted.moveTo hstate fun h => absurd h (hnoted.not_forced hleft)
  | connecting hstate =>
    have hc := hc hobserved.2
    exact hc.moveTo (by simp [hstate]) fun h => absurd h (hc.not_forced (by simp [hstate, State.isLeft]))
  | established hstate =>
    have hc := hc hobserved.2
    exact hc.moveTo (by simp [hstate]) fun h => absurd h (hc.not_forced (by simp [hstate, State.isLeft]))
  | addDisconnect hstate =>
    have hc := hc hobserved.2
    exact hc.moveTo (by simp [hstate]) fun h => absurd h (hc.not_forced (by simp [hstate, State.isLeft]))
  | lost fault hstate =>
    -- the fault is noted, then the state, then the reason is set
    have hc := hc hobserved.2.2
    have hnoted : (c.note (.fault fault)).Final := ⟨⟨rfl, hc.final⟩, hc.forced, hc.closed⟩
    have hlost : ((c.note (.fault fault)).setState .disconnectingTcp1).Final := by
      apply hnoted.moveTo
      · exact ne_disconnected_of_fails hstate
      · exact fun _ => rfl
    exact ⟨hlost.final, hlost.forced, hlost.closed⟩
  | farewell hstate htype =>
    rw [farewell_of_type htype] at hobserved ⊢
    have hleft : (c.setState .disconnectingTcp1).Final :=
      (hc hobserved.2.2).moveTo (ne_disconnected_of_isOnline hstate) fun _ => rfl
    exact ⟨⟨rfl, hleft.final⟩, hleft.forced, hleft.closed⟩
  | stop hstate =>
    have hc := hc hobserved.2.2
    have hnoted : (c.note .stop).Final := ⟨⟨rfl, hc.final⟩, hc.forced, hc.closed⟩
    apply hnoted.moveTo
    · show c.state ≠ _
      simp [hstate]
    · exact fun _ => rfl
  | close hstate =>
    have hc := hc hobserved.2.2.2
    have hclosed : ¬ c.log.closed := fun h => absurd (hc.closed h) (by simp [hstate])
    refine ⟨⟨decide_eq_true hclosed, decide_eq_true fun _ => rfl, rfl, hc.final⟩, fun _ => rfl, fun _ => rfl⟩
  | unexpected hstate =>
    have hc := hc hobserved.2.2
    have hnoted : (c.note (.fault .unexpectedPacket)).Final := ⟨⟨rfl, hc.final⟩, hc.forced, hc.closed⟩
    apply hnoted.moveTo
    · show c.state ≠ _
      simp [hstate]
    · exact fun _ => rfl
  | refused hstate =>
    have hreceived := (hc hobserved.2.2).calm (calm_received c)
    apply Final.moveTo
    · exact ⟨hreceived.final, hreceived.forced, hreceived.closed⟩
    · exact ne_disconnected_of_isOnline hstate
    · exact fun _ => rfl
  | accept hstate htype hcode =>
    obtain ⟨new, hnew⟩ := log_suffix_admitted c.received
    have hobserved : Trace.Always (fun r earlier => r.isObserved earlier) c.received.log := by
      have hadmitted := hobserved.2
      rw [← hnew] at hadmitted
      exact hadmitted.of_append
    have hnotForced : ¬ c.log.forced := of_decide_eq_true hobserved.1 ⟨htype, hcode⟩
    have hreceived := (hc hobserved.2).calm (calm_received c)
    have hadmitted : c.received.admitted.Final := hreceived.admitted hstate hnotForced
    exact ⟨⟨rfl, hadmitted.final⟩, hadmitted.forced, hadmitted.closed⟩

end MqttClient

namespace MqttClientAsync

open MqttClient

variable {cfg : Config} {env : AsyncEnv cfg}

/-! ### Runs -/

/-- The client when an action begins: two of them set the state. -/
def begin (c : MqttClient cfg) : Action → MqttClient cfg
  | .onConnectCb => c.setState .connectingTcp2
  | .onDisconnectCb => c.setState .disconnectingTcp2
  | _ => c

theorem begin_ready {c : MqttClient cfg} (h : c.Ready) (action : Action) : (begin c action).Ready := by
  cases action with
  | onConnectCb => exact ⟨h.sound, nofun⟩
  | onDisconnectCb => exact ⟨h.sound, nofun⟩
  | _ => exact h

theorem act_call {c : MqttClient cfg} {apiCall : ApiCall} (h : apiCall ≠ .connect) :
    act env c (.call apiCall) = c.call env.toEnv apiCall := by
  cases apiCall <;> first | rfl | exact absurd rfl h

/-- The rest of an action is nothing but moves. -/
theorem act_moves {c : MqttClient cfg} (h : c.Ready) (action : Action) :
    Moves env.toEnv (begin c action) (act env c action) := by
  have hbegin := begin_ready h action
  cases action with
  | call apiCall =>
    by_cases hconnect : apiCall = .connect
    · subst hconnect
      have hmoves : Moves env.toEnv c (c.connect env.toEnv).2 := (connect_steps c).moves
      exact hmoves.trans (loop_turns (hmoves.ready h)).moves
    · rw [act_call hconnect]
      exact (call_steps c apiCall).moves
  | onConnectCb => exact (loop_turns hbegin).moves
  | onDataCb => exact (loop_turns hbegin).moves
  | onDisconnectCb => exact (loop_turns hbegin).moves
  | onPollCb => exact (loop_turns hbegin).moves

theorem begin_final {c : MqttClient cfg} (hc : c.Final) {action : Action} (h : suits c action) :
    (begin c action).Final := by
  cases action with
  | onConnectCb =>
    obtain ⟨hforced, hstate⟩ := of_decide_eq_true h
    exact hc.moveTo hstate fun h => absurd h hforced
  | onDisconnectCb => exact hc.moveTo (of_decide_eq_true h) fun _ => rfl
  | _ => exact hc

theorem log_suffix_act {c : MqttClient cfg} (h : c.Ready) (action : Action) :
    c.log <:+ (act env c action).log := by
  have hbegin : c.log <:+ (begin c action).log := by
    cases action with
    | onConnectCb => exact List.suffix_cons _ _
    | onDisconnectCb => exact List.suffix_cons _ _
    | _ => exact List.suffix_rfl
  exact hbegin.trans (act_moves h action).log_suffix

theorem act_ready {c : MqttClient cfg} (h : c.Ready) (action : Action) : (act env c action).Ready :=
  (act_moves h action).ready (begin_ready h action)

theorem act_final {c : MqttClient cfg} (hready : c.Ready) (hc : c.Final) {action : Action}
    (hsuits : suits c action)
    (hobserved : Trace.Always (fun r earlier => r.isObserved earlier) (act env c action).log) :
    (act env c action).Final := by
  have hphases : Phases (begin c action) (act env c action) := (act_moves hready action).phases
  generalize act env c action = c' at hphases hobserved
  induction hphases with
  | refl => exact begin_final hc hsuits
  | tail _ h ih => exact h.final ih hobserved

theorem log_suffix_run {c : MqttClient cfg} (h : c.Ready) (actions : List Action) :
    c.log <:+ (run env c actions).log := by
  induction actions generalizing c with
  | nil => exact List.suffix_rfl
  | cons action actions ih => exact (log_suffix_act h action).trans (ih (act_ready h action))

/-- **A disconnect is final**, in every run in which the library's reports suit the state they find and no
CONNACK is accepted after a forced disconnect. -/
theorem run_final (env : AsyncEnv cfg) (generatedClientId : CString) (actions : List Action)
    (horderly : orderly env (new cfg generatedClientId) actions)
    (hobserved : Trace.Always (fun r earlier => r.isObserved earlier)
      (run env (new cfg generatedClientId) actions).log) :
    Trace.Always (fun r earlier => r.isFinal earlier) (run env (new cfg generatedClientId) actions).log := by
  have hrun : ∀ (actions : List Action) {c : MqttClient cfg}, c.Ready → c.Final → orderly env c actions →
      Trace.Always (fun r earlier => r.isObserved earlier) (run env c actions).log →
      (run env c actions).Final := by
    intro actions
    induction actions with
    | nil => exact fun _ hc _ _ => hc
    | cons action actions ih =>
      intro c hready hc horderly hobserved
      obtain ⟨hsuits, horderly⟩ := of_decide_eq_true horderly
      have hact : (act env c action).Ready := act_ready hready action
      refine ih hact (act_final hready hc hsuits ?_) horderly hobserved
      obtain ⟨new, hnew⟩ : (act env c action).log <:+ (run env c (action :: actions)).log :=
        log_suffix_run hact actions
      rw [← hnew] at hobserved
      exact hobserved.of_append
  exact (hrun actions (new_ready generatedClientId) ⟨trivial, nofun, nofun⟩ horderly hobserved).final

/-- A connection that takes its time. -/
def slowScript : Script where
  pending := [2, 3]

def slowEnv : AsyncEnv .linux where
  toEnv := slowScript.env .linux
  not_connect _ _ h := absurd h List.not_mem_nil

theorem run_final_slow : Trace.Always (fun r earlier => r.isFinal earlier)
    (run slowEnv (new .linux ⟨[0x63], by decide⟩)
      [.call .connect, .onConnectCb, .call (.disconnect true), .onPollCb, .onDisconnectCb]).log := by
  apply run_final
  · decide +kernel
  · decide +kernel

/-- The connection is made after the user has broken it off: the client goes on with it. -/
theorem not_final_slow : ¬ Trace.Always (fun r earlier => r.isFinal earlier)
    (run slowEnv (new .linux ⟨[0x63], by decide⟩)
      [.call .connect, .call (.disconnect true), .onConnectCb]).log := by
  decide +kernel

end MqttClientAsync

end EspMqttClient
