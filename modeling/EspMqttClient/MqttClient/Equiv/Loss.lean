/-
  What a client does when its connection is gone.

  In three of the four states in which a client counts on its connection `loop` asks the transport, and one
  call of it is enough to go (`state_loop_of_gone`).  In `disconnectingMqtt1` it does not ask, and only the
  keepalive time can end the wait (`state_loopDisconnectingMqtt1_of_gone`).  A client that has gone does not
  count on the connection again (`isMqtt_loops`).
-/
import EspMqttClient.MqttClient.Equiv.Incoming
import EspMqttClient.MqttClient.Equiv.Queued

namespace EspMqttClient

namespace MqttClient

variable {cfg : Config} {env : Env cfg}

/-! ### Lost connections -/

/-- Does a client in this state count on its connection? -/
def isMqtt : State → Bool
  | .connectingMqtt | .connected | .disconnectingMqtt1 | .disconnectingMqtt2 => true
  | _ => false

/-- At all questions from one number to before another the connection is gone: the transport says so,
delivers no bytes and accepts none. -/
structure Gone (env : Env cfg) (first last : ℕ) : Prop where
  connected : ∀ tick, first ≤ tick → tick < last → env.connected tick = false
  read : ∀ tick, first ≤ tick → tick < last → env.read tick = []
  write : ∀ tick, first ≤ tick → tick < last → ∀ size, env.write tick size ≤ 0

theorem Gone.mono {first first' last last' : ℕ} (h : Gone env first last) (hfirst : first ≤ first')
    (hlast : last' ≤ last) : Gone env first' last' where
  connected tick h1 h2 := h.connected tick (hfirst.trans h1) (h2.trans_le hlast)
  read tick h1 h2 := h.read tick (hfirst.trans h1) (h2.trans_le hlast)
  write tick h1 h2 := h.write tick (hfirst.trans h1) (h2.trans_le hlast)

/-- Is keepalive on, and was nothing heard of the server for more than twice that time? -/
def ServerInactive (c : MqttClient cfg) (now : UInt32) : Prop :=
  c.settings.keepAlive ≠ 0 ∧ now - c.lastServerActivity > 2 * c.settings.keepAlive

instance (c : MqttClient cfg) (now : UInt32) : Decidable (c.ServerInactive now) :=
  inferInstanceAs (Decidable (_ ∧ _))

/-- A number of calls of `loop`. -/
def loops (env : Env cfg) (c : MqttClient cfg) (n : ℕ) : MqttClient cfg := c.run env (List.replicate n .loop)

theorem loops_succ (c : MqttClient cfg) (n : ℕ) : c.loops env (n + 1) = (c.loops env n).loop env := by
  rw [loops, run, List.replicate_succ', List.foldl_append]
  rfl

/-! ### The questions -/

theorem tick_le_sendPacket (env : Env cfg) (c : MqttClient cfg) : c.tick ≤ (c.sendPacket env).2.tick := by
  rcases sendPacket_cases env c with ⟨-, h⟩ | ⟨_, _, _, _, -, -, ⟨-, h⟩ | ⟨-, _, _, h⟩⟩
  · rw [h]
  · rw [h]
    exact Nat.le_succ _
  · rw [h]
    exact Nat.le_add_right _ 4

@[simp] theorem tick_farewell (c : MqttClient cfg) (packet : Packet) : (c.farewell packet).tick = c.tick := by
  rw [farewell]
  split_ifs <;> rfl

@[simp] theorem tick_advanceOutbox (c : MqttClient cfg) : c.advanceOutbox.2.tick = c.tick := by
  rcases advanceOutbox_cases c with ⟨h, -⟩ | ⟨item, -, -, h⟩ <;> rw [h]
  exact tick_farewell c item.packet

theorem tick_le_checkOutboxLoop (env : Env cfg) (fuel : ℕ) (c : MqttClient cfg) :
    c.tick ≤ (c.checkOutboxLoop env fuel).tick := by
  induction fuel generalizing c with
  | zero => exact le_rfl
  | succ fuel ih =>
    have hsend := tick_le_sendPacket env c
    have hadvance := tick_advanceOutbox (c.sendPacket env).2
    rw [checkOutboxLoop]
    dsimp only
    split_ifs
    · exact (hsend.trans hadvance.ge).trans (ih _)
    · exact hsend.trans hadvance.ge
    · exact hsend

theorem tick_admitted (c : MqttClient cfg) : c.admitted.tick = c.tick := by
  rw [admitted]
  split_ifs
  · exact tick_advanceOutbox c.connectedNow
  · exact tick_advanceOutbox c.connectedNow

/-- Questions are not taken back. -/
theorem Flow.tick_le {c c' : MqttClient cfg} (h : Flow env c c') : c.tick ≤ c'.tick := by
  cases h with
  | keep h => exact h.tick
  | connect | request | answer | addDisconnect => exact Nat.le_succ _
  | sendConnect => exact tick_le_sendPacket env c
  | sendRound =>
    rw [MqttClient.sendRound]
    split_ifs
    · exact (tick_le_sendPacket env c).trans (tick_advanceOutbox _).ge
    · exact tick_le_sendPacket env c
  | accept => exact (tick_admitted c).ge
  | _ => exact le_rfl

theorem Flows.tick_le {c c' : MqttClient cfg} (h : Flows env c c') : c.tick ≤ c'.tick := by
  induction h with
  | refl => exact le_rfl
  | tail _ hflow ih => exact ih.trans hflow.tick_le

theorem Moves.tick_le {c c' : MqttClient cfg} (h : Moves env c c') : c.tick ≤ c'.tick := by
  induction h with
  | refl => exact le_rfl
  | tail _ hmove ih => exact ih.trans (Flows.tick_le hmove.flows)

theorem Turns.tick_le {c c' : MqttClient cfg} (h : Turns env c c') : c.tick ≤ c'.tick := h.moves.tick_le

theorem tick_lt_checkIncoming (env : Env cfg) {c : MqttClient cfg} (h : c.Live False) (hheard : c.Heard) :
    c.tick < (c.checkIncoming env).tick := by
  rw [checkIncoming]
  dsimp only
  split_ifs
  · exact Nat.lt_succ_self _
  · have hlive : { (c.note (.read (env.read c.tick))).asked with
        lastServerActivity := (c.note (.read (env.read c.tick))).asked.millis env }.asked.Live False :=
      ⟨h.online, h.sound, False.elim⟩
    have hle := (checkIncomingLoop_moves env (env.read c.tick).length (env.read c.tick) hlive hheard).1.tick_le
    exact (Nat.lt_add_of_pos_right (Nat.succ_pos 1)).trans_le hle

/-! ### One call of `loop` -/

/-- A transport that accepts nothing is asked once. -/
theorem checkOutbox_of_refused {c : MqttClient cfg}
    (h : c.tick + 1 < (c.checkOutbox env).tick → ∀ size, env.write (c.tick + 1) size ≤ 0) :
    c.checkOutbox env = (c.sendPacket env).2 := by
  have hstop : ¬ 0 < (c.sendPacket env).1 := by
    intro hpos
    -- an accepted byte would let `_checkOutbox` go on, so the question would lie inside the call
    rcases sendPacket_cases env c with ⟨-, hsend⟩ | ⟨_, _, available, _, -, -, ⟨-, hsend⟩ | ⟨-, _, _, hsend⟩⟩
    · simp [hsend] at hpos
    · simp [hsend] at hpos
    have hle : (c.sendPacket env).2.tick ≤ (c.checkOutbox env).tick := by
      rw [checkOutbox, checkOutboxLoop]
      dsimp only
      rw [if_pos hpos]
      split_ifs
      · exact (tick_advanceOutbox _).ge.trans (tick_le_checkOutboxLoop env _ _)
      · exact (tick_advanceOutbox _).ge
    rw [hsend] at hle hpos
    dsimp only at hle hpos
    have htick : c.tick + 4 ≤ (c.checkOutbox env).tick := hle
    have hrefused := h (by omega) available
    have hresult : ((env.write (c.tick + 1) available % cfg.sizeMod).toNat : ℤ).bmod (2 ^ 32) ≤ 0 :=
      bmod_of_refused (env.le_write _ _) hrefused
    omega
  rw [checkOutbox, checkOutboxLoop]
  dsimp only
  rw [if_neg hstop]

/-- `loop` in `disconnectingMqtt1` before its checks. -/
def dueDisconnect (env : Env cfg) (c : MqttClient cfg) : MqttClient cfg :=
  if c.outbox.items = [] then
    match c.addPacket env fun alloc => Packet.control cfg alloc PacketType.DISCONNECT with
    | (true, c) => c.setState .disconnectingMqtt2
    | (false, c) => c.note (.onError 0 .OUT_OF_MEMORY)
  else c

/-- `loop` in `disconnectingMqtt1` up to `_checkPing`. -/
def beforePing (env : Env cfg) (c : MqttClient cfg) : MqttClient cfg :=
  ((c.dueDisconnect env).checkOutbox env).checkIncoming env

theorem loopDisconnectingMqtt1_eq (c : MqttClient cfg) :
    c.loopDisconnectingMqtt1 env = ((c.beforePing env).checkPing env).checkTimeout env := rfl

/-- The settings and what the keepalive timer knows of the server are the same. -/
structure SameServer (c c' : MqttClient cfg) : Prop where
  settings : c'.settings = c.settings
  lastServerActivity : c'.lastServerActivity = c.lastServerActivity

theorem SameServer.inactive_iff {c c' : MqttClient cfg} (h : SameServer c c') (now : UInt32) :
    c'.ServerInactive now ↔ c.ServerInactive now := by
  rw [ServerInactive, ServerInactive, h.settings, h.lastServerActivity]

/-- A DISCONNECT is queued, or there is no memory for it, or the queue is not empty. -/
theorem dueDisconnect_cases (env : Env cfg) (c : MqttClient cfg) :
    (c.outbox.items = [] ∧ ∃ packet,
      Builds (fun alloc => Packet.control cfg alloc PacketType.DISCONNECT) packet ∧
        c.dueDisconnect env = (c.push packet).asked.setState .disconnectingMqtt2) ∨
    (c.outbox.items = [] ∧ c.dueDisconnect env = c.asked.note (.onError 0 .OUT_OF_MEMORY)) ∨
    (c.outbox.items ≠ [] ∧ c.dueDisconnect env = c) := by
  rw [dueDisconnect]
  split_ifs with hempty
  · rcases addPacket_cases env c fun alloc => Packet.control cfg alloc PacketType.DISCONNECT with
      ⟨packet, hbuild, hadd⟩ | ⟨-, hadd⟩
    · exact .inl ⟨hempty, packet, ⟨_, hbuild⟩, by rw [hadd]⟩
    · exact .inr (.inl ⟨hempty, by rw [hadd]⟩)
  · exact .inr (.inr ⟨hempty, rfl⟩)

theorem sameServer_dueDisconnect (env : Env cfg) (c : MqttClient cfg) : SameServer c (c.dueDisconnect env) := by
  rcases dueDisconnect_cases env c with ⟨-, _, -, h⟩ | ⟨-, h⟩ | ⟨-, h⟩ <;> rw [h] <;> exact ⟨rfl, rfl⟩

theorem tick_le_dueDisconnect (env : Env cfg) (c : MqttClient cfg) : c.tick ≤ (c.dueDisconnect env).tick := by
  rcases dueDisconnect_cases env c with ⟨-, _, -, h⟩ | ⟨-, h⟩ | ⟨-, h⟩ <;> rw [h]
  · exact Nat.le_succ _
  · exact Nat.le_succ _

theorem state_dueDisconnect (env : Env cfg) {c : MqttClient cfg} (hstate : c.state = .disconnectingMqtt1) :
    (c.dueDisconnect env).state = .disconnectingMqtt1 ∨ (c.dueDisconnect env).state = .disconnectingMqtt2 := by
  rcases dueDisconnect_cases env c with ⟨-, _, -, h⟩ | ⟨-, h⟩ | ⟨-, h⟩ <;> rw [h]
  · exact .inr rfl
  · exact .inl hstate
  · exact .inl hstate

theorem dueDisconnect_live {greeted : Prop} {c : MqttClient cfg} (h : c.Live greeted) :
    (c.dueDisconnect env).Live greeted := by
  rcases dueDisconnect_cases env c with ⟨-, _, -, hdue⟩ | ⟨-, hdue⟩ | ⟨-, hdue⟩ <;> rw [hdue]
  · exact h.moveTo rfl rfl id
  · exact h.request rfl rfl id
  · exact h

theorem sameServer_sendPacket (env : Env cfg) (c : MqttClient cfg) : SameServer c (c.sendPacket env).2 := by
  rcases sendPacket_cases env c with ⟨-, h⟩ | ⟨_, _, _, _, -, -, ⟨-, h⟩ | ⟨-, _, _, h⟩⟩ <;> rw [h] <;>
    exact ⟨rfl, rfl⟩

theorem checkIncoming_of_nil {c : MqttClient cfg} (h : env.read c.tick = []) :
    c.checkIncoming env = (c.note (.read [])).asked := by
  rw [checkIncoming]
  dsimp only
  rw [if_pos h, h]

theorem state_checkPing (env : Env cfg) (c : MqttClient cfg) : (c.checkPing env).state =
    if c.ServerInactive (c.millis env) then .disconnectingTcp1 else c.state := by
  rw [checkPing]
  dsimp only
  by_cases hzero : c.settings.keepAlive = 0
  · have hactive : ¬ c.ServerInactive (c.millis env) := fun h => h.1 hzero
    rw [if_pos hzero, if_neg hactive]
  rw [if_neg hzero]
  by_cases hlong : c.millis env - c.asked.lastServerActivity > 2 * c.settings.keepAlive
  · rw [if_pos hlong, if_pos ⟨hzero, hlong⟩]
    rfl
  have hactive : ¬ c.ServerInactive (c.millis env) := fun h => hlong h.2
  rw [if_neg hlong, if_neg hactive]
  -- a PINGREQ that is due changes the queue, but not the state
  split_ifs
  · rcases addPacket_cases env c.asked fun alloc =>
      Packet.control cfg alloc PacketType.PINGREQ with ⟨_, -, hadd⟩ | ⟨-, hadd⟩
    · simp only [hadd]
      rfl
    · simp only [hadd]
      rfl
  · rfl

@[simp] theorem state_checkTimeout (c : MqttClient cfg) : (c.checkTimeout env).state = c.state := by
  rw [checkTimeout]
  split
  · rfl
  · dsimp only
    split_ifs <;> rfl

/-- The checks of a client whose connection is gone, up to `_checkPing`. -/
theorem beforePing_of_gone {c : MqttClient cfg} (hready : c.Ready) (hstate : c.state = .disconnectingMqtt1)
    (hgone : Gone env c.tick (c.loopDisconnectingMqtt1 env).tick) :
    c.beforePing env = (((c.dueDisconnect env).sendPacket env).2.note (.read [])).asked := by
  have hlive : (c.dueDisconnect env).Live (cfg.waitForConnack = true) :=
    dueDisconnect_live (hready.live (by rw [hstate]; rfl))
  have hopen : (c.dueDisconnect env).state ≠ .disconnectingTcp1 := by
    rcases state_dueDisconnect env hstate with h | h <;> rw [h] <;> decide
  obtain ⟨hsteps, hlive1⟩ := checkOutbox_steps env hlive hopen
  have hheard : ((c.dueDisconnect env).checkOutbox env).Heard := fun hwait => .inr (hlive1.greeted hwait)
  have hlive2 := (checkIncoming_moves env hlive1 hheard).2
  obtain ⟨hping, hlive3⟩ := checkPing_steps env hlive2
  -- the transport is written to and read from during the call
  have hdue := tick_le_dueDisconnect env c
  have hsent := hsteps.moves.tick_le
  have hread := tick_lt_checkIncoming env hlive1.weaken hheard
  have hend : (c.beforePing env).tick ≤ (c.loopDisconnectingMqtt1 env).tick := by
    rw [loopDisconnectingMqtt1_eq]
    exact hping.moves.tick_le.trans (checkTimeout_steps hlive3).moves.tick_le
  have hlast : ((c.dueDisconnect env).checkOutbox env).tick < (c.loopDisconnectingMqtt1 env).tick :=
    hread.trans_le hend
  have hcheck : (c.dueDisconnect env).checkOutbox env = ((c.dueDisconnect env).sendPacket env).2 :=
    checkOutbox_of_refused fun hlt => hgone.write _ (hdue.trans (Nat.le_succ _)) (hlt.trans hlast)
  rw [beforePing, checkIncoming_of_nil (hgone.read _ (hdue.trans hsent) hlast), hcheck]

/-- **In `disconnectingMqtt1`** only the keepalive time ends the wait. -/
theorem state_loopDisconnectingMqtt1_of_gone {c : MqttClient cfg} (hready : c.Ready)
    (hstate : c.state = .disconnectingMqtt1) (hgone : Gone env c.tick (c.loopDisconnectingMqtt1 env).tick) :
    (c.loopDisconnectingMqtt1 env).state =
      if c.ServerInactive ((c.beforePing env).millis env) then .disconnectingTcp1
      else (c.dueDisconnect env).state := by
  have hbefore := beforePing_of_gone hready hstate hgone
  have hserver : SameServer (c.dueDisconnect env) (c.beforePing env) := by
    rw [hbefore]
    exact ⟨(sameServer_sendPacket env _).settings, (sameServer_sendPacket env _).lastServerActivity⟩
  have hsame : (c.beforePing env).state = (c.dueDisconnect env).state := by
    rw [hbefore]
    exact state_sendPacket _
  rw [loopDisconnectingMqtt1_eq, state_checkTimeout, state_checkPing, hsame]
  simp only [hserver.inactive_iff, (sameServer_dueDisconnect env c).inactive_iff]

/-- Where `loop` looks at the transport it goes at once. -/
theorem state_loopConnected_of_gone {c : MqttClient cfg} (hlive : c.Live (cfg.waitForConnack = true))
    (hopen : c.state ≠ .disconnectingTcp1) (hgone : Gone env c.tick (c.loopConnected env).tick) :
    (c.loopConnected env).state = .disconnectingTcp1 := by
  rw [loopConnected] at hgone ⊢
  split_ifs at hgone ⊢ with hconnected
  · -- the transport is asked first, and it says no
    have hchecks : Turns env c.asked _ := checks_turns (hlive.request rfl rfl id) hopen
    rw [hgone.connected _ le_rfl hchecks.tick_le] at hconnected
    cases hconnected
  · rfl

theorem state_loopConnectingMqtt_of_gone {c : MqttClient cfg} (hsound : c.parser.Sound)
    (hstate : c.state = .connectingMqtt) (hgone : Gone env c.tick (c.loopConnectingMqtt env).tick) :
    (c.loopConnectingMqtt env).state = .disconnectingTcp1 := by
  have honline : c.state.isOnline := by rw [hstate]; rfl
  rw [loopConnectingMqtt] at hgone ⊢
  split_ifs at hgone ⊢ with hwait hconnected
  · have hlive : (c.asked.sendPacket env).2.Live False :=
      sendPacket_live env (c := c.asked) ⟨honline, hsound, False.elim⟩
    have hheard : (c.asked.sendPacket env).2.Heard := fun _ => .inl ((state_sendPacket c.asked).trans hstate)
    obtain ⟨hmoves, hlive'⟩ := checkIncoming_moves env hlive hheard
    have hlast := ((tick_le_sendPacket env c.asked).trans hmoves.tick_le).trans
      (checkPing_steps env hlive').1.moves.tick_le
    rw [hgone.connected _ le_rfl hlast] at hconnected
    cases hconnected
  · rfl
  · exact state_loopConnected_of_gone ⟨honline, hsound, fun h => absurd h hwait⟩ (by rw [hstate]; decide) hgone

/-- **One call of `loop`** of a client whose connection is gone. -/
theorem state_loop_of_gone {c : MqttClient cfg} (hready : c.Ready) (hstate : isMqtt c.state)
    (hgone : Gone env c.tick (c.loop env).tick) : (c.loop env).state =
      if c.state ≠ .disconnectingMqtt1 ∨ c.ServerInactive ((c.beforePing env).millis env) then .disconnectingTcp1
      else (c.dueDisconnect env).state := by
  rw [loop] at hgone ⊢
  cases h : c.state <;> rw [h] at hstate <;> try cases hstate
  all_goals simp only [h] at hgone ⊢
  case connectingMqtt => simpa using state_loopConnectingMqtt_of_gone hready.sound h hgone
  case connected =>
    simpa using state_loopConnected_of_gone (hready.live (by rw [h]; rfl)) (by rw [h]; decide) hgone
  case disconnectingMqtt1 => simpa using state_loopDisconnectingMqtt1_of_gone hready h hgone
  case disconnectingMqtt2 =>
    simpa using state_loopConnected_of_gone (hready.live (by rw [h]; rfl)) (by rw [h]; decide) hgone

/-- A client goes at once unless it is in `disconnectingMqtt1` and its server is not inactive. -/
theorem loop_gone_iff {c : MqttClient cfg} (hready : c.Ready) (hstate : isMqtt c.state)
    (hgone : Gone env c.tick (c.loop env).tick) : (c.loop env).state = .disconnectingTcp1 ↔
      c.state ≠ .disconnectingMqtt1 ∨ c.ServerInactive ((c.beforePing env).millis env) := by
  rw [state_loop_of_gone hready hstate hgone]
  split_ifs with hgoes
  · exact iff_of_true rfl hgoes
  · obtain ⟨hmqtt1, -⟩ := not_or.mp hgoes
    refine iff_of_false ?_ hgoes
    rcases state_dueDisconnect env (not_not.mp hmqtt1) with h | h <;> rw [h] <;> decide

/-! ### Many calls -/

/-- Nothing a user calls brings a connection about at once. -/
theorem isMqtt_call (env : Env cfg) {c : MqttClient cfg} (h : isMqtt c.state = false) (apiCall : ApiCall) :
    isMqtt (c.call env apiCall).state = false := by
  by_cases hdisconnect : ∃ force, apiCall = .disconnect force
  · obtain ⟨force, rfl⟩ := hdisconnect
    rw [call, disconnect]
    split_ifs with hforce hgentle
    · rfl
    · rw [hgentle.2] at h
      cases h
    · exact h
  by_cases hconnect : apiCall = .connect ∧ c.state = .disconnected
  · obtain ⟨rfl, hstate⟩ := hconnect
    rw [call, connect, if_pos hstate]
    dsimp only
    rw [addPacketFront]
    dsimp only
    split_ifs
    · rfl
    · exact h
    · exact h
  · -- no other call sets the state
    rw [state_call (fun heq hstate => hconnect ⟨heq, hstate⟩) (fun force heq => hdisconnect ⟨force, heq⟩)]
    exact h

theorem isMqtt_callback (env : Env cfg) {c : MqttClient cfg} (h : isMqtt c.state = false) (callback : Callback)
    (event : Event) : isMqtt (c.callback env callback event).state = false := by
  have hcalls : ∀ (apiCalls : List ApiCall) {c : MqttClient cfg}, isMqtt c.state = false →
      isMqtt (apiCalls.foldl (fun c apiCall => c.call env apiCall) c).state = false := by
    intro apiCalls
    induction apiCalls with
    | nil => exact id
    | cons apiCall apiCalls ih => exact fun h => ih (isMqtt_call env h apiCall)
  rw [MqttClient.callback]
  split_ifs
  · exact hcalls _ h
  · exact h

theorem isMqtt_loopConnectingTcp2 {c : MqttClient cfg} (hstate : isMqtt c.state = false)
    (hgone : Gone env c.tick (c.loopConnectingTcp2 env).tick) :
    isMqtt (c.loopConnectingTcp2 env).state = false := by
  rw [loopConnectingTcp2] at hgone ⊢
  split_ifs at hgone ⊢ with hconnected
  · rw [hgone.connected _ le_rfl (Nat.lt_succ_of_le (Nat.le_succ _))] at hconnected
    cases hconnected
  · dsimp only
    split_ifs
    · rfl
    · exact hstate

theorem isMqtt_loop {c : MqttClient cfg} (hstate : isMqtt c.state = false)
    (hgone : Gone env c.tick (c.loop env).tick) : isMqtt (c.loop env).state = false := by
  rw [loop] at hgone ⊢
  cases h : c.state <;> rw [h] at hstate <;> try cases hstate
  all_goals simp only [h] at hgone ⊢
  case disconnected => rfl
  case connectingTcp1 =>
    rw [loopConnectingTcp1] at hgone ⊢
    split_ifs at hgone ⊢
    · exact isMqtt_loopConnectingTcp2 rfl (hgone.mono (Nat.le_succ _) le_rfl)
    · rfl
  case connectingTcp2 => exact isMqtt_loopConnectingTcp2 (by rw [h]; rfl) hgone
  case disconnectingTcp1 => rfl
  case disconnectingTcp2 =>
    rw [loopDisconnectingTcp2]
    split_ifs
    · -- a user may call `connect` in the callback
      exact isMqtt_callback env rfl _ _
    · rw [show c.asked.state = c.state from rfl, h]
      rfl

theorem Ready.loops {c : MqttClient cfg} (h : c.Ready) (n : ℕ) : (c.loops env n).Ready := (run_moves _ h).ready h

/-- What one call of `loop` keeps while the connection is gone a number of calls keep. -/
theorem loops_keep {p : MqttClient cfg → Prop}
    (hloop : ∀ {c : MqttClient cfg}, c.Ready → Gone env c.tick (c.loop env).tick → p c → p (c.loop env))
    {c : MqttClient cfg} (hready : c.Ready) (hp : p c) (n : ℕ) (hgone : Gone env c.tick (c.loops env n).tick) :
    p (c.loops env n) := by
  induction n with
  | zero => exact hp
  | succ n ih =>
    rw [loops_succ] at hgone ⊢
    have hbegin : c.tick ≤ (c.loops env n).tick := (run_moves _ hready).tick_le
    have hend : (c.loops env n).tick ≤ ((c.loops env n).loop env).tick := (loop_turns (hready.loops n)).tick_le
    exact hloop (hready.loops n) (hgone.mono hbegin le_rfl) (ih (hgone.mono le_rfl hend))

/-- A client that does not count on a connection does not begin to while there is none. -/
theorem isMqtt_loops {c : MqttClient cfg} (hready : c.Ready) (hstate : isMqtt c.state = false) (n : ℕ)
    (hgone : Gone env c.tick (c.loops env n).tick) : isMqtt (c.loops env n).state = false :=
  loops_keep (p := fun c => isMqtt c.state = false)
    (fun _ hgone hstate => isMqtt_loop hstate hgone) hready hstate n
    hgone

theorem loops_succ' (c : MqttClient cfg) (n : ℕ) : c.loops env (n + 1) = (c.loop env).loops env n := rfl

/-- One call of `loop` is enough for a client to go, and as long as the connection is gone it does not count on
it again. -/
def Notices (env : Env cfg) (c : MqttClient cfg) : Prop :=
  (c.loop env).state = .disconnectingTcp1 ∧
    ∀ n, Gone env c.tick (c.loops env (n + 1)).tick → isMqtt (c.loops env (n + 1)).state = false

theorem Ready.loop {c : MqttClient cfg} (h : c.Ready) : (c.loop env).Ready := (loop_turns h).moves.ready h

/-- **A lost connection** is noticed at once, except in `disconnectingMqtt1` while the server is not
inactive. -/
theorem notices_iff (env : Env cfg) (generatedClientId : CString) (actions : List Action) {c : MqttClient cfg}
    (hrun : (new cfg generatedClientId).run env actions = c) (hstate : isMqtt c.state)
    (hgone : Gone env c.tick (c.loop env).tick) {now : UInt32} (hnow : (c.beforePing env).millis env = now) :
    c.Notices env ↔ c.state ≠ .disconnectingMqtt1 ∨ c.ServerInactive now := by
  have hready : c.Ready := hrun ▸ (run_moves actions (new_ready _)).ready (new_ready _)
  have hloop := loop_gone_iff hready hstate hgone
  rw [hnow] at hloop
  refine ⟨fun h => hloop.mp h.1, fun h => ⟨hloop.mpr h, fun n hgone' => ?_⟩⟩
  rw [loops_succ'] at hgone' ⊢
  refine isMqtt_loops hready.loop ?_ n (hgone'.mono (loop_turns hready).tick_le le_rfl)
  rw [hloop.mpr h]
  rfl

/-! ### Waiting for ever -/

/-- A clean disconnect without keepalive, with packets that are to be acknowledged. -/
structure Waits (c : MqttClient cfg) : Prop where
  state : c.state = .disconnectingMqtt1
  outbox : c.outbox.items ≠ []
  keepAlive : c.settings.keepAlive = 0

theorem items_sendPacket_ne_nil {c : MqttClient cfg} (h : c.outbox.items ≠ []) :
    (c.sendPacket env).2.outbox.items ≠ [] := by
  rcases sendPacket_cases env c with ⟨-, hsend⟩ | ⟨_, _, _, _, -, -,
    ⟨-, hsend⟩ | ⟨-, _, _, hsend⟩⟩ <;> rw [hsend]
  · exact h
  · simp [readAhead, asked, CursorList.items]
  · simp [wrote, CursorList.items]

theorem Waits.checkTimeout {c : MqttClient cfg} (hc : c.Waits) : (c.checkTimeout env).Waits := by
  rw [MqttClient.checkTimeout]
  split
  · exact hc
  · dsimp only
    split_ifs
    · exact ⟨hc.state, hc.outbox, hc.keepAlive⟩
    · exact ⟨hc.state, hc.outbox, hc.keepAlive⟩
    · exact hc

theorem Waits.loop {c : MqttClient cfg} (hc : c.Waits) (hready : c.Ready)
    (hgone : Gone env c.tick (c.loop env).tick) : (c.loop env).Waits := by
  have heq : c.loop env = c.loopDisconnectingMqtt1 env := by rw [MqttClient.loop, hc.state]
  rw [heq] at hgone ⊢
  have hbefore := beforePing_of_gone hready hc.state hgone
  rw [show c.dueDisconnect env = c from if_neg hc.outbox] at hbefore
  have hwaits : (c.beforePing env).Waits := by
    rw [hbefore]
    exact ⟨(state_sendPacket c).trans hc.state, items_sendPacket_ne_nil hc.outbox,
      (sameServer_sendPacket env c).settings ▸ hc.keepAlive⟩
  have hping : (c.beforePing env).checkPing env = c.beforePing env := by
    rw [checkPing]
    exact if_pos hwaits.keepAlive
  rw [loopDisconnectingMqtt1_eq, hping]
  exact hwaits.checkTimeout

/-- Such a client does not notice that its connection is gone. -/
theorem Waits.loops {c : MqttClient cfg} (hc : c.Waits) (hready : c.Ready) (n : ℕ)
    (hgone : Gone env c.tick (c.loops env n).tick) : (c.loops env n).Waits :=
  loops_keep (fun hready hgone hc => hc.loop hready hgone) hready hc n hgone

/-- A connection that is lost at a question. -/
def lostAt (env : Env cfg) (last : ℕ) : Env cfg where
  connect := env.connect
  connected tick := tick < last ∧ env.connected tick
  disconnected := env.disconnected
  write tick size := if tick < last then env.write tick size else -1
  read tick := if tick < last then env.read tick else []
  millis := env.millis
  alloc := env.alloc
  callback := env.callback
  le_write tick size := by
    split_ifs
    · exact env.le_write tick size
    · exact le_rfl
  write_le tick size := by
    split_ifs
    · exact env.write_le tick size
    · omega
  length_read_le tick := by
    split_ifs
    · exact env.length_read_le tick
    · exact Nat.zero_le _

theorem gone_lostAt (env : Env cfg) {last first : ℕ} (h : last ≤ first) (last' : ℕ) :
    Gone (lostAt env last) first last' where
  connected tick hfirst _ := by simp [lostAt, (h.trans hfirst).not_gt]
  read tick hfirst _ := by simp [lostAt, (h.trans hfirst).not_gt]
  write tick hfirst _ size := by simp [lostAt, (h.trans hfirst).not_gt]

/-- A CONNACK comes in, and later the connection is lost. -/
def lossEnv : Env .linux := lostAt (Script.env .linux { read := [(9, [0x20, 0x02, 0x00, 0x00])] }) 19

/-- Keepalive is off, a message of quality 1 is sent, and the user disconnects before it is acknowledged. -/
def lossActions : List Action :=
  [.call (.set (.keepAlive 0)), .call .connect, .loop, .loop,
    .call (.publish ⟨[0x6b], by decide⟩ 1 false [0x62]), .loop, .call (.disconnect false)]

/-- The client at the moment the connection is lost. -/
def lossRun : MqttClient .linux := (new .linux ⟨[0x6b], by decide⟩).run lossEnv lossActions

theorem lossRun_gone (last : ℕ) : Gone lossEnv lossRun.tick last := gone_lostAt _ (by decide +kernel) last

theorem lossRun_ready : lossRun.Ready := (run_moves lossActions (new_ready _)).ready (new_ready _)

theorem notices_iff_lossRun : lossRun.Notices lossEnv ↔
    lossRun.state ≠ .disconnectingMqtt1 ∨ lossRun.ServerInactive 0 :=
  notices_iff lossEnv ⟨[0x6b], by decide⟩ lossActions rfl (by decide +kernel) (lossRun_gone _)
    (by decide +kernel)

/-- The connection is not noticed to be gone, after no number of calls of `loop`. -/
theorem not_notices_lossRun : (¬ ∀ (actions : List Action) {c : MqttClient .linux},
    (new .linux ⟨[0x6b], by decide⟩).run lossEnv actions = c → isMqtt c.state →
      (∀ last, Gone lossEnv c.tick last) → c.Notices lossEnv) ∧
    ∀ n, (lossRun.loops lossEnv n).state = .disconnectingMqtt1 := by
  have hwaits : lossRun.Waits := ⟨by decide +kernel, by decide +kernel, by decide +kernel⟩
  have hstate : ∀ n, (lossRun.loops lossEnv n).state = .disconnectingMqtt1 := fun n =>
    (hwaits.loops lossRun_ready n (lossRun_gone _)).state
  refine ⟨fun h => ?_, hstate⟩
  have hnotices := h lossActions rfl (by decide +kernel) lossRun_gone
  have hgoes : (lossRun.loops lossEnv 1).state = .disconnectingTcp1 := hnotices.1
  rw [hstate 1] at hgoes
  cases hgoes

end MqttClient

end EspMqttClient
