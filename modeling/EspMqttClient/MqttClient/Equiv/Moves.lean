/-
  A run is nothing but turns, and turns are nothing but moves.

  A `Turn` is a step, the transport's being told to connect, or a call of `_checkIncoming`.  A `Move` is
  the same, but for `_checkIncoming` there are two of them: a buffer is read, the parser consumes a part of
  it.  Every run is a sequence of turns (`run_turns`) and of moves (`run_moves`), so an invariant is shown for
  each move once and holds in every run (`run_invariant`).
-/
import EspMqttClient.MqttClient.Equiv.Steps

namespace EspMqttClient

namespace MqttClient

variable {cfg : Config} (env : Env cfg)

inductive Turn : MqttClient cfg → MqttClient cfg → Prop
  | step {c c'} (h : Step env c c') : Turn c c'
  | transportConnect {c} (success : Bool) (hstate : c.state = .connectingTcp1) :
      Turn c (c.note (.transportConnect success))
  | checkIncoming {c} (hlive : c.Live False) (hheard : c.Heard) : Turn c (c.checkIncoming env)

/-- Any number of turns. -/
abbrev Turns : MqttClient cfg → MqttClient cfg → Prop := Relation.ReflTransGen (Turn env)

inductive Move : MqttClient cfg → MqttClient cfg → Prop
  | step {c c'} (h : Step env c c') : Move c c'
  | transportConnect {c} (success : Bool) (hstate : c.state = .connectingTcp1) :
      Move c (c.note (.transportConnect success))
  | read {c} (bytes : List Byte) (hstate : c.state.isOnline) : Move c (c.note (.read bytes))
  | parsed {c} (parser : Parser cfg) (bytes : List Byte) (hstate : c.state.isOnline)
      (hsound : parser.Sound) : Move c ({ c with parser }.note (.parsed bytes))

/-- Any number of moves. -/
abbrev Moves : MqttClient cfg → MqttClient cfg → Prop := Relation.ReflTransGen (Move env)

variable {env} {greeted : Prop}

theorem Steps.moves {c c' : MqttClient cfg} (h : Steps env c c') : Moves env c c' :=
  h.lift id fun _ _ hstep => .step hstep

theorem Steps.turns {c c' : MqttClient cfg} (h : Steps env c c') : Turns env c c' :=
  h.lift id fun _ _ hstep => .step hstep

theorem turns_asked (c : MqttClient cfg) : Turns env c c.asked := (steps_asked c).turns

theorem Turns.step {c c' c'' : MqttClient cfg} (h : Turns env c c') (hstep : Step env c' c'') :
    Turns env c c'' := .tail h (.step hstep)

theorem Live.weaken {c : MqttClient cfg} (h : c.Live greeted) : c.Live False :=
  ⟨h.online, h.sound, False.elim⟩

theorem Moves.step {c c' c'' : MqttClient cfg} (h : Moves env c c') (hstep : Step env c' c'') :
    Moves env c c'' := .tail h (.step hstep)

theorem lost_live {c : MqttClient cfg} (h : c.Live greeted) (fault : Fault) :
    (c.lost fault).Live greeted := h.moveTo rfl rfl id

/-! ### Receiving -/

theorem checkIncomingLoop_moves (env : Env cfg) (fuel : ℕ) {c : MqttClient cfg} (input : List Byte)
    (h : c.Live greeted) (hheard : c.Heard) : Moves env c (c.checkIncomingLoop env fuel input) ∧
      (c.checkIncomingLoop env fuel input).Live greeted := by
  induction fuel generalizing c input with
  | zero => exact ⟨.refl, h⟩
  | succ fuel ih =>
    rw [checkIncomingLoop]
    split_ifs
    · exact ⟨.refl, h⟩
    obtain ⟨hsound, hid⟩ := h.sound.parseInput input
    dsimp only
    generalize c.parser.parseInput input = parsed at hsound hid ⊢
    obtain ⟨result, bytesParsed, parser⟩ := parsed
    dsimp only at hsound hid ⊢
    have hparsed : Moves env c ({ c with parser }.note (.parsed (input.take bytesParsed))) :=
      .single (.parsed parser _ h.online hsound)
    have hlive : ({ c with parser }.note (.parsed (input.take bytesParsed))).Live greeted :=
      ⟨h.online, hsound, h.greeted⟩
    cases result with
    | awaitData =>
      obtain ⟨hmoves, hlive'⟩ := ih (input.drop bytesParsed) hlive hheard
      exact ⟨hparsed.trans hmoves, hlive'⟩
    | packet =>
      obtain ⟨hsteps, hlive', hheard'⟩ := handle_steps hlive hheard (hid rfl)
      dsimp only
      split_ifs with hmore
      · obtain ⟨hmoves, hlive''⟩ := ih (input.drop bytesParsed) hlive' (hheard' hmore)
        exact ⟨hparsed.trans (hsteps.moves.trans hmoves), hlive''⟩
      · exact ⟨hparsed.trans hsteps.moves, hlive'⟩
    | protocolError =>
      exact ⟨hparsed.step (.lost .protocolError (.inl hlive.online)), lost_live hlive _⟩

theorem checkIncoming_moves (env : Env cfg) {c : MqttClient cfg} (h : c.Live greeted) (hheard : c.Heard) :
    Moves env c (c.checkIncoming env) ∧ (c.checkIncoming env).Live greeted := by
  rw [checkIncoming]
  dsimp only
  generalize hr : (c.note (.read (env.read c.tick))).asked = r
  have hread : Moves env c r := hr ▸ Moves.step (.single (.read _ h.online)) (.quiet (quiet_asked _))
  have hlive : r.Live greeted := hr ▸ h.request rfl rfl id
  have hheard' : r.Heard := hr ▸ hheard
  split_ifs
  · exact ⟨hread, hlive⟩
  · have hquiet : Quiet r { r with lastServerActivity := r.millis env }.asked :=
      ⟨rfl, rfl, rfl, rfl, rfl, rfl, Nat.le_succ _, rfl, id⟩
    have htimed : { r with lastServerActivity := r.millis env }.asked.Live greeted :=
      ⟨hlive.online, hlive.sound, hlive.greeted⟩
    obtain ⟨hmoves, hlive'⟩ :=
      checkIncomingLoop_moves env (env.read c.tick).length (env.read c.tick) htimed hheard'
    exact ⟨(hread.step (.quiet hquiet)).trans hmoves, hlive'⟩

/-! ### The timers -/

theorem checkPing_steps (env : Env cfg) {c : MqttClient cfg} (h : c.Live greeted) :
    Steps env c (c.checkPing env) ∧ (c.checkPing env).Live greeted := by
  have hasked : c.asked.Live greeted := h.request rfl rfl id
  rw [checkPing]
  dsimp only
  split_ifs
  · exact ⟨.refl, h⟩
  · exact ⟨(steps_asked c).tail (.lost .keepAlive (.inl h.online)), lost_live hasked _⟩
  · rcases addPacket_cases env c.asked fun alloc =>
      Packet.control cfg alloc PacketType.PINGREQ with ⟨packet, hbuild, hadd⟩ | ⟨-, hadd⟩
    · simp only [hadd]
      have hping : Step env c.asked _ := .ping h.online ⟨_, hbuild⟩
      exact ⟨(steps_asked c).tail hping, h.request rfl rfl id⟩
    · simp only [hadd]
      exact ⟨(steps_asked c).trans (steps_asked _), h.request rfl rfl id⟩
  · exact ⟨steps_asked c, hasked⟩

theorem checkTimeout_steps {c : MqttClient cfg} (h : c.Live (cfg.waitForConnack = true)) :
    Steps env c (c.checkTimeout env) := by
  rw [checkTimeout]
  split
  · exact .refl
  · split_ifs with hbusy
    · dsimp only
      split_ifs
      · exact (steps_asked c).tail (.timeout (c := c.asked) ⟨h.online, h.greeted⟩ hbusy.1 hbusy.2)
      · exact steps_asked c
    · exact .refl

/-! ### The state machine -/

/-- Is it a state that only an accepted CONNACK leads to? -/
def isWelcome : State → Bool
  | .connected | .disconnectingMqtt1 | .disconnectingMqtt2 => true
  | _ => false

theorem isOnline_of_isWelcome {state : State} (h : isWelcome state) :
    state.isOnline ∧ state ≠ .disconnectingTcp1 := by
  cases state <;> simp [isWelcome, State.isOnline] at h ⊢

/-- What holds between two moves and is needed to make the next ones. -/
structure Ready (c : MqttClient cfg) : Prop where
  sound : c.parser.Sound
  greeted : isWelcome c.state → c.log.greeted

theorem Ready.live {c : MqttClient cfg} (h : c.Ready) (hstate : isWelcome c.state) : c.Live greeted where
  online := (isOnline_of_isWelcome hstate).1
  sound := h.sound
  greeted _ := h.greeted hstate

theorem loopConnectingTcp2_steps {c : MqttClient cfg} (hstate : c.state = .connectingTcp2) :
    Steps env c (c.loopConnectingTcp2 env) := by
  rw [loopConnectingTcp2]
  split_ifs with hconnected
  · dsimp only
    generalize hr : ({ c.asked with parser := c.parser.reset } : MqttClient cfg) = r
    have hquiet : Quiet c { r.asked with
        lastServerActivity := r.millis env
        lastClientActivity := r.millis env } := by
      subst hr
      exact ⟨rfl, rfl, rfl, rfl, rfl, rfl, Nat.le_succ_of_le (Nat.le_succ _), rfl,
        fun _ => Parser.reset_sound _⟩
    exact .tail (steps_of_quiet hquiet) (.established (hquiet.state.trans hstate))
  · dsimp only
    split_ifs
    · exact ((steps_asked c).trans (steps_asked _)).tail (.lost .transport (.inr (.inr hstate)))
    · exact (steps_asked c).trans (steps_asked _)

theorem loopConnectingTcp1_turns {c : MqttClient cfg} (hstate : c.state = .connectingTcp1) :
    Turns env c (c.loopConnectingTcp1 env) := by
  rw [loopConnectingTcp1]
  generalize hr : (c.note (.transportConnect (env.connect c.tick))).asked = r
  have hconnect : Turns env c r := by
    subst hr
    exact .step (.single (.transportConnect (env.connect c.tick) hstate)) (.quiet (quiet_asked _))
  have hstate' : r.state = .connectingTcp1 := by
    subst hr
    exact hstate
  have hdialling : r.log.dialling := by
    subst hr
    rfl
  split_ifs
  · exact (hconnect.step (.connecting hstate' hdialling)).trans (loopConnectingTcp2_steps rfl).turns
  · exact hconnect.step (.lost .transport (.inr (.inl hstate')))

/-- The four checks of a connected client. -/
theorem checks_turns {c : MqttClient cfg} (h : c.Live (cfg.waitForConnack = true))
    (hopen : c.state ≠ .disconnectingTcp1) :
    Turns env c ((((c.checkOutbox env).checkIncoming env).checkPing env).checkTimeout env) := by
  obtain ⟨h1, hlive1⟩ := checkOutbox_steps env h hopen
  have hheard : (c.checkOutbox env).Heard := fun hwait => .inr (hlive1.greeted hwait)
  have hlive2 := (checkIncoming_moves env hlive1 hheard).2
  obtain ⟨h3, hlive3⟩ := checkPing_steps env hlive2
  have h2 : Turns env (c.checkOutbox env) _ := .single (.checkIncoming hlive1.weaken hheard)
  exact h1.turns.trans (h2.trans (h3.turns.trans (checkTimeout_steps hlive3).turns))

theorem loopConnected_turns {c : MqttClient cfg} (h : c.Live (cfg.waitForConnack = true))
    (hopen : c.state ≠ .disconnectingTcp1) : Turns env c (c.loopConnected env) := by
  rw [loopConnected]
  split_ifs
  · exact (turns_asked c).trans (checks_turns (h.request rfl rfl id) hopen)
  · exact (turns_asked c).step (.lost .transport (.inl h.online))

theorem loopConnectingMqtt_turns {c : MqttClient cfg} (hstate : c.state = .connectingMqtt)
    (hsound : c.parser.Sound) : Turns env c (c.loopConnectingMqtt env) := by
  have honline : c.state.isOnline := by rw [hstate]; rfl
  rw [loopConnectingMqtt]
  split_ifs with hwait hconnected
  · have hlive : c.asked.Live False := ⟨honline, hsound, False.elim⟩
    have hsent := sendPacket_live env hlive
    have hheard : (c.asked.sendPacket env).2.Heard := fun _ => .inl ((state_sendPacket c.asked).trans hstate)
    have h2 : Turns env (c.asked.sendPacket env).2 _ := .single (.checkIncoming hsent hheard)
    have hlive2 := (checkIncoming_moves env hsent hheard).2
    exact ((turns_asked c).step (.sendConnect hstate hwait)).trans
      (h2.trans (checkPing_steps env hlive2).1.turns)
  · exact (turns_asked c).step (.lost .transport (.inl honline))
  · exact loopConnected_turns ⟨honline, hsound, fun h => absurd h hwait⟩ (by simp [hstate])

theorem loopDisconnectingMqtt1_turns {c : MqttClient cfg} (hstate : c.state = .disconnectingMqtt1)
    (h : c.Ready) : Turns env c (c.loopDisconnectingMqtt1 env) := by
  have hlive : c.Live (cfg.waitForConnack = true) := h.live (by rw [hstate]; rfl)
  have hopen : c.state ≠ .disconnectingTcp1 := by simp [hstate]
  rw [loopDisconnectingMqtt1]
  split_ifs with hempty
  · rcases addPacket_cases env c fun alloc => Packet.control cfg alloc PacketType.DISCONNECT with
      ⟨packet, hbuild, hadd⟩ | ⟨-, hadd⟩
    · simp only [hadd]
      exact (Turns.step .refl (.addDisconnect hstate hempty ⟨_, hbuild⟩)).trans
        (checks_turns (hlive.moveTo rfl rfl id) nofun)
    · simp only [hadd]
      exact ((turns_asked c).step (.error _)).trans (checks_turns (hlive.request rfl rfl id) hopen)
  · exact checks_turns hlive hopen

/-- **A call of `loop`** is nothing but turns. -/
theorem loop_turns {c : MqttClient cfg} (h : c.Ready) : Turns env c (c.loop env) := by
  rw [loop]
  split
  case h_1 => exact .refl
  case h_2 hstate => exact loopConnectingTcp1_turns hstate
  case h_3 hstate => exact (loopConnectingTcp2_steps hstate).turns
  case h_4 hstate => exact loopConnectingMqtt_turns hstate h.sound
  case h_5 hstate =>
    have hwelcome : isWelcome c.state := by rw [hstate]; rfl
    exact loopConnected_turns (h.live hwelcome) (isOnline_of_isWelcome hwelcome).2
  case h_6 hstate => exact loopDisconnectingMqtt1_turns hstate h
  case h_7 hstate =>
    have hwelcome : isWelcome c.state := by rw [hstate]; rfl
    exact loopConnected_turns (h.live hwelcome) (isOnline_of_isWelcome hwelcome).2
  case h_8 hstate => exact .step .refl (.stop hstate)
  case h_9 hstate =>
    rw [loopDisconnectingTcp2]
    split_ifs
    · exact ((turns_asked c).step (.close (c := c.asked) hstate)).trans (callback_steps _ _ _).turns
    · exact turns_asked c

/-! ### Runs -/

@[simp] theorem parser_disconnect (c : MqttClient cfg) (force : Bool) :
    (c.disconnect force).2.parser = c.parser := by
  rw [disconnect]
  split_ifs <;> rfl

@[simp] theorem parser_sendRound (c : MqttClient cfg) : (c.sendRound env).parser = c.parser := by
  rw [sendRound]
  split_ifs <;> simp

@[simp] theorem greeted_sendRound (c : MqttClient cfg) :
    (c.sendRound env).log.greeted = c.log.greeted := by
  rw [sendRound]
  split_ifs <;> simp

theorem state_sendRound (env : Env cfg) (c : MqttClient cfg) :
    (c.sendRound env).state = c.state ∨ (c.sendRound env).state = .disconnectingTcp1 := by
  rw [sendRound]
  split_ifs
  · simpa using state_advanceOutbox (c.sendPacket env).2
  · exact .inl (state_sendPacket c)

@[simp] theorem parser_admitted (c : MqttClient cfg) : c.admitted.parser = c.parser := by
  have hadvance : c.connectedNow.advanceOutbox.2.parser = c.parser := parser_advanceOutbox c.connectedNow
  rw [admitted]
  split_ifs
  · exact hadvance
  · exact hadvance

theorem state_admitted (c : MqttClient cfg) :
    c.admitted.state = .connected ∨ c.admitted.state = .disconnectingTcp1 := by
  have hadvance := state_advanceOutbox c.connectedNow
  rw [admitted]
  split_ifs
  · exact hadvance
  · exact hadvance

theorem greeted_admitted (c : MqttClient cfg) : c.admitted.log.greeted = c.log.greeted := by
  have hadvance : c.connectedNow.advanceOutbox.2.log.greeted = c.log.greeted :=
    greeted_advanceOutbox c.connectedNow
  rw [admitted]
  split_ifs
  · exact hadvance
  · exact hadvance

/-- The parser of a sound client is touched by quiet steps only. -/
theorem Step.sound {c c' : MqttClient cfg} (h : Step env c c') (hsound : c.parser.Sound) :
    c'.parser.Sound := by
  cases h with
  | quiet h => exact h.sound hsound
  | disconnect force => rwa [parser_disconnect]
  | publish | publishChunked => rwa [← parser_publishPacketId] at hsound
  | sendConnect => rwa [parser_sendPacket]
  | sendRound => rwa [parser_sendRound]
  | accept => exact (parser_admitted c.received).symm ▸ hsound
  | message =>
    split_ifs
    · exact (parser_answerPublish c.received).symm ▸ hsound
    · exact (parser_answerPublish c.received).symm ▸ hsound
  | proceed => exact (parser_addPacket c.received _).symm ▸ hsound
  | _ => exact hsound

/-- Only an accepted CONNACK makes a client welcome. -/
theorem Step.welcome {c c' : MqttClient cfg} (h : Step env c c')
    (hgreeted : isWelcome c.state → c.log.greeted) (hstate : isWelcome c'.state) : c'.log.greeted := by
  cases h with
  | quiet h => exact h.log ▸ hgreeted (h.state ▸ hstate)
  | disconnect force =>
    rw [MqttClient.disconnect] at hstate ⊢
    split_ifs at hstate ⊢ with h1 h2
    · cases hstate
    · exact hgreeted (by rw [h2.2]; rfl)
    · exact hgreeted hstate
  | publish | publishChunked =>
    exact (greeted_publishPacketId c _).ge (hgreeted (state_publishPacketId c _ ▸ hstate))
  | addDisconnect hmqtt1 => exact hgreeted (by rw [hmqtt1]; rfl)
  | sendConnect => exact (greeted_sendPacket c).ge (hgreeted (state_sendPacket c ▸ hstate))
  | sendRound =>
    rw [greeted_sendRound]
    rcases state_sendRound env c with hsame | hclosing
    · exact hgreeted (hsame ▸ hstate)
    · rw [hclosing] at hstate
      cases hstate
  | ignore => exact hgreeted hstate
  | accept => rfl
  | message =>
    split_ifs at hstate ⊢
    · exact (greeted_answerPublish c.received).ge (hgreeted (state_answerPublish c.received ▸ hstate))
    · exact (greeted_answerPublish c.received).ge (hgreeted (state_answerPublish c.received ▸ hstate))
  | proceed =>
    exact (greeted_addPacket c.received _).ge (hgreeted (state_addPacket c.received _ ▸ hstate))
  | connect | connecting | established | lost | stop | close | unexpected | refused => cases hstate
  | _ => exact hgreeted hstate

theorem Move.ready {c c' : MqttClient cfg} (h : Move env c c') (hready : c.Ready) : c'.Ready := by
  cases h with
  | step h => exact ⟨h.sound hready.sound, h.welcome hready.greeted⟩
  | transportConnect success hstate =>
    exact ⟨hready.sound, fun hwelcome => by
      rw [show (c.note (.transportConnect success)).state = c.state from rfl, hstate] at hwelcome
      cases hwelcome⟩
  | read => exact ⟨hready.sound, hready.greeted⟩
  | parsed parser bytes hstate hsound => exact ⟨hsound, hready.greeted⟩

theorem Moves.ready {c c' : MqttClient cfg} (h : Moves env c c') (hready : c.Ready) : c'.Ready := by
  induction h with
  | refl => exact hready
  | tail _ hmove ih => exact hmove.ready ih

theorem Turn.moves {c c' : MqttClient cfg} (h : Turn env c c') : Moves env c c' := by
  cases h with
  | step h => exact .single (.step h)
  | transportConnect success hstate => exact .single (.transportConnect success hstate)
  | checkIncoming hlive hheard => exact (checkIncoming_moves env hlive hheard).1

theorem Turns.moves {c c' : MqttClient cfg} (h : Turns env c c') : Moves env c c' := by
  induction h with
  | refl => exact .refl
  | tail _ hturn ih => exact ih.trans hturn.moves

/-- **A run** is nothing but turns. -/
theorem run_turns (actions : List Action) {c : MqttClient cfg} (h : c.Ready) :
    Turns env c (c.run env actions) := by
  induction actions generalizing c with
  | nil => exact .refl
  | cons action actions ih =>
    have hact : Turns env c (c.act env action) := by
      cases action with
      | call apiCall => exact (call_steps c apiCall).turns
      | loop => exact loop_turns h
    exact hact.trans (ih (hact.moves.ready h))

/-- **A run** is nothing but moves. -/
theorem run_moves (actions : List Action) {c : MqttClient cfg} (h : c.Ready) :
    Moves env c (c.run env actions) := (run_turns actions h).moves

theorem new_ready (generatedClientId : CString) : (new cfg generatedClientId).Ready :=
  ⟨Parser.new_sound, nofun⟩

/-- What holds of a new client and is kept by every move holds in every run. -/
theorem run_invariant (env : Env cfg) (invariant : MqttClient cfg → Prop) (generatedClientId : CString)
    (hnew : invariant (new cfg generatedClientId))
    (hmove : ∀ {c c' : MqttClient cfg}, Move env c c' → invariant c → invariant c')
    (actions : List Action) : invariant ((new cfg generatedClientId).run env actions) := by
  have hmoves : Moves env (new cfg generatedClientId) _ := run_moves actions (new_ready generatedClientId)
  generalize (new cfg generatedClientId).run env actions = c at hmoves
  induction hmoves with
  | refl => exact hnew
  | tail _ h ih => exact hmove h ih

end MqttClient

end EspMqttClient
