/-
  The bytes that come in.

  What the parser consumes in a connection is what the transport read, in order and each byte once, until
  the client leaves the connection.  The exception is a buffer with a CONNACK and more behind it: when the
  `onConnect` callback calls `disconnect`, the rest of it is dropped (`run_inOrder`).
-/
import EspMqttClient.MqttClient.Equiv.Cycles
import EspMqttClient.Packets.Equiv.ParserSplit

namespace EspMqttClient

/-! ### Properties of a log -/

/-- Is it a call of `disconnect` with this argument? -/
def ApiCall.isDisconnect (force : Bool) : ApiCall → Bool
  | .disconnect forced => forced = force
  | _ => false

/-- Nothing was skipped, until the client left the connection: what was consumed is the beginning of what
was received. -/
def Log.isAligned (log : Log) : Bool := log.torn ∨ log.consumed.isPrefixOf log.received

/-- At every moment what was consumed is the beginning of what was received, and now it is all of it, until
the client left the connection. -/
def Log.Unskipped (log : Log) : Prop :=
  Trace.Always (fun _ (earlier : Log) => earlier.isAligned) log ∧
    (¬ log.torn → log.consumed = log.received)

/-- The `onConnect` callback does not begin to disconnect while there are bytes left to consume, unless it
breaks the connection off. -/
def Record.isUnbroken (r : Record) (earlier : Log) : Bool :=
  match r.event with
  | .calls apiCalls =>
    earlier.head?.any (·.event.isOnConnect) ∧ r.state = .connected ∧ earlier.consumed ≠ earlier.received →
      apiCalls.any (·.isDisconnect false) → apiCalls.any (·.isDisconnect true)
  | _ => true

namespace MqttClient

variable {cfg : Config} {env : Env cfg}

/-! ### What steps leave alone -/

/-- Until the client left the connection, `rest` is what was read and not consumed yet. -/
structure InOrder (rest : List Byte) (c : MqttClient cfg) : Prop where
  aligned : Trace.Always (fun _ (earlier : Log) => earlier.isAligned) c.log
  unread : c.log.torn ∨ c.log.received = c.log.consumed ++ rest

theorem torn_append {new log : Log} (hnew : ∀ r ∈ new, r.event.isLocal) (h : log.torn) :
    Log.torn (new ++ log) := by
  refine Trace.since_of_past (fun r hr => ?_) h
  have hlocal := hnew r hr
  obtain ⟨event, _, _, _, _⟩ := r
  cases event <;> first | rfl | cases hlocal

theorem received_append {new : Log} (hnew : ∀ r ∈ new, r.event.isLocal) (log : Log) :
    Log.received (new ++ log) = log.received := by
  refine Trace.gather_append (fun r hr => ?_) log
  have hlocal := hnew r hr
  obtain ⟨event, _, _, _, _⟩ := r
  cases event <;> first | exact ⟨rfl, rfl⟩ | cases hlocal

theorem consumed_append {new : Log} (hnew : ∀ r ∈ new, r.event.isLocal) (log : Log) :
    Log.consumed (new ++ log) = log.consumed := by
  refine Trace.gather_append (fun r hr => ?_) log
  have hlocal := hnew r hr
  obtain ⟨event, _, _, _, _⟩ := r
  cases event <;> first | exact ⟨rfl, rfl⟩ | cases hlocal

theorem isAligned_append {new log : Log} (hnew : ∀ r ∈ new, r.event.isLocal) (h : log.isAligned) :
    Log.isAligned (new ++ log) := by
  rw [Log.isAligned, received_append hnew, consumed_append hnew]
  rcases of_decide_eq_true h with htorn | hprefixed
  · exact decide_eq_true (.inl (torn_append hnew htorn))
  · exact decide_eq_true (.inr hprefixed)

theorem InOrder.isAligned {rest : List Byte} {c : MqttClient cfg} (h : c.InOrder rest) :
    c.log.isAligned := by
  rcases h.unread with htorn | hrest
  · exact decide_eq_true (.inl htorn)
  · refine decide_eq_true (.inr ?_)
    rw [List.isPrefixOf_iff_prefix, hrest]
    exact List.prefix_append _ _

theorem InOrder.grows {rest : List Byte} {c c' : MqttClient cfg} (hc : c.InOrder rest)
    (h : Grows Event.isLocal c c') : c'.InOrder rest := by
  obtain ⟨new, hnew, hlocal⟩ := h
  refine ⟨?_, ?_⟩
  · rw [hnew]
    clear hnew
    induction new with
    | nil => exact hc.aligned
    | cons r new ih =>
      rw [List.forall_mem_cons] at hlocal
      exact ⟨isAligned_append hlocal.2 hc.isAligned, ih hlocal.2⟩
  · rw [hnew, received_append hlocal, consumed_append hlocal]
    exact hc.unread.imp_left (torn_append hlocal)

/-- The rest does not matter any more. -/
theorem InOrder.leave {rest : List Byte} {c : MqttClient cfg} (hc : c.InOrder rest)
    (h : c.log.torn ∨ rest = []) : c.InOrder [] := by
  refine ⟨hc.aligned, ?_⟩
  rcases h with htorn | rfl
  · exact .inl htorn
  · exact hc.unread

/-! ### The bytes themselves -/

theorem InOrder.transportConnect {rest : List Byte} {c : MqttClient cfg} (hc : c.InOrder rest)
    (success : Bool) : (c.note (.transportConnect success)).InOrder [] :=
  ⟨⟨hc.isAligned, hc.aligned⟩, .inr rfl⟩

theorem InOrder.read {c : MqttClient cfg} (hc : c.InOrder []) (bytes : List Byte) :
    (c.note (.read bytes)).InOrder bytes := by
  refine ⟨⟨hc.isAligned, hc.aligned⟩, hc.unread.imp id fun hrest => ?_⟩
  show c.log.received ++ bytes = c.log.consumed ++ [] ++ bytes
  rw [hrest]

theorem InOrder.parsed {rest : List Byte} {c : MqttClient cfg} (hc : c.InOrder rest)
    (parser : Parser cfg) (n : ℕ) :
    ({ c with parser }.note (.parsed (rest.take n))).InOrder (rest.drop n) := by
  refine ⟨⟨hc.isAligned, hc.aligned⟩, hc.unread.imp id fun hrest => ?_⟩
  show c.log.received ++ [] = c.log.consumed ++ rest.take n ++ rest.drop n
  rw [List.append_nil, List.append_assoc, List.take_append_drop, hrest]

/-! ### What a callback calls -/

theorem call_torn {c : MqttClient cfg} (apiCall : ApiCall) (h : c.log.torn) :
    (c.call env apiCall).log.torn := by
  have hsteps : Steps env c (c.call env apiCall) := call_steps c apiCall
  obtain ⟨new, hnew, hlocal⟩ := hsteps.grows
  rw [hnew]
  exact torn_append hlocal h

theorem calls_torn {apiCalls : List ApiCall} {c : MqttClient cfg} (h : c.log.torn) :
    (apiCalls.foldl (fun c apiCall => c.call env apiCall) c).log.torn := by
  induction apiCalls generalizing c with
  | nil => exact h
  | cons apiCall apiCalls ih => exact ih (call_torn apiCall h)

/-- Of what a user can call only `disconnect` changes the state, and `connect` that of a disconnected
client. -/
theorem state_call {c : MqttClient cfg} {apiCall : ApiCall}
    (hstate : apiCall = .connect → c.state ≠ .disconnected)
    (h : ∀ force, apiCall ≠ .disconnect force) : (c.call env apiCall).state = c.state := by
  cases apiCall with
  | connect => rw [call, connect, if_neg (hstate rfl)]
  | disconnect force => exact absurd rfl (h force)
  | publish topic qos retain payload =>
    rw [call, publish]
    split_ifs
    · rfl
    · rcases addPacket_cases env (c.publishPacketId qos).2 fun alloc =>
        Packet.publish cfg alloc (c.publishPacketId qos).1 topic payload qos retain with
        ⟨_, -, hadd⟩ | ⟨-, hadd⟩ <;> simp only [hadd]
      · exact state_publishPacketId c qos
      · exact state_publishPacketId c qos
  | publishChunked topic qos retain callback length =>
    rw [call, publishChunked]
    split_ifs
    · rfl
    · rcases addPacket_cases env (c.publishPacketId qos).2 fun alloc =>
        Packet.publishChunked cfg alloc (c.publishPacketId qos).1 topic callback length qos retain with
        ⟨_, -, hadd⟩ | ⟨-, hadd⟩ <;> simp only [hadd]
      · exact state_publishPacketId c qos
      · exact state_publishPacketId c qos
  | subscribe topic qos args =>
    rw [call, subscribe]
    split_ifs
    · rfl
    · rcases addPacket_cases env c.getNextPacketId.2 fun alloc =>
        Packet.subscribe cfg alloc c.getNextPacketId.1 ((topic, qos) :: args) with
        ⟨_, -, hadd⟩ | ⟨-, hadd⟩ <;> simp only [hadd] <;> rfl
  | unsubscribe topic args =>
    rw [call, unsubscribe]
    split_ifs
    · rfl
    · rcases addPacket_cases env c.getNextPacketId.2 fun alloc =>
        Packet.unsubscribe cfg alloc c.getNextPacketId.1 (topic :: args) with
        ⟨_, -, hadd⟩ | ⟨-, hadd⟩ <;> simp only [hadd] <;> rfl
  | clearQueue deleteSessionData => rfl
  | set setting => rfl

/-- A forced `disconnect` ends the connection. -/
theorem torn_disconnect {c : MqttClient cfg} (h : c.state = .connected ∨ c.state = .disconnectingMqtt1) :
    (c.disconnect true).2.log.torn := by
  rw [disconnect, if_pos]
  · rfl
  · rcases h with h | h <;> simp [h]

theorem state_disconnect {c : MqttClient cfg} (h : c.state = .connected ∨ c.state = .disconnectingMqtt1) :
    (c.disconnect false).2.state = .disconnectingMqtt1 := by
  rcases h with h | h
  · rw [disconnect, if_neg (by simp), if_pos (by simp [h])]
    rfl
  · rw [disconnect, if_neg (by simp), if_neg (by simp [h])]
    exact h

/-- One call: the connection is broken off, or a disconnect is begun, or the state stays. -/
theorem call_cases (env : Env cfg) {c : MqttClient cfg}
    (h : c.state = .connected ∨ c.state = .disconnectingMqtt1)
    (apiCall : ApiCall) : (apiCall.isDisconnect true ∧ (c.call env apiCall).log.torn) ∨
      (apiCall.isDisconnect false ∧ (c.call env apiCall).state = .disconnectingMqtt1) ∨
      (¬ apiCall.isDisconnect true ∧ (c.call env apiCall).state = c.state) := by
  by_cases hdisconnect : ∃ force, apiCall = .disconnect force
  · obtain ⟨force, rfl⟩ := hdisconnect
    cases force with
    | true => exact .inl ⟨rfl, torn_disconnect h⟩
    | false => exact .inr (.inl ⟨rfl, state_disconnect h⟩)
  · have hne : ∀ force, apiCall ≠ .disconnect force := fun force heq => hdisconnect ⟨force, heq⟩
    have hstate : c.state ≠ .disconnected := by
      rcases h with h | h <;> simp [h]
    refine .inr (.inr ⟨?_, state_call (fun _ => hstate) hne⟩)
    cases apiCall <;> first | exact absurd rfl (hne _) | exact Bool.false_ne_true

/-- Among the calls is a forced `disconnect`. -/
theorem calls_forced {apiCalls : List ApiCall} (hforced : apiCalls.any (·.isDisconnect true))
    {c : MqttClient cfg} (h : c.state = .connected ∨ c.state = .disconnectingMqtt1) :
    (apiCalls.foldl (fun c apiCall => c.call env apiCall) c).log.torn := by
  induction apiCalls generalizing c with
  | nil => cases hforced
  | cons apiCall apiCalls ih =>
    rw [List.any_cons, Bool.or_eq_true] at hforced
    rw [List.foldl_cons]
    rcases call_cases env h apiCall with ⟨-, htorn⟩ | ⟨hgentle, hstate⟩ | ⟨hother, hstate⟩
    · exact calls_torn htorn
    · have hnot : ¬ apiCall.isDisconnect true := by
        cases apiCall <;> simp [ApiCall.isDisconnect] at hgentle ⊢
        exact hgentle
      exact ih (hforced.resolve_left hnot) (.inr hstate)
    · exact ih (hforced.resolve_left hother) (hstate ▸ h)

/-- Among the calls is no gentle `disconnect`. -/
theorem calls_open {apiCalls : List ApiCall} (hgentle : ¬ apiCalls.any (·.isDisconnect false))
    {c : MqttClient cfg} (h : c.state = .connected) :
    (apiCalls.foldl (fun c apiCall => c.call env apiCall) c).log.torn ∨
      (apiCalls.foldl (fun c apiCall => c.call env apiCall) c).state = .connected := by
  induction apiCalls generalizing c with
  | nil => exact .inr h
  | cons apiCall apiCalls ih =>
    rw [List.any_cons, Bool.or_eq_true, not_or] at hgentle
    rw [List.foldl_cons]
    rcases call_cases env (.inl h) apiCall with ⟨-, htorn⟩ | ⟨hdisconnect, -⟩ | ⟨-, hstate⟩
    · exact .inl (calls_torn htorn)
    · exact absurd hdisconnect hgentle.1
    · exact ih hgentle.2 (hstate.trans h)

/-! ### A packet -/

theorem torn_advanceOutbox {c : MqttClient cfg} (h : c.advanceOutbox.2.state ≠ c.state) :
    c.advanceOutbox.2.log.torn := by
  rcases advanceOutbox_cases c with ⟨hsame, -⟩ | ⟨item, -, -, hleft⟩
  · exact absurd (by rw [hsame]) h
  · rw [hleft, farewell] at h ⊢
    split_ifs at h ⊢
    · rfl
    · exact absurd rfl h

theorem torn_admitted {c : MqttClient cfg} (h : c.admitted.state ≠ .connected) : c.admitted.log.torn := by
  rw [admitted] at h ⊢
  split_ifs at h ⊢
  · exact torn_advanceOutbox (c := c.connectedNow) h
  · exact torn_advanceOutbox (c := c.connectedNow) h

/-- After the `onConnect` callback: the client is still connected, or it has left the connection, or there
is nothing left to consume. -/
theorem onConnect_stops {rest : List Byte} {c : MqttClient cfg} (hc : c.InOrder rest)
    (hstate : c.log.torn ∨ c.state = .connected) (sessionPresent : Bool)
    (hunbroken : Trace.Always (fun r earlier => r.isUnbroken earlier)
      (c.callback env .onConnect (.onConnect sessionPresent)).log) :
    (c.callback env .onConnect (.onConnect sessionPresent)).state = .connected ∨
      (c.callback env .onConnect (.onConnect sessionPresent)).log.torn ∨ rest = [] := by
  have hnoted : (c.note (.onConnect sessionPresent)).InOrder rest := hc.grows (grows_note c rfl)
  rw [callback] at hunbroken ⊢
  dsimp only at hunbroken ⊢
  split_ifs at hunbroken ⊢
  · generalize env.callback (c.note (.onConnect sessionPresent)).tick = apiCalls at hunbroken ⊢
    rcases hstate with htorn | hstate
    · exact .inr (.inl (calls_torn htorn))
    by_cases hforced : apiCalls.any (·.isDisconnect true)
    · exact .inr (.inl (calls_forced hforced (.inl hstate)))
    by_cases hgentle : apiCalls.any (·.isDisconnect false)
    · -- the condition says that nothing is left to consume
      have hsteps : Steps env ((c.note (.onConnect sessionPresent)).note (.calls apiCalls)).asked _ :=
        calls_steps apiCalls _
      obtain ⟨new, hnew, -⟩ := hsteps.grows
      rw [hnew] at hunbroken
      have hcalls := of_decide_eq_true hunbroken.of_append.1
      rcases hnoted.unread with htorn | hunread
      · exact .inr (.inl (calls_torn htorn))
      · refine .inr (.inr ?_)
        by_contra hrest
        refine hforced (hcalls ⟨rfl, hstate, fun hsame => hrest ?_⟩ hgentle)
        rw [← hsame] at hunread
        simpa using hunread
    · have hnoted : ((c.note (.onConnect sessionPresent)).note (.calls apiCalls)).asked.state = .connected :=
        hstate
      exact (calls_open hgentle hnoted).symm.imp_right .inl
  · exact hstate.symm.imp_right .inl

/-- When the client stops in the middle of a buffer, it leaves the connection or nothing is left. -/
theorem onConnack_stops {rest : List Byte} {c : MqttClient cfg} (hc : c.InOrder rest)
    (hunbroken : Trace.Always (fun r earlier => r.isUnbroken earlier) (c.onConnack env).log)
    (hstate : (c.onConnack env).state ≠ .connected) : (c.onConnack env).log.torn ∨ rest = [] := by
  by_cases hcode : c.incoming.returnCode = 0
  · rw [onConnack_of_accepted hcode] at hunbroken hstate ⊢
    have hadmitted : c.admitted.log.torn ∨ c.admitted.state = .connected := by
      by_cases h : c.admitted.state = .connected
      · exact .inr h
      · exact .inl (torn_admitted h)
    have hgrows := hc.grows (grows_admitted c (fun _ => rfl) (fun _ => rfl) rfl)
    exact (onConnect_stops hgrows hadmitted _ hunbroken).resolve_left hstate
  · rw [onConnack, if_neg hcode]
    exact .inl rfl

/-- Only a packet that is not expected and a CONNACK make the client stop. -/
theorem handle_cases {c : MqttClient cfg} (h : (c.handle env).1 = false) :
    (c.handle env).2 = (c.note (.fault .unexpectedPacket)).setState .disconnectingTcp1 ∨
      ((c.handle env).2 = c.received.onConnack env ∧ (c.received.onConnack env).state ≠ .connected) := by
  rw [handle] at h ⊢
  dsimp only at h ⊢
  by_cases hunexpected : c.state = .connectingMqtt ∧ c.incoming.packetType &&& 0xF0 ≠ PacketType.CONNACK
  · rw [if_pos hunexpected]
    exact .inl rfl
  rw [if_neg hunexpected] at h ⊢
  by_cases hconnack : c.incoming.packetType &&& 0xF0 = PacketType.CONNACK
  · rw [if_pos hconnack] at h ⊢
    exact .inr ⟨rfl, of_decide_eq_false h⟩
  · rw [if_neg hconnack] at h
    repeat rw [apply_ite Prod.fst] at h
    simp at h

theorem handle_stops {rest : List Byte} {c : MqttClient cfg} (hc : c.InOrder rest)
    (hunbroken : Trace.Always (fun r earlier => r.isUnbroken earlier) (c.handle env).2.log)
    (hstop : (c.handle env).1 = false) : (c.handle env).2.log.torn ∨ rest = [] := by
  rcases handle_cases hstop with h | ⟨h, hstate⟩
  · rw [h]
    exact .inl rfl
  · rw [h] at hunbroken ⊢
    exact onConnack_stops (hc.grows (grows_note c rfl)) hunbroken hstate

/-! ### A buffer -/

theorem checkIncomingLoop_inOrder (fuel : ℕ) {c : MqttClient cfg} (rest : List Byte)
    (hlive : c.Live False) (hheard : c.Heard) (hfuel : rest.length ≤ fuel) (hc : c.InOrder rest)
    (hunbroken : Trace.Always (fun r earlier => r.isUnbroken earlier)
      (c.checkIncomingLoop env fuel rest).log) :
    (c.checkIncomingLoop env fuel rest).InOrder [] := by
  induction fuel generalizing c rest with
  | zero => exact hc.leave (.inr (List.length_eq_zero_iff.mp (Nat.le_zero.mp hfuel)))
  | succ fuel ih =>
    rw [checkIncomingLoop] at hunbroken ⊢
    split_ifs at hunbroken ⊢ with hempty
    · exact hc.leave (.inr hempty)
    obtain ⟨byte, rest, rfl⟩ := List.exists_cons_of_ne_nil hempty
    obtain ⟨hsound, hid⟩ := hlive.sound.parseInput (byte :: rest)
    obtain ⟨-, hread, -⟩ := hlive.sound.toOk.parseInput byte rest
    dsimp only at hunbroken ⊢
    generalize c.parser.parseInput (byte :: rest) = parsed at hsound hid hread hunbroken ⊢
    obtain ⟨result, bytesParsed, parser⟩ := parsed
    dsimp only at hsound hid hread hunbroken ⊢
    have hparsed := hc.parsed parser bytesParsed
    have hlive' : ({ c with parser }.note (.parsed ((byte :: rest).take bytesParsed))).Live False :=
      ⟨hlive.online, hsound, hlive.greeted⟩
    have hheard' : ({ c with parser }.note (.parsed ((byte :: rest).take bytesParsed))).Heard := hheard
    have hid : result = .packet →
        ({ c with parser }.note (.parsed ((byte :: rest).take bytesParsed))).parser.Identified := hid
    have hfuel' : ((byte :: rest).drop bytesParsed).length ≤ fuel := by
      rw [List.length_drop]
      omega
    generalize { c with parser }.note (.parsed ((byte :: rest).take bytesParsed)) = c at *
    cases result with
    | awaitData => exact ih _ hlive' hheard' hfuel' hparsed hunbroken
    | protocolError =>
      have hlost : Step env c (c.lost .protocolError) := .lost .protocolError (.inl hlive'.online)
      exact (hparsed.grows hlost.grows).leave (.inl rfl)
    | packet =>
      obtain ⟨hsteps, hlive'', hheard''⟩ : Steps env c (c.handle env).2 ∧
          (c.handle env).2.Live False ∧ ((c.handle env).1 → (c.handle env).2.Heard) :=
        handle_steps hlive' hheard' (hid rfl)
      have hhandled := hparsed.grows hsteps.grows
      dsimp only at hunbroken ⊢
      split_ifs at hunbroken ⊢ with hmore
      · exact ih _ hlive'' (hheard'' hmore) hfuel' hhandled hunbroken
      · exact hhandled.leave (handle_stops hparsed hunbroken (by simpa using hmore))

theorem checkIncoming_inOrder {c : MqttClient cfg} (hlive : c.Live False) (hheard : c.Heard) (hc : c.InOrder [])
    (hunbroken : Trace.Always (fun r earlier => r.isUnbroken earlier) (c.checkIncoming env).log) :
    (c.checkIncoming env).InOrder [] := by
  have hread : (c.note (.read (env.read c.tick))).asked.InOrder (env.read c.tick) :=
    (hc.read (env.read c.tick)).grows (grows_of_log rfl)
  rw [checkIncoming] at hunbroken ⊢
  dsimp only at hunbroken ⊢
  split_ifs at hunbroken ⊢ with hempty
  · exact hread.leave (.inr hempty)
  · refine checkIncomingLoop_inOrder _ _ ?_ ?_ le_rfl ?_ hunbroken
    · exact ⟨hlive.online, hlive.sound, hlive.greeted⟩
    · exact hheard
    · exact hread.grows (grows_of_log rfl)

/-! ### Runs -/

theorem Turn.inOrder {c c' : MqttClient cfg} (h : Turn env c c')
    (hc : Trace.Always (fun r earlier => r.isUnbroken earlier) c.log → c.InOrder [])
    (hunbroken : Trace.Always (fun r earlier => r.isUnbroken earlier) c'.log) : c'.InOrder [] := by
  obtain ⟨new, hnew⟩ := h.moves.log_suffix
  have hc : c.InOrder [] := by
    apply hc
    rw [← hnew] at hunbroken
    exact hunbroken.of_append
  cases h with
  | step h => exact hc.grows h.grows
  | transportConnect success => exact hc.transportConnect success
  | checkIncoming hlive hheard => exact checkIncoming_inOrder hlive hheard hc hunbroken

/-- **Incoming bytes are never skipped**, in every run in which the `onConnect` callback does not begin to
disconnect while there are bytes left to consume. -/
theorem run_inOrder (env : Env cfg) (generatedClientId : CString) (actions : List Action)
    (h : Trace.Always (fun r earlier => r.isUnbroken earlier)
      ((new cfg generatedClientId).run env actions).log) :
    ((new cfg generatedClientId).run env actions).log.Unskipped := by
  have hinOrder : Trace.Always (fun r earlier => r.isUnbroken earlier)
      ((new cfg generatedClientId).run env actions).log →
      ((new cfg generatedClientId).run env actions).InOrder [] := by
    have hturns : Turns env (new cfg generatedClientId) _ := run_turns actions (new_ready generatedClientId)
    generalize (new cfg generatedClientId).run env actions = c at hturns
    induction hturns with
    | refl => exact fun _ => ⟨trivial, .inr rfl⟩
    | tail _ h ih => exact h.inOrder ih
  refine ⟨(hinOrder h).aligned, fun htorn => ?_⟩
  have hrest := (hinOrder h).unread.resolve_left htorn
  rw [List.append_nil] at hrest
  exact hrest.symm

/-- A server that sends a PUBLISH right behind the CONNACK. -/
def promptScript : Script where
  read := [(9, [0x20, 2, 1, 0, 0x30, 3, 0, 1, 0x61])]

theorem run_inOrder_prompt :
    (promptScript.run [.call (.set (.callback .onConnect true)), .call .connect, .loop,
      .loop]).log.Unskipped := by
  apply run_inOrder
  decide +kernel

/-- The same server, and a user who disconnects as soon as the client is connected. -/
def hastyScript : Script where
  read := promptScript.read
  callback := [(11, [.disconnect false])]

/-- The PUBLISH is dropped. -/
theorem not_unskipped_hasty : ¬ (hastyScript.run
    [.call (.set (.callback .onConnect true)), .call .connect, .loop, .loop]).log.Unskipped := by
  rw [Log.Unskipped]
  decide +kernel

end MqttClient

end EspMqttClient
