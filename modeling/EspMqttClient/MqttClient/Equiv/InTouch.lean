/-
  A client in touch with its server.

  As long as a client takes in what comes over its connection, its parser has made of the bytes what a walk
  over all of them makes (`InTouch`).  What it reports is therefore what the server sent, as far as it came in,
  however the bytes are cut and whatever a user calls in between (`run_agrees`).
-/
import EspMqttClient.MqttClient.Equiv.Inner
import EspMqttClient.MqttClient.Equiv.Receipt
import EspMqttClient.MqttClient.Equiv.Reception

namespace EspMqttClient

namespace State

/-- Does a client take in what comes over its connection? -/
def isListening : State → Bool
  | .connectingMqtt | .connected => true
  | _ => false

/-- Does it, or will it when the connection is made? -/
def isTied (state : State) : Bool := state.isListening || state = .connectingTcp2

theorem isTied_of_isListening {state : State} (h : state.isListening) : state.isTied := by
  rw [isTied, h]
  rfl

theorem ne_connectingTcp2 {state : State} (h : state.isListening) : state ≠ .connectingTcp2 := by
  rintro rfl
  cases h

end State

namespace MqttClient

variable {cfg : Config} {env : Env cfg}

/-! ### What has nothing to do with what comes in -/

/-- The state stays, or the client takes in nothing for now. -/
def Remains (c c' : MqttClient cfg) : Prop := c'.state = c.state ∨ ¬ c'.state.isTied

/-- Neither the parser nor what is noted of the bytes and the packets that come in changes. -/
structure Apart (c c' : MqttClient cfg) : Prop where
  parser : c'.parser = c.parser
  internal : Internal c c'
  remains : Remains c c'

theorem Remains.trans {c c' c'' : MqttClient cfg} (h : Remains c c') (h' : Remains c' c'') : Remains c c'' := by
  rcases h' with heq | hleft
  · rw [Remains, heq]
    exact h
  · exact .inr hleft

theorem Remains.ne_connectingTcp2 {c c' : MqttClient cfg} (h : Remains c c') (hc : c.state ≠ .connectingTcp2) :
    c'.state ≠ .connectingTcp2 := by
  rcases h with heq | hleft
  · rwa [heq]
  · intro hopening
    rw [hopening] at hleft
    exact hleft rfl

theorem Apart.trans {c c' c'' : MqttClient cfg} (h : Apart c c') (h' : Apart c' c'') : Apart c c'' :=
  ⟨h'.parser.trans h.parser, h.internal.trans h'.internal, h.remains.trans h'.remains⟩

theorem apart_asked (c : MqttClient cfg) : Apart c c.asked := ⟨rfl, grows_of_log rfl, .inl rfl⟩

theorem apart_lost (c : MqttClient cfg) (fault : Fault) : Apart c (c.lost fault) :=
  ⟨rfl, internal_lost c fault, .inr Bool.false_ne_true⟩

theorem remains_call (c : MqttClient cfg) (apiCall : ApiCall) : Remains c (c.call env apiCall) := by
  rcases state_call_cases env c apiCall with heq | ⟨-, hnext⟩ | ⟨hnext, -⟩ | ⟨-, hnext⟩
  · exact .inl heq
  all_goals
    rw [Remains, hnext]
    exact .inr (by decide)

theorem apart_call (c : MqttClient cfg) (apiCall : ApiCall) : Apart c (c.call env apiCall) :=
  ⟨parser_call c apiCall, internal_call c apiCall, remains_call c apiCall⟩

theorem remains_callback (env : Env cfg) (c : MqttClient cfg) (callback : Callback) (event : Event) :
    Remains c (c.callback env callback event) :=
  callback_keeps (p := Remains c) (fun c' apiCall h => h.trans (remains_call c' apiCall))
    fun _ hstate => .inl hstate

theorem apart_callback (c : MqttClient cfg) (callback : Callback) {event : Event} (h : event.isInternal) :
    Apart c (c.callback env callback event) :=
  ⟨parser_callback c callback event, internal_callback c callback h, remains_callback env c callback event⟩

theorem remains_advanceOutbox (c : MqttClient cfg) : Remains c c.advanceOutbox.2 := by
  rcases state_advanceOutbox c with heq | hleft
  · exact .inl heq
  · rw [Remains, hleft]
    exact .inr (by decide)

theorem remains_checkOutbox (c : MqttClient cfg) : Remains c (c.checkOutbox env) := by
  suffices hloop : ∀ (fuel : ℕ) (c : MqttClient cfg), Remains c (c.checkOutboxLoop env fuel) from hloop _ c
  intro fuel
  induction fuel with
  | zero => exact fun c => .inl rfl
  | succ fuel ih =>
    intro c
    have hsend : Remains c (c.sendPacket env).2 := .inl (state_sendPacket c)
    have hadvance : Remains c (c.sendPacket env).2.advanceOutbox.2 := hsend.trans (remains_advanceOutbox _)
    rw [checkOutboxLoop]
    dsimp only
    split_ifs
    · exact hadvance.trans (ih _)
    · exact hadvance
    · exact hsend

theorem apart_checkOutbox (c : MqttClient cfg) : Apart c (c.checkOutbox env) :=
  ⟨parser_checkOutbox env c, internal_checkOutbox c, remains_checkOutbox c⟩

theorem apart_sendPacket (c : MqttClient cfg) : Apart c (c.sendPacket env).2 :=
  ⟨parser_sendPacket c, grows_sendPacket c fun _ => rfl, .inl (state_sendPacket c)⟩

theorem apart_checkPing (c : MqttClient cfg) : Apart c (c.checkPing env) := by
  refine ⟨?_, internal_checkPing c, ?_⟩
  · rw [checkPing]
    dsimp only
    split_ifs
    · rfl
    · rfl
    · rcases addPacket_cases env c.asked fun alloc => Packet.control cfg alloc PacketType.PINGREQ with
        ⟨_, -, hadd⟩ | ⟨-, hadd⟩ <;> simp only [hadd] <;> rfl
    · rfl
  · rw [Remains, state_checkPing]
    split_ifs
    · exact .inr (by decide)
    · exact .inl rfl

theorem apart_checkTimeout (c : MqttClient cfg) : Apart c (c.checkTimeout env) :=
  ⟨(checkTimeout_connected env c).2, internal_checkTimeout c, .inl (state_checkTimeout c)⟩

/-! ### States -/

theorem remains_onPublish (c : MqttClient cfg) : Remains c (c.onPublish env) := by
  have hanswer : Remains c (c.answerPublish env).2 := .inl (state_answerPublish c)
  rw [onPublish]
  dsimp only
  split_ifs
  · exact hanswer.trans (remains_callback env _ _ _)
  · exact hanswer

theorem remains_finish (c : MqttClient cfg) (type : MQTTPacketType) : Remains c (c.finish env type) := by
  rw [finish]
  split
  · exact remains_callback env (c.remove _) _ _
  · exact .inl rfl

theorem remains_proceed (c : MqttClient cfg) (type next : MQTTPacketType) :
    Remains c (c.proceed env type next) := by
  rw [proceed]
  split
  · exact .inl (state_addPacket c _)
  · exact .inl rfl

theorem remains_onSuback (c : MqttClient cfg) : Remains c (c.onSuback env) := by
  rw [onSuback]
  split
  · exact remains_callback env (c.remove _) _ _
  · exact .inl rfl

theorem remains_onUnsuback (c : MqttClient cfg) : Remains c (c.onUnsuback env) := by
  rw [onUnsuback]
  split
  · exact remains_callback env (c.remove _) _ _
  · exact .inl rfl

/-- A CONNACK leads to `connected`, or the client leaves. -/
theorem state_onConnack (c : MqttClient cfg) :
    (c.onConnack env).state = .connected ∨ ¬ (c.onConnack env).state.isTied := by
  by_cases hcode : c.incoming.returnCode = 0
  · rw [onConnack_of_accepted hcode]
    rcases remains_callback env c.admitted .onConnect
      (.onConnect (decide (c.admitted.incoming.sessionPresent ≠ 0))) with heq | hleft
    · rw [heq]
      rcases state_admitted c with hstate | hstate <;> rw [hstate]
      · exact .inl rfl
      · exact .inr (by decide)
    · exact .inr hleft
  · rw [onConnack, if_neg hcode]
    exact .inr Bool.false_ne_true

/-- To handle a packet leaves the state alone, but for a CONNACK, or the client leaves. -/
theorem state_handle (env : Env cfg) (c : MqttClient cfg) :
    (c.handle env).2.state = .connected ∨ Remains c (c.handle env).2 := by
  have hbranch {cond : Prop} [Decidable cond] {yes no : Bool × MqttClient cfg}
      (hyes : yes.2.state = .connected ∨ Remains c yes.2) (hno : no.2.state = .connected ∨ Remains c no.2) :
      (if cond then yes else no).2.state = .connected ∨ Remains c (if cond then yes else no).2 := by
    split
    · exact hyes
    · exact hno
  rw [handle]
  refine hbranch (.inr (.inr Bool.false_ne_true)) (hbranch ?_ (hbranch (.inr ?_) ?_))
  · exact (state_onConnack c.received).imp id .inr
  · dsimp only
    split
    · exact .inl rfl
    · exact remains_onPublish c.received
  refine hbranch (.inr (remains_finish c.received _)) (hbranch (.inr (remains_proceed c.received _ _)) ?_)
  refine hbranch (.inr (remains_proceed c.received _ _)) (hbranch (.inr (remains_finish c.received _)) ?_)
  refine hbranch (.inr (remains_onSuback c.received)) (hbranch (.inr (remains_onUnsuback c.received)) ?_)
  exact hbranch (.inr (.inl rfl)) (.inr (.inl rfl))

/-- A client that goes on with nothing more of a buffer takes in nothing for now. -/
theorem handle_leaves {c : MqttClient cfg} (h : (c.handle env).1 = false) : ¬ (c.handle env).2.state.isTied := by
  rcases handle_cases h with heq | ⟨heq, hstate⟩
  · rw [heq]
    exact Bool.false_ne_true
  · rw [heq]
    exact (state_onConnack c.received).resolve_left hstate

/-! ### In touch -/

/-- What was read and is not `rest` was consumed.  The packets that were reported in this connection are those
that a parser reports which consumed the same bytes, and those of earlier connections are the server's. -/
structure InTouch (sent : ℕ → List ServerPacket) (rest : List Byte) (c : MqttClient cfg) : Prop where
  consumed : c.log.consumed <+: c.log.received
  unread : c.state.isListening → c.log.received = c.log.consumed ++ rest
  opening : c.state = .connectingTcp2 → c.log.received = [] ∧ c.log.consumed = [] ∧ c.log.reports = []
  reads : ∃ (p : Parser cfg) (rs : List Parser.Result), p.parse = .fixedHeader ∧
    rs.map (·.report) = c.log.reports ∧ p.Reads c.log.consumed rs ∧
      (c.state.isListening → p.Reaches c.log.consumed c.parser)
  earlier : ∃ signals, c.log.signals = signals ++ c.log.reports.filterMap (·.signal) ∧
    List.Forall₂ (Signal.Agrees Publish.EndsIn) ((c.log.receivedBefore sent).filterMap (·.signal)) signals

variable {sent : ℕ → List ServerPacket} {rest : List Byte}

/-- **What came in** is what the server sent. -/
theorem InTouch.agrees {c : MqttClient cfg} (hc : c.InTouch sent rest)
    (hfits : ∀ k, ∀ packet ∈ sent k, packet.Fits cfg) (hserved : c.log.IsServed sent) :
    List.Forall₂ (Signal.Agrees Publish.EndsIn) ((c.log.receivedPackets sent).filterMap (·.signal))
      c.log.signals := by
  have hsent : c.log.consumed <+: (sent c.log.connections).flatMap ServerPacket.bytes := by
    refine hc.consumed.trans ?_
    cases hlog : c.log with
    | nil => exact List.nil_prefix
    | cons r past =>
      rw [hlog] at hserved
      exact hserved.1
  obtain ⟨p, rs, hp, hreports, hreads, -⟩ := hc.reads
  obtain ⟨signals, hsignals, hearlier⟩ := hc.earlier
  have hnow := hreads.agrees hp (hfits _) hsent
  rw [hsignals, ← hreports, Log.receivedPackets, List.filterMap_append]
  exact List.rel_append hearlier hnow

/-- When nothing came in yet. -/
theorem inTouch_of_nil {c : MqttClient cfg} (hreceived : c.log.received = []) (hconsumed : c.log.consumed = [])
    (hreports : c.log.reports = []) (hparser : c.state.isListening → c.parser.parse = .fixedHeader)
    (hearlier : List.Forall₂ (Signal.Agrees Publish.EndsIn) ((c.log.receivedBefore sent).filterMap (·.signal))
      c.log.signals) : c.InTouch sent [] := by
  refine ⟨?_, ?_, fun _ => ⟨hreceived, hconsumed, hreports⟩, ?_, c.log.signals, ?_, hearlier⟩
  · rw [hconsumed]
    exact List.nil_prefix
  · intro _
    rw [hreceived, hconsumed]
    rfl
  · rw [hconsumed, hreports]
    by_cases hlistening : c.state.isListening
    · exact ⟨c.parser, [], hparser hlistening, rfl, Parser.reads_nil _, fun _ => Parser.reaches_nil _⟩
    · exact ⟨.new cfg, [], rfl, rfl, Parser.reads_nil _, fun h => absurd h hlistening⟩
  · rw [hreports]
    exact (List.append_nil _).symm

/-- A client that takes in nothing more. -/
theorem InTouch.leave {c : MqttClient cfg} (hc : c.InTouch sent rest) (h : ¬ c.state.isTied ∨ rest = []) :
    c.InTouch sent [] := by
  refine ⟨hc.consumed, fun hlistening => ?_, hc.opening, hc.reads, hc.earlier⟩
  rcases h with hleft | rfl
  · exact absurd (State.isTied_of_isListening hlistening) hleft
  · exact hc.unread hlistening

theorem reports_append {new : Log} (hnew : ∀ r ∈ new, r.event.isInternal) (log : Log) :
    Log.reports (new ++ log) = log.reports := by
  refine Trace.gather_append (fun r hr => ?_) log
  have hinternal := hnew r hr
  obtain ⟨event, _, _, _, _⟩ := r
  cases event <;> first | exact ⟨rfl, rfl⟩ | cases hinternal

theorem receivedBefore_append {new : Log} (hnew : ∀ r ∈ new, r.event.isTransportConnect = false) (log : Log) :
    Log.receivedBefore sent (new ++ log) = log.receivedBefore sent := by
  induction new with
  | nil => rfl
  | cons r new ih =>
    rw [List.forall_mem_cons] at hnew
    rw [List.cons_append, Log.receivedBefore, hnew.1, if_neg Bool.false_ne_true, ih hnew.2]

theorem isLocal_of_isInternal {event : Event} (h : event.isInternal) : event.isLocal := by
  rw [Event.isInternal, Bool.and_eq_true] at h
  exact h.2

theorem signal_of_isInternal {event : Event} (h : event.isInternal) : event.signal = none := by
  cases event <;> first | rfl | cases h

/-- What is read off the log for a connection stays. -/
theorem InTouch.grows {c c' : MqttClient cfg} (hc : c.InTouch sent rest) (hinternal : Internal c c')
    (hparser : c'.state.isListening → c.state.isListening ∧ c'.parser = c.parser)
    (hopening : c'.state = .connectingTcp2 → c.state = .connectingTcp2) : c'.InTouch sent rest := by
  obtain ⟨new, hlog, hnew⟩ := hinternal
  have hlocal : ∀ r ∈ new, r.event.isLocal := fun r hr => isLocal_of_isInternal (hnew r hr)
  have hbefore : c'.log.receivedBefore sent = c.log.receivedBefore sent := by
    rw [hlog]
    refine receivedBefore_append (fun r hr => ?_) c.log
    have hr := hlocal r hr
    obtain ⟨event, _, _, _, _⟩ := r
    cases event <;> first | rfl | cases hr
  have hreceived : c'.log.received = c.log.received := by rw [hlog, received_append hlocal]
  have hconsumed : c'.log.consumed = c.log.consumed := by rw [hlog, consumed_append hlocal]
  have hreports : c'.log.reports = c.log.reports := by rw [hlog, reports_append hnew]
  have hsignals : c'.log.signals = c.log.signals := by
    rw [hlog, signals_append_of_none fun r hr => signal_of_isInternal (hnew r hr)]
  obtain ⟨p, rs, hp, hrs, hreads, hreaches⟩ := hc.reads
  refine ⟨?_, fun h => ?_, fun h => ?_, ⟨p, rs, hp, ?_, ?_, fun h => ?_⟩, ?_⟩
  · rw [hreceived, hconsumed]
    exact hc.consumed
  · rw [hreceived, hconsumed]
    exact hc.unread (hparser h).1
  · rw [hreceived, hconsumed, hreports]
    exact hc.opening (hopening h)
  · rw [hreports]
    exact hrs
  · rw [hconsumed]
    exact hreads
  · rw [hconsumed, (hparser h).2]
    exact hreaches (hparser h).1
  · rw [hsignals, hreports, hbefore]
    exact hc.earlier

theorem InTouch.apart {c c' : MqttClient cfg} (hc : c.InTouch sent rest) (h : Apart c c') :
    c'.InTouch sent rest := by
  refine hc.grows h.internal (fun hlistening => ?_) (fun hopening => ?_)
  · rcases h.remains with heq | hleft
    · exact ⟨heq ▸ hlistening, h.parser⟩
    · exact absurd (State.isTied_of_isListening hlistening) hleft
  · by_contra hne
    exact h.remains.ne_connectingTcp2 hne hopening

/-! ### The bytes of a buffer -/

/-- More bytes are consumed. -/
theorem InTouch.consume {c d : MqttClient cfg} {input : List Byte} {n : ℕ} (hc : c.InTouch sent input)
    (hlistening : c.state.isListening) (hreceived : d.log.received = c.log.received)
    (hconsumed : d.log.consumed = c.log.consumed ++ input.take n) (hstate : d.state ≠ .connectingTcp2)
    (hreads : ∃ (p : Parser cfg) (rs : List Parser.Result), p.parse = .fixedHeader ∧
      rs.map (·.report) = d.log.reports ∧ p.Reads d.log.consumed rs ∧
        (d.state.isListening → p.Reaches d.log.consumed d.parser))
    (hearlier : ∃ signals, d.log.signals = signals ++ d.log.reports.filterMap (·.signal) ∧
      List.Forall₂ (Signal.Agrees Publish.EndsIn) ((d.log.receivedBefore sent).filterMap (·.signal)) signals) :
    d.InTouch sent (input.drop n) := by
  have hsplit : d.log.received = d.log.consumed ++ input.drop n := by
    rw [hreceived, hconsumed, hc.unread hlistening, List.append_assoc, List.take_append_drop]
  refine ⟨?_, fun _ => hsplit, fun h => absurd h hstate, hreads, hearlier⟩
  rw [hsplit]
  exact List.prefix_append _ _

theorem received_consume (c : MqttClient cfg) (parser : Parser cfg) (bytes : List Byte) :
    (c.consume parser bytes).log.received = c.log.received := List.append_nil _

theorem reports_consume (c : MqttClient cfg) (parser : Parser cfg) (bytes : List Byte) :
    (c.consume parser bytes).log.reports = c.log.reports := List.append_nil _

/-- The parser waits for more. -/
theorem InTouch.awaitData {c : MqttClient cfg} {input : List Byte} {n : ℕ} {parser : Parser cfg}
    (hc : c.InTouch sent input) (hsound : c.parser.Sound) (hlistening : c.state.isListening)
    (hparse : c.parser.parseInput input = (.awaitData, n, parser)) :
    (c.consume parser (input.take n)).InTouch sent (input.drop n) := by
  obtain ⟨p, rs, hp, hrs, hreads, hreaches⟩ := hc.reads
  obtain ⟨hreads', hreaches'⟩ :=
    hreads.awaitData (hreaches hlistening) (Parser.ok_of_fixedHeader hp) hsound.toOk hparse
  refine hc.consume hlistening (received_consume c _ _) rfl (State.ne_connectingTcp2 hlistening)
    ⟨p, rs, hp, ?_, hreads', fun _ => hreaches'⟩ ?_
  · rw [reports_consume]
    exact hrs
  · rw [reports_consume]
    exact hc.earlier

/-- A packet is reported. -/
theorem InTouch.packet {c : MqttClient cfg} {input : List Byte} {n : ℕ} {parser : Parser cfg}
    (hc : c.InTouch sent input) (hsound : c.parser.Sound) (hlistening : c.state.isListening)
    (hparse : c.parser.parseInput input = (.packet, n, parser)) :
    (c.consume parser (input.take n)).received.InTouch sent (input.drop n) := by
  have hreceived : (c.consume parser (input.take n)).received.log.received = c.log.received := by
    show (c.consume parser (input.take n)).log.received ++ [] = _
    rw [List.append_nil, received_consume]
  have hconsumed : (c.consume parser (input.take n)).received.log.consumed = c.log.consumed ++ input.take n :=
    List.append_nil _
  have hreports : (c.consume parser (input.take n)).received.log.reports = c.log.reports ++ [parser.report] := by
    show (c.consume parser (input.take n)).log.reports ++ [parser.report] = _
    rw [reports_consume]
  have hsignals : (c.consume parser (input.take n)).received.log.signals =
      c.log.signals ++ parser.report.signal.toList := signals_cons _ _
  obtain ⟨p, rs, hp, hrs, hreads, hreaches⟩ := hc.reads
  obtain ⟨r, hr, hreads', hreaches'⟩ :=
    hreads.packet (hreaches hlistening) (Parser.ok_of_fixedHeader hp) hsound hparse
  refine hc.consume hlistening hreceived hconsumed (State.ne_connectingTcp2 hlistening)
    ⟨p, rs ++ [r], hp, ?_, hconsumed ▸ hreads', fun _ => hconsumed ▸ hreaches'⟩ ?_
  · rw [List.map_append, hrs, hreports, List.map_singleton, hr]
  · obtain ⟨signals, hbefore, hearlier⟩ := hc.earlier
    refine ⟨signals, ?_, hearlier⟩
    rw [hsignals, hreports, hbefore, List.filterMap_append, List.append_assoc]
    cases hsignal : parser.report.signal <;> simp [hsignal]

/-- The client breaks the connection off. -/
theorem InTouch.protocolError {c : MqttClient cfg} {input : List Byte} {n : ℕ} {parser : Parser cfg}
    (hc : c.InTouch sent input) (hsound : c.parser.Sound) (hlistening : c.state.isListening)
    (hparse : c.parser.parseInput input = (.protocolError, n, parser)) :
    ((c.consume parser (input.take n)).lost .protocolError).InTouch sent (input.drop n) := by
  obtain ⟨p, rs, hp, hrs, hreads, hreaches⟩ := hc.reads
  have hreads' := hreads.protocolError (hreaches hlistening) (Parser.ok_of_fixedHeader hp) hsound.toOk hparse
  have hleft : ({ c.consume parser (input.take n) with state := .disconnectingTcp1 } :
      MqttClient cfg).InTouch sent (input.drop n) := by
    refine hc.consume hlistening (received_consume c _ _) rfl State.noConfusion
      ⟨p, rs, hp, ?_, hreads', fun h => absurd h Bool.false_ne_true⟩ ?_
    · show rs.map (·.report) = (c.consume parser (input.take n)).log.reports
      rw [reports_consume]
      exact hrs
    · show ∃ signals, c.log.signals = signals ++ (c.consume parser (input.take n)).log.reports.filterMap _ ∧ _
      rw [reports_consume]
      exact hc.earlier
  exact hleft.grows (grows_of_cons_cons rfl rfl rfl) (fun h => absurd h Bool.false_ne_true) State.noConfusion

/-- A packet that is expected is handled. -/
theorem InTouch.handle {c : MqttClient cfg} (hc : c.received.InTouch sent rest)
    (hlistening : c.state.isListening) (hsheltered : ∀ r ∈ (c.handle env).2.log, r.isSheltered) :
    (c.handle env).2.InTouch sent rest := by
  rcases handle_internal env c with hunexpected | hinternal
  · rw [hunexpected] at hsheltered
    have hfault : decide (Fault.unexpectedPacket ≠ .unexpectedPacket) :=
      hsheltered _ (List.mem_cons_of_mem _ List.mem_cons_self)
    exact absurd rfl (of_decide_eq_true hfault)
  · refine hc.grows hinternal (fun _ => ⟨hlistening, parser_handle c⟩) fun hopening => ?_
    rcases state_handle env c with hstate | hremains
    · rw [hstate] at hopening
      cases hopening
    · exact absurd hopening (hremains.ne_connectingTcp2 (State.ne_connectingTcp2 hlistening))

theorem listening_of_sheltered {c : MqttClient cfg} {parser : Parser cfg} {bytes : List Byte} {log : Log}
    (hsheltered : ∀ r ∈ log, r.isSheltered) (hlog : (c.consume parser bytes).log <:+ log) :
    c.state.isListening := by
  have hparsed := hsheltered _ (hlog.subset List.mem_cons_self)
  rcases of_decide_eq_true hparsed with hstate | hstate
  · rw [show c.state = .connectingMqtt from hstate]
    rfl
  · rw [show c.state = .connected from hstate]
    rfl

theorem checkIncomingLoop_inTouch (fuel : ℕ) {c : MqttClient cfg} {input : List Byte}
    (hfuel : input.length ≤ fuel) (hsound : c.parser.Sound) (hc : c.InTouch sent input)
    (hsheltered : ∀ r ∈ (c.checkIncomingLoop env fuel input).log, r.isSheltered) :
    (c.checkIncomingLoop env fuel input).InTouch sent [] := by
  induction fuel generalizing c input with
  | zero => exact hc.leave (.inr (List.length_eq_zero_iff.mp (Nat.le_zero.mp hfuel)))
  | succ fuel ih =>
    obtain rfl | ⟨byte, rest, rfl⟩ : input = [] ∨ ∃ byte rest, input = byte :: rest := by
      cases input with
      | nil => exact .inl rfl
      | cons byte rest => exact .inr ⟨byte, rest, rfl⟩
    · rw [checkIncomingLoop, if_pos rfl]
      exact hc
    obtain ⟨-, hpos, -, -⟩ := hsound.toOk.parseInput byte rest
    have hsound' := (hsound.parseInput (byte :: rest)).1
    rw [checkIncomingLoop, if_neg (List.cons_ne_nil _ _)] at hsheltered ⊢
    generalize hparse : c.parser.parseInput (byte :: rest) = parsed at hsheltered hpos hsound' ⊢
    obtain ⟨result, n, parser⟩ := parsed
    dsimp only at hsheltered hpos hsound' ⊢
    rw [← consume] at hsheltered ⊢
    have hfuel' : ((byte :: rest).drop n).length ≤ fuel := by
      rw [List.length_drop]
      omega
    cases result with
    | awaitData =>
      have hlistening := listening_of_sheltered hsheltered (grows_checkIncomingLoop env fuel _ _).log_suffix
      exact ih hfuel' hsound' (hc.awaitData hsound hlistening hparse) hsheltered
    | protocolError =>
      have hlistening := listening_of_sheltered hsheltered (internal_lost _ .protocolError).log_suffix
      exact (hc.protocolError hsound hlistening hparse).leave (.inl Bool.false_ne_true)
    | packet =>
      have hhandle : Grows Event.isInner _ ((c.consume parser ((byte :: rest).take n)).handle env).2 :=
        grows_handle _
      dsimp only at hsheltered ⊢
      split_ifs at hsheltered ⊢ with hmore
      · have hrest := grows_checkIncomingLoop env fuel ((c.consume parser ((byte :: rest).take n)).handle env).2
          ((byte :: rest).drop n)
        have hlistening := listening_of_sheltered hsheltered (hhandle.trans hrest).log_suffix
        have hpacket := hc.packet hsound hlistening hparse
        have hhandled := hpacket.handle hlistening fun r hr => hsheltered r (hrest.log_suffix.subset hr)
        exact ih hfuel' (by rw [parser_handle]; exact hsound') hhandled hsheltered
      · -- the rest of the buffer is dropped
        have hlistening := listening_of_sheltered hsheltered hhandle.log_suffix
        have hpacket := hc.packet hsound hlistening hparse
        exact (hpacket.handle hlistening hsheltered).leave (.inl (handle_leaves (Bool.eq_false_iff.mpr hmore)))

/-- A buffer is read. -/
theorem InTouch.read {c : MqttClient cfg} (hc : c.InTouch sent []) (hstate : c.state ≠ .connectingTcp2)
    (bytes : List Byte) : (c.note (.read bytes)).InTouch sent bytes := by
  have hreceived : (c.note (.read bytes)).log.received = c.log.received ++ bytes := rfl
  have hconsumed : (c.note (.read bytes)).log.consumed = c.log.consumed := List.append_nil _
  have hreports : (c.note (.read bytes)).log.reports = c.log.reports := List.append_nil _
  refine ⟨?_, fun hlistening => ?_, fun h => absurd h hstate, ?_, ?_⟩
  · rw [hreceived, hconsumed]
    exact hc.consumed.trans (List.prefix_append _ _)
  · rw [hreceived, hconsumed, hc.unread hlistening, List.append_nil]
  · rw [hconsumed, hreports]
    exact hc.reads
  · rw [hreports]
    exact hc.earlier

theorem checkIncoming_inTouch {c : MqttClient cfg} (hsound : c.parser.Sound) (hstate : c.state ≠ .connectingTcp2)
    (hc : c.InTouch sent []) (hsheltered : ∀ r ∈ (c.checkIncoming env).log, r.isSheltered) :
    (c.checkIncoming env).InTouch sent [] := by
  have hread : (c.note (.read (env.read c.tick))).asked.InTouch sent (env.read c.tick) :=
    (hc.read hstate _).apart (apart_asked _)
  rw [checkIncoming] at hsheltered ⊢
  dsimp only at hsheltered ⊢
  split_ifs at hsheltered ⊢ with hempty
  · exact hread.leave (.inr hempty)
  · refine checkIncomingLoop_inTouch _ le_rfl hsound ?_ hsheltered
    exact hread.apart ⟨rfl, grows_of_log rfl, .inl rfl⟩

/-! ### The state machine -/

theorem checks_inTouch {c : MqttClient cfg} (hsound : c.parser.Sound) (hstate : c.state ≠ .connectingTcp2)
    (hc : c.InTouch sent [])
    (hsheltered : ∀ r ∈ ((((c.checkOutbox env).checkIncoming env).checkPing env).checkTimeout env).log,
      r.isSheltered) :
    ((((c.checkOutbox env).checkIncoming env).checkPing env).checkTimeout env).InTouch sent [] := by
  have hsend : Apart c (c.checkOutbox env) := apart_checkOutbox c
  have htimers : Apart ((c.checkOutbox env).checkIncoming env)
      ((((c.checkOutbox env).checkIncoming env).checkPing env).checkTimeout env) :=
    (apart_checkPing _).trans (apart_checkTimeout _)
  have hincoming : ((c.checkOutbox env).checkIncoming env).InTouch sent [] :=
    checkIncoming_inTouch (hsend.parser.symm ▸ hsound) (hsend.remains.ne_connectingTcp2 hstate) (hc.apart hsend)
      fun r hr => hsheltered r (htimers.internal.log_suffix.subset hr)
  exact hincoming.apart htimers

theorem loopConnected_inTouch {c : MqttClient cfg} (hsound : c.parser.Sound) (hstate : c.state ≠ .connectingTcp2)
    (hc : c.InTouch sent []) (hsheltered : ∀ r ∈ (c.loopConnected env).log, r.isSheltered) :
    (c.loopConnected env).InTouch sent [] := by
  rw [loopConnected] at hsheltered ⊢
  split_ifs at hsheltered ⊢
  · exact checks_inTouch hsound hstate (hc.apart (apart_asked c)) hsheltered
  · exact hc.apart ((apart_asked c).trans (apart_lost _ _))

theorem loopConnectingMqtt_inTouch {c : MqttClient cfg} (hsound : c.parser.Sound)
    (hstate : c.state ≠ .connectingTcp2) (hc : c.InTouch sent [])
    (hsheltered : ∀ r ∈ (c.loopConnectingMqtt env).log, r.isSheltered) :
    (c.loopConnectingMqtt env).InTouch sent [] := by
  rw [loopConnectingMqtt] at hsheltered ⊢
  split_ifs at hsheltered ⊢
  · have hsend : Apart c (c.asked.sendPacket env).2 := (apart_asked c).trans (apart_sendPacket c.asked)
    have hping : Apart ((c.asked.sendPacket env).2.checkIncoming env)
        (((c.asked.sendPacket env).2.checkIncoming env).checkPing env) := apart_checkPing _
    have hincoming : ((c.asked.sendPacket env).2.checkIncoming env).InTouch sent [] :=
      checkIncoming_inTouch (hsend.parser.symm ▸ hsound) (hsend.remains.ne_connectingTcp2 hstate)
        (hc.apart hsend) fun r hr => hsheltered r (hping.internal.log_suffix.subset hr)
    exact hincoming.apart hping
  · exact hc.apart ((apart_asked c).trans (apart_lost _ _))
  · exact loopConnected_inTouch hsound hstate hc hsheltered

theorem apart_dueDisconnect (c : MqttClient cfg) : Apart c (c.dueDisconnect env) := by
  rcases dueDisconnect_cases env c with ⟨-, _, -, h⟩ | ⟨-, h⟩ | ⟨-, h⟩ <;> rw [h]
  · exact ⟨rfl, grows_of_cons rfl rfl, .inr Bool.false_ne_true⟩
  · exact ⟨rfl, grows_of_cons rfl rfl, .inl rfl⟩
  · exact ⟨rfl, grows_of_log rfl, .inl rfl⟩

theorem apart_loopDisconnectingTcp2 (c : MqttClient cfg) : Apart c (c.loopDisconnectingTcp2 env) := by
  rw [loopDisconnectingTcp2]
  dsimp only
  split_ifs
  · have hclosed : Apart c ({ c.asked.clearQueue 0 with bytesSent := 0 }.setState .disconnected) :=
      ⟨rfl, grows_of_cons_cons rfl rfl rfl, .inr Bool.false_ne_true⟩
    exact hclosed.trans (apart_callback _ _ rfl)
  · exact apart_asked c

/-- A connection that was made begins with a new packet. -/
theorem loopConnectingTcp2_inTouch {c : MqttClient cfg} (hstate : c.state = .connectingTcp2)
    (hc : c.InTouch sent []) : (c.loopConnectingTcp2 env).InTouch sent [] := by
  rw [loopConnectingTcp2]
  split_ifs
  · obtain ⟨hreceived, hconsumed, hreports⟩ := hc.opening hstate
    obtain ⟨signals, hsignals, hearlier⟩ := hc.earlier
    rw [hreports, List.filterMap_nil, List.append_nil] at hsignals
    refine inTouch_of_nil ?_ ?_ ?_ (fun _ => rfl) ?_
    · exact (List.append_nil _).trans hreceived
    · exact (List.append_nil _).trans hconsumed
    · exact (List.append_nil _).trans hreports
    · rw [← hsignals] at hearlier
      exact hearlier
  · dsimp only
    split_ifs
    · exact hc.apart ((apart_asked c).trans ((apart_asked _).trans (apart_lost _ _)))
    · exact hc.apart ((apart_asked c).trans (apart_asked _))

/-- A new connection: all that came in before was the server's. -/
theorem loopConnectingTcp1_inTouch (hfits : ∀ k, ∀ packet ∈ sent k, packet.Fits cfg) {c : MqttClient cfg}
    (hserved : c.log.IsServed sent) (hc : c.InTouch sent []) : (c.loopConnectingTcp1 env).InTouch sent [] := by
  have hagrees := hc.agrees hfits hserved
  rw [loopConnectingTcp1]
  split_ifs
  · refine loopConnectingTcp2_inTouch rfl ?_
    exact inTouch_of_nil rfl rfl rfl (fun h => absurd h Bool.false_ne_true) hagrees
  · exact inTouch_of_nil rfl rfl rfl (fun h => absurd h Bool.false_ne_true) hagrees

theorem loop_inTouch (hfits : ∀ k, ∀ packet ∈ sent k, packet.Fits cfg) {c : MqttClient cfg}
    (hsound : c.parser.Sound) (hserved : c.log.IsServed sent) (hc : c.InTouch sent [])
    (hsheltered : ∀ r ∈ (c.loop env).log, r.isSheltered) : (c.loop env).InTouch sent [] := by
  rw [loop] at hsheltered ⊢
  cases hstate : c.state <;> rw [hstate] at hsheltered <;> dsimp only at hsheltered ⊢
  case disconnected => exact hc
  case connectingTcp1 => exact loopConnectingTcp1_inTouch hfits hserved hc
  case connectingTcp2 => exact loopConnectingTcp2_inTouch hstate hc
  case connectingMqtt => exact loopConnectingMqtt_inTouch hsound (by rw [hstate]; decide) hc hsheltered
  case connected => exact loopConnected_inTouch hsound (by rw [hstate]; decide) hc hsheltered
  case disconnectingMqtt1 =>
    have hdue : Apart c (c.dueDisconnect env) := apart_dueDisconnect c
    rw [loopDisconnectingMqtt1_eq] at hsheltered ⊢
    exact checks_inTouch (hdue.parser.symm ▸ hsound) (hdue.remains.ne_connectingTcp2 (by rw [hstate]; decide))
      (hc.apart hdue) hsheltered
  case disconnectingMqtt2 => exact loopConnected_inTouch hsound (by rw [hstate]; decide) hc hsheltered
  case disconnectingTcp1 => exact hc.apart ⟨rfl, grows_of_cons_cons rfl rfl rfl, .inr Bool.false_ne_true⟩
  case disconnectingTcp2 => exact hc.apart (apart_loopDisconnectingTcp2 c)

/-! ### Runs -/

theorem isServed_of_suffix {log log' : Log} (h : log'.IsServed sent) (hsuffix : log <:+ log') :
    log.IsServed sent := by
  obtain ⟨new, rfl⟩ := hsuffix
  exact h.of_append

theorem run_inTouch (env : Env cfg) (hfits : ∀ k, ∀ packet ∈ sent k, packet.Fits cfg)
    (generatedClientId : CString) (actions : List Action)
    (hserved : ((new cfg generatedClientId).run env actions).log.IsServed sent)
    (hsheltered : ∀ r ∈ ((new cfg generatedClientId).run env actions).log, r.isSheltered) :
    ((new cfg generatedClientId).run env actions).InTouch sent [] := by
  suffices hrun : ∀ (c : MqttClient cfg), c.Ready → c.InTouch sent [] → (c.run env actions).log.IsServed sent →
      (∀ r ∈ (c.run env actions).log, r.isSheltered) → (c.run env actions).InTouch sent [] by
    refine hrun _ (new_ready generatedClientId) ?_ hserved hsheltered
    exact inTouch_of_nil rfl rfl rfl (fun h => absurd h Bool.false_ne_true) .nil
  clear hserved hsheltered
  induction actions with
  | nil => exact fun c _ hc _ _ => hc
  | cons action actions ih =>
    intro c hready hc hserved hsheltered
    have hact : Moves env c (c.act env action) := run_moves [action] hready
    have hready' := hact.ready hready
    have hrest : (c.act env action).log <:+ (c.run env (action :: actions)).log :=
      (run_moves actions hready').log_suffix
    refine ih _ hready' ?_ hserved hsheltered
    cases action with
    | call apiCall => exact hc.apart (apart_call c apiCall)
    | loop =>
      have hserved' := isServed_of_suffix hserved (hact.log_suffix.trans hrest)
      exact loop_inTouch hfits hready.sound hserved' hc fun r hr => hsheltered r (hrest.subset hr)

/-- **What came in** for the exchanges of quality 2 is what the server sent for them, as far as its packets came
in as a whole. -/
theorem run_agrees (env : Env cfg) (hfits : ∀ k, ∀ packet ∈ sent k, packet.Fits cfg)
    (generatedClientId : CString) (actions : List Action)
    (hserved : ((new cfg generatedClientId).run env actions).log.IsServed sent)
    (hsheltered : ∀ r ∈ ((new cfg generatedClientId).run env actions).log, r.isSheltered) :
    List.Forall₂ (Signal.Agrees Publish.EndsIn)
      ((((new cfg generatedClientId).run env actions).log.receivedPackets sent).filterMap (·.signal))
      ((new cfg generatedClientId).run env actions).log.signals :=
  (run_inTouch env hfits generatedClientId actions hserved hsheltered).agrees hfits hserved

end MqttClient

end EspMqttClient
