/-
  `espMqttClient` on Linux: what becomes of its sockets.

  A client has a socket in the states in which it counts on a connection, and none in which it does not.  It
  closes each of them once and nothing else (`run_owns`), and what it sends and receives goes over the one that
  it has (`run_talks`).  Since the transport is connected as long as it has a socket, the client learns of
  nothing but a `connect` that failed from it (`run_blames`), and it is through with a connection after two
  calls of `loop` (`run_leaves`).
-/
import EspMqttClient.MqttClient.Equiv.Inner
import EspMqttClient.MqttClient.PosixTransport
import Mathlib.Data.List.Perm.Subperm

namespace EspMqttClient

/-! ### The transport -/

/-- A new descriptor is nobody's. -/
theorem Descriptors.isOpen_lowest (d : Descriptors) : d.isOpen d.lowest = false := by
  rw [lowest]
  rcases hfind : (List.range (d.own.length + d.others.length + 1)).find? fun fd => !d.isOpen fd with _ | fd
  · -- more numbers than descriptors would be in use
    have hall : List.range (d.own.length + d.others.length + 1) ⊆ d.own ++ d.others := by
      intro fd hfd
      have hopen := List.find?_eq_none.mp hfind fd hfd
      simpa [isOpen, or_iff_not_imp_left] using hopen
    have hlength := (List.Nodup.subperm List.nodup_range hall).length_le
    rw [List.length_range, List.length_append] at hlength
    omega
  · have hfree := List.find?_some hfind
    simpa using hfree

theorem octet_htonl (n : UInt32) {i : ℕ} (hi : i < 4) : octet (htonl n) i = octet n (3 - i) := by
  obtain rfl | rfl | rfl | rfl : i = 0 ∨ i = 1 ∨ i = 2 ∨ i = 3 := by omega
  all_goals
    ext j hj
    simp [octet, htonl]
    grind

theorem htonl_htonl (n : UInt32) : htonl (htonl n) = n := by
  apply UInt32.eq_of_toBitVec_eq
  rw [htonl, octet_htonl n (by decide : 0 < 4), octet_htonl n (by decide : 1 < 4),
    octet_htonl n (by decide : 2 < 4), octet_htonl n (by decide : 3 < 4)]
  ext j hj
  simp [octet]
  grind

namespace ClientPosix

/-- The transport has the socket of its `_sockfd` or none, and it is nobody else's. -/
structure Tidy (p : ClientPosix) : Prop where
  own : p.descriptors.own = if p.connected then [p.sockfd.toNat] else []
  apart : ∀ fd ∈ p.descriptors.own, fd ∉ p.descriptors.others

variable {p : ClientPosix}

theorem disconnected_eq (p : ClientPosix) : p.disconnected = !p.connected := by
  rw [disconnected, connected, ← decide_not]
  exact decide_eq_decide.mpr Int.not_le.symm

theorem new_tidy (others : List ℕ) : (new others).Tidy := ⟨rfl, fun _ h => absurd h List.not_mem_nil⟩

theorem stop_of_disconnected (h : p.connected = false) : p.stop = p := by
  rw [connected, decide_eq_false_iff_not] at h
  rw [stop, if_neg h]

@[simp] theorem connected_stop (p : ClientPosix) : p.stop.connected = false := by
  rw [stop]
  split_ifs with h
  · rfl
  · simpa [connected] using h

/-- **`stop`** closes the own socket and nothing else. -/
theorem Tidy.stop (h : p.Tidy) : p.stop.descriptors = ⟨[], p.descriptors.others⟩ := by
  obtain ⟨own, apart⟩ := h
  rcases hconnected : p.connected
  · rw [stop_of_disconnected hconnected]
    rw [hconnected] at own
    exact congrArg (Descriptors.mk · _) own
  · rw [hconnected, if_pos rfl] at own
    have hsockfd : 0 ≤ p.sockfd := of_decide_eq_true hconnected
    rw [ClientPosix.stop, if_pos hsockfd]
    simp [Descriptors.close, own]

theorem Tidy.stopped (h : p.Tidy) : p.stop.Tidy where
  own := by rw [h.stop, connected_stop]; rfl
  apart := by simp [h.stop]

theorem Tidy.socket (h : p.Tidy) (hconnected : p.connected = false) (success : Bool) (host : SockAddr) :
    Tidy ⟨(p.descriptors.socket success).1, host, (p.descriptors.socket success).2⟩ ∧
      (p.descriptors.socket success).2.others = p.descriptors.others := by
  have hown := h.own
  rw [hconnected] at hown
  cases success with
  | false => exact ⟨⟨hown, h.apart⟩, rfl⟩
  | true =>
    have hfresh := p.descriptors.isOpen_lowest
    simp only [Descriptors.isOpen, decide_eq_false_iff_not, not_or] at hfresh
    refine ⟨⟨?_, ?_⟩, rfl⟩
    · simp [Descriptors.socket, connected, hown]
    · simp [Descriptors.socket, hown, hfresh.2]

/-- What `connect` leaves behind, whether it succeeds or not. -/
structure Connects (p : ClientPosix) (result : Bool × ClientPosix) : Prop where
  tidy : result.2.Tidy
  others : result.2.descriptors.others = p.descriptors.others
  connected : result.1 → result.2.connected

theorem Tidy.connectIp (h : p.Tidy) (sys : System) (tick : ℕ) (ip : UInt32) (port : UInt16) :
    p.Connects (p.connectIp sys tick ip port) := by
  -- a socket that is left over is closed first
  have hstop : (if p.connected then p.stop else p) = p.stop := by
    split_ifs with hconnected
    · rfl
    · exact (stop_of_disconnected (by simpa using hconnected)).symm
  rw [ClientPosix.connectIp, hstop]
  obtain ⟨htidy, hothers⟩ := h.stopped.socket (connected_stop p) (sys.socket tick) ⟨htonl ip, htons port⟩
  refine ⟨htidy, hothers.trans (by rw [h.stop]), fun hsuccess => ?_⟩
  simp only [decide_eq_true_eq] at hsuccess
  exact decide_eq_true hsuccess.1

/-- **`connect`** opens one socket at most, also when it fails after that. -/
theorem Tidy.connect (h : p.Tidy) (sys : System) (tick : ℕ) : p.Connects (p.connect sys tick) := by
  rw [ClientPosix.connect]
  split
  · exact h.connectIp sys tick _ _
  · rw [connectHost]
    split_ifs
    · exact ⟨h, rfl, nofun⟩
    · exact h.connectIp sys tick _ _

/-- A server that is set by its name is looked for at the first of its addresses that is not 0. -/
theorem connectHost_eq (p : ClientPosix) (sys : System) (tick : ℕ) {hostname : CString} {addr : UInt32}
    (hfind : (sys.getaddrinfo tick hostname).find? (· ≠ 0) = some addr) (port : UInt16) :
    (p.connectHost sys tick (some hostname) port).2.host = ⟨addr, htons port⟩ := by
  have hzero : ∀ n : UInt32, htonl n ≠ 0 ↔ n ≠ 0 := fun n =>
    not_congr ⟨fun h => by rw [← htonl_htonl n, h]; rfl, fun h => by rw [h]; rfl⟩
  have hip : hostToIP sys tick (some hostname) = htonl addr := by
    simp only [hostToIP, List.find?_map, Function.comp_def, hzero, hfind]
    rfl
  have hne : htonl addr ≠ 0 := (hzero addr).mpr (by simpa using List.find?_some hfind)
  rw [connectHost, hip, if_neg hne, connectIp]
  simp only [htonl_htonl]

end ClientPosix

/-! ### The client with its transport -/

/-- The states in which there is no socket. -/
def State.isUnplugged : State → Bool
  | .disconnected | .connectingTcp1 | .disconnectingTcp2 => true
  | _ => false

/-- Was the transport unable to connect just now? -/
def Log.unreached : Log → Bool
  | [] => false
  | r :: _ => match r.event with
    | .transportConnect success => !success
    | _ => false

/-- The transport is to blame only when it could not connect just now. -/
def Record.isBlamed (r : Record) (earlier : Log) : Bool := !r.event.isLoss || earlier.unreached

namespace EspMqttClientPosix

open MqttClient

variable {cfg : Config} {env : Env cfg} {sys : System}

/-- A transport as it is to be in this state. -/
structure Fits (state : State) (p : ClientPosix) : Prop where
  opened : isMqtt state → p.connected
  closed : state.isUnplugged → p.connected = false
  /-- `loop` does not stop there. -/
  passed : state ≠ .connectingTcp2

/-- The invariant of a run. -/
structure Wired (c : EspMqttClientPosix cfg) : Prop where
  ready : c.client.Ready
  tidy : c.clientPosix.Tidy
  fits : Fits c.client.state c.clientPosix
  blamed : Trace.Always (fun r earlier => r.isBlamed earlier) c.client.log

theorem fits_of_isUnplugged {state : State} (h : state.isUnplugged) {p : ClientPosix}
    (hp : p.connected = false) : Fits state p := by
  refine ⟨fun hmqtt => ?_, fun _ => hp, ?_⟩
  · cases state <;> simp [isMqtt, State.isUnplugged] at h hmqtt
  · rintro rfl
    cases h

theorem fits_of_isOnline {state : State} (h : state.isOnline) {p : ClientPosix} (hp : p.connected) :
    Fits state p := by
  refine ⟨fun _ => hp, fun hclosed => ?_, ?_⟩
  · cases state <;> simp [State.isOnline, State.isUnplugged] at h hclosed
  · rintro rfl
    cases h

/-- The socket of a connection that is to be broken off is open or not. -/
theorem fits_disconnectingTcp1 (p : ClientPosix) : Fits .disconnectingTcp1 p := by
  refine ⟨fun hmqtt => ?_, fun hclosed => ?_, by decide⟩
  · cases hmqtt
  · cases hclosed

theorem new_wired (generatedClientId : CString) (others : List ℕ) :
    (new cfg generatedClientId others).Wired where
  ready := new_ready generatedClientId
  tidy := ClientPosix.new_tidy others
  fits := fits_of_isUnplugged rfl rfl
  blamed := trivial

theorem Fits.call {client : MqttClient cfg} {p : ClientPosix} (h : Fits client.state p) (env : Env cfg)
    (apiCall : ApiCall) : Fits (client.call env apiCall).state p := by
  rcases state_call_cases env client apiCall with heq | ⟨hstate, heq⟩ | ⟨heq, -⟩ | ⟨hstate, heq⟩
  · exact heq ▸ h
  · rw [heq]
    exact fits_of_isUnplugged rfl (h.closed (by rw [hstate]; rfl))
  · rw [heq]
    exact fits_disconnectingTcp1 p
  · rw [heq]
    exact fits_of_isOnline rfl (h.opened (by rw [hstate]; rfl))

theorem blamed_of_grows {client client' : MqttClient cfg} (h : Grows (fun event => !event.isLoss) client client')
    (hblamed : Trace.Always (fun r earlier => r.isBlamed earlier) client.log) :
    Trace.Always (fun r earlier => r.isBlamed earlier) client'.log := by
  obtain ⟨new, hnew, hp⟩ := h
  rw [hnew]
  exact hblamed.append fun r hr earlier => (Bool.or_eq_true _ _).mpr (.inl (hp r hr))

/-- What the transport is after a call of `loop`. -/
theorem clientPosix_loop (c : EspMqttClientPosix cfg) : (c.loop env sys).clientPosix =
    if c.client.state = .connectingTcp1 then (c.clientPosix.connect sys c.client.tick).2
    else if c.client.state = .disconnectingTcp1 then c.clientPosix.stop else c.clientPosix := by
  rw [loop]
  cases c.client.state <;> rfl

/-- The client in `connectingTcp1`. -/
theorem Wired.loop_of_connectingTcp1 {c : EspMqttClientPosix cfg} (h : c.Wired)
    (hstate : c.client.state = .connectingTcp1) : (c.loop env sys).Wired := by
  have hconnects := h.tidy.connect sys c.client.tick
  rw [loop]
  simp only [hstate]
  generalize c.clientPosix.connect sys c.client.tick = result at hconnects ⊢
  obtain ⟨success, p⟩ := result
  have hloop : c.client.loop (transport env success p) =
      c.client.loopConnectingTcp1 (transport env success p) := by rw [MqttClient.loop, hstate]
  have hready : (c.client.loop (transport env success p)).Ready := h.ready.loop
  rw [hloop] at hready
  dsimp only
  rw [hloop]
  cases success with
  | true =>
    have hp : p.connected := hconnects.connected rfl
    have hdial : (transport env true p).connect c.client.tick := rfl
    have hup : ∀ tick, (transport env true p).connected tick := fun _ => hp
    rw [loopConnectingTcp1, if_pos hdial, loopConnectingTcp2, if_pos (hup _)] at hready ⊢
    exact ⟨hready, hconnects.tidy, fits_of_isOnline rfl hp, rfl, rfl, rfl, h.blamed⟩
  | false => exact ⟨hready, hconnects.tidy, fits_disconnectingTcp1 p, rfl, rfl, rfl, h.blamed⟩

/-- The client in `disconnectingTcp2`: nothing is waited for. -/
theorem Wired.loop_of_disconnectingTcp2 {c : EspMqttClientPosix cfg} (h : c.Wired) (env : Env cfg) (sys : System)
    (hstate : c.client.state = .disconnectingTcp2) :
    (c.loop env sys).client =
      ({ c.client.asked.clearQueue 0 with bytesSent := 0 }.setState .disconnected).callback
        (transport env false c.clientPosix) .onDisconnect (.onDisconnect c.client.disconnectReason) := by
  have hdown : ∀ tick, (transport env false c.clientPosix).disconnected tick := by
    intro tick
    show c.clientPosix.disconnected
    rw [c.clientPosix.disconnected_eq, h.fits.closed (by rw [hstate]; rfl)]
    rfl
  rw [loop]
  simp only [hstate, MqttClient.loop]
  rw [loopDisconnectingTcp2, if_pos (hdown _)]
  rfl

theorem ready_loop {c : EspMqttClientPosix cfg} (h : c.Wired) (env : Env cfg) (sys : System) :
    (c.loop env sys).client.Ready := by
  rw [loop]
  split
  · exact h.ready.loop
  · exact h.ready.loop
  · exact h.ready.loop

/-- **A call of `loop`.** -/
theorem Wired.loop {c : EspMqttClientPosix cfg} (h : c.Wired) (env : Env cfg) (sys : System) :
    (c.loop env sys).Wired := by
  by_cases hmqtt : isMqtt c.client.state
  · have hp := h.fits.opened hmqtt
    obtain ⟨honline, hgrows⟩ :=
      loop_of_connected (transport env false c.clientPosix) h.ready hmqtt fun _ => hp
    have hloop : c.loop env sys = ⟨c.client.loop (transport env false c.clientPosix), c.clientPosix⟩ := by
      rw [EspMqttClientPosix.loop]
      cases hstate : c.client.state <;> rw [hstate] at hmqtt <;> first | rfl | cases hmqtt
    rw [hloop]
    exact ⟨h.ready.loop, h.tidy, fits_of_isOnline honline hp, blamed_of_grows hgrows h.blamed⟩
  cases hstate : c.client.state <;> rw [hstate] at hmqtt
  case disconnected =>
    have hloop : c.loop env sys = c := by
      rw [EspMqttClientPosix.loop]
      simp only [hstate, MqttClient.loop]
    rwa [hloop]
  case connectingTcp1 => exact h.loop_of_connectingTcp1 hstate
  case connectingTcp2 => exact absurd hstate h.fits.passed
  case disconnectingTcp1 =>
    have hready : (c.client.loop (transport env false c.clientPosix)).Ready := h.ready.loop
    rw [MqttClient.loop, hstate] at hready
    rw [EspMqttClientPosix.loop]
    simp only [hstate, MqttClient.loop]
    have hfits := fits_of_isUnplugged (show State.disconnectingTcp2.isUnplugged from rfl)
      (ClientPosix.connected_stop c.clientPosix)
    exact ⟨hready, h.tidy.stopped, hfits, rfl, rfl, h.blamed⟩
  case disconnectingTcp2 =>
    have hp : c.clientPosix.connected = false := h.fits.closed (by rw [hstate]; rfl)
    have htransport : (c.loop env sys).clientPosix = c.clientPosix := by
      rw [clientPosix_loop, hstate]
      rfl
    have hclient := h.loop_of_disconnectingTcp2 env sys hstate
    refine ⟨ready_loop h env sys, htransport ▸ h.tidy, ?_, ?_⟩
    · -- a user may call `connect` in the callback
      rw [htransport, hclient]
      refine callback_keeps (p := fun client => Fits client.state c.clientPosix) (fun _ _ h => h.call _ _) ?_
      rintro client hclosed
      rw [hclosed]
      exact fits_of_isUnplugged rfl hp
    · rw [hclient]
      refine blamed_of_grows ((callback_inner _ _ rfl).imp not_isLoss_of_isInner) ?_
      exact ⟨rfl, rfl, h.blamed⟩
  all_goals exact absurd rfl hmqtt

/-- **One action.** -/
theorem Wired.act {c : EspMqttClientPosix cfg} (h : c.Wired) (env : Env cfg) (sys : System) (action : Action) :
    (c.act env sys action).Wired := by
  cases action with
  | call apiCall =>
    exact ⟨(call_steps c.client apiCall).moves.ready h.ready, h.tidy, h.fits.call env apiCall,
      blamed_of_grows ((grows_call c.client apiCall).imp fun _ h =>
        not_isLoss_of_isInner _ (isInner_of_isCall _ h)) h.blamed⟩
  | loop => exact h.loop env sys
  | openOther =>
    refine ⟨h.ready, ⟨h.tidy.own, fun fd hfd => ?_⟩, ⟨h.fits.opened, h.fits.closed, h.fits.passed⟩, h.blamed⟩
    have hfree := c.clientPosix.descriptors.isOpen_lowest
    simp only [Descriptors.isOpen, decide_eq_false_iff_not, not_or] at hfree
    intro hmem
    rcases List.mem_cons.mp hmem with rfl | hmem
    · exact hfree.1 hfd
    · exact h.tidy.apart fd hfd hmem
  | closeOther fd =>
    refine ⟨h.ready, ⟨h.tidy.own, fun fd' hfd' hmem => ?_⟩, ⟨h.fits.opened, h.fits.closed, h.fits.passed⟩,
      h.blamed⟩
    exact h.tidy.apart fd' hfd' (List.mem_of_mem_erase hmem)

theorem Wired.run {c : EspMqttClientPosix cfg} (h : c.Wired) (env : Env cfg) (sys : System)
    (actions : List Action) : (c.run env sys actions).Wired := by
  induction actions generalizing c with
  | nil => exact h
  | cons action actions ih => exact ih (h.act env sys action)

/-! ### Runs -/

/-- No action of the client's touches what the rest of the program opened. -/
theorem Wired.mem_others {c : EspMqttClientPosix cfg} (h : c.Wired) {fd : ℕ}
    (hfd : fd ∈ c.clientPosix.descriptors.others) {action : Action} (haction : action ≠ .closeOther fd) :
    fd ∈ (c.act env sys action).clientPosix.descriptors.others := by
  cases action with
  | call apiCall => exact hfd
  | loop =>
    show fd ∈ (c.loop env sys).clientPosix.descriptors.others
    rw [clientPosix_loop]
    split_ifs
    · rwa [(h.tidy.connect sys c.client.tick).others]
    · rwa [h.tidy.stop]
    · exact hfd
  | openOther => exact List.mem_cons_of_mem _ hfd
  | closeOther fd' =>
    have hne : fd ≠ fd' := by
      rintro rfl
      exact haction rfl
    exact (List.mem_erase_of_ne hne).mpr hfd

theorem Wired.mem_others_run {c : EspMqttClientPosix cfg} (h : c.Wired) {fd : ℕ}
    (hfd : fd ∈ c.clientPosix.descriptors.others) (later : List Action) (hlater : .closeOther fd ∉ later) :
    fd ∈ (c.run env sys later).clientPosix.descriptors.others := by
  induction later generalizing c with
  | nil => exact hfd
  | cons action later ih =>
    rw [List.mem_cons, not_or] at hlater
    exact ih (h.act env sys action) (h.mem_others hfd fun heq => hlater.1 heq.symm) hlater.2

/-- The sockets that are open are those that the state calls for, and they are the client's own. -/
structure Owns (c : EspMqttClientPosix cfg) : Prop where
  /-- One socket in the states in which the client counts on a connection. -/
  opened : isMqtt c.client.state →
    c.clientPosix.connected ∧ c.clientPosix.descriptors.own = [c.clientPosix.sockfd.toNat]
  /-- None in the states before and after. -/
  closed : c.client.state.isUnplugged → c.clientPosix.descriptors.own = []
  /-- Never two, and none that is lost sight of: one or none in `disconnectingTcp1`, which is to close it. -/
  own : c.clientPosix.descriptors.own = if c.clientPosix.connected then [c.clientPosix.sockfd.toNat] else []
  apart : ∀ fd ∈ c.clientPosix.descriptors.own, fd ∉ c.clientPosix.descriptors.others

theorem Wired.owns {c : EspMqttClientPosix cfg} (h : c.Wired) : c.Owns where
  opened hstate := ⟨h.fits.opened hstate, by rw [h.tidy.own, if_pos (h.fits.opened hstate)]⟩
  closed hstate := by rw [h.tidy.own, h.fits.closed hstate]; rfl
  own := h.tidy.own
  apart := h.tidy.apart

theorem items_clearQueue_two (c : MqttClient cfg) : (c.clearQueue 2).outbox.items = [] := by
  show CursorList.items (.sweep (keeps 2) c.outbox.size 0 c.outbox) = []
  rw [CursorList.sweep_eq_filter, CursorList.items_filter, List.filter_eq_nil_iff]
  exact fun item _ => Bool.false_ne_true

variable (env sys)

/-- A client after a run. -/
def after (generatedClientId : CString) (others : List ℕ) (actions : List Action) : EspMqttClientPosix cfg :=
  (new cfg generatedClientId others).run env sys actions

theorem after_wired (generatedClientId : CString) (others : List ℕ) (actions : List Action) :
    (after env sys generatedClientId others actions).Wired :=
  (new_wired generatedClientId others).run env sys actions

/-- **Descriptors.**  Whatever the user calls and the system answers, and whatever the rest of the program
does with its own descriptors meanwhile, the client has the one socket that its state calls for.  It closes
nothing that the rest of the program opened, and when it is destroyed it leaves nothing open. -/
theorem run_owns (generatedClientId : CString) (others : List ℕ) (actions later : List Action) :
    (after env sys generatedClientId others actions).Owns ∧
      (∀ fd ∈ (after env sys generatedClientId others actions).clientPosix.descriptors.others,
        .closeOther fd ∉ later → fd ∈
          ((after env sys generatedClientId others actions).run env sys later).clientPosix.descriptors.others) ∧
      (after env sys generatedClientId others actions).destroy.clientPosix.descriptors =
        ⟨[], (after env sys generatedClientId others actions).clientPosix.descriptors.others⟩ ∧
      (after env sys generatedClientId others actions).destroy.client.outbox.items = [] := by
  have hwired := after_wired env sys generatedClientId others actions
  exact ⟨hwired.owns, fun fd hfd hlater => hwired.mem_others_run hfd later hlater, hwired.tidy.stop,
    items_clearQueue_two _⟩

theorem not_isTalk_of_isInner (event : Event) (h : event.isInner) : !event.isTalk := by
  rw [Event.isInner, Bool.and_eq_true] at h
  exact h.1

/-- Bytes are sent and received over the socket that is open, or not at all. -/
theorem Wired.talks {c : EspMqttClientPosix cfg} (h : c.Wired) (env : Env cfg) (sys : System) (action : Action) :
    (c.clientPosix.connected ∧ (c.act env sys action).clientPosix = c.clientPosix) ∨
      Grows (fun event => !event.isTalk) c.client (c.act env sys action).client := by
  have hinner : ∀ {client : MqttClient cfg}, Grows Event.isInner c.client client →
      Grows (fun event => !event.isTalk) c.client client := fun h => h.imp not_isTalk_of_isInner
  cases action with
  | call apiCall => exact .inr (hinner ((grows_call c.client apiCall).imp isInner_of_isCall))
  | openOther => exact .inr (grows_of_log rfl)
  | closeOther fd => exact .inr (grows_of_log rfl)
  | loop =>
    by_cases hmqtt : isMqtt c.client.state
    · refine .inl ⟨h.fits.opened hmqtt, ?_⟩
      show (c.loop env sys).clientPosix = c.clientPosix
      rw [clientPosix_loop]
      cases hstate : c.client.state <;> rw [hstate] at hmqtt <;> first | rfl | cases hmqtt
    refine .inr ?_
    show Grows (fun event => !event.isTalk) c.client (c.loop env sys).client
    cases hstate : c.client.state <;> rw [hstate] at hmqtt
    case disconnectingTcp2 =>
      rw [h.loop_of_disconnectingTcp2 env sys hstate]
      exact hinner (Grows.trans (grows_of_cons_cons rfl rfl rfl) (callback_inner _ _ rfl))
    case disconnected =>
      rw [EspMqttClientPosix.loop]
      simp only [hstate, MqttClient.loop]
      exact grows_of_log rfl
    case connectingTcp1 =>
      rw [EspMqttClientPosix.loop]
      simp only [hstate, MqttClient.loop, loopConnectingTcp1, loopConnectingTcp2]
      split_ifs
      · exact ⟨[_, _, _], rfl, by simp [Event.isTalk]⟩
      · exact ⟨[_, _, _, _], rfl, by simp [Event.isTalk]⟩
      · exact grows_of_cons_cons rfl rfl rfl
      · exact ⟨[_, _, _], rfl, by simp [Event.isTalk]⟩
    case connectingTcp2 => exact absurd hstate h.fits.passed
    case disconnectingTcp1 =>
      rw [EspMqttClientPosix.loop]
      simp only [hstate, MqttClient.loop]
      exact grows_of_cons_cons rfl rfl rfl
    all_goals exact absurd rfl hmqtt

/-- **The transport is to blame** only for a connection that could not be made: of one that is gone the
client learns by its keepalive time or not at all.  Nothing is ever sent to or received from a descriptor
that is closed or somebody else's. -/
theorem run_blames (generatedClientId : CString) (others : List ℕ) (actions : List Action) (action : Action) :
    Trace.Always (fun r earlier => r.isBlamed earlier)
        (after env sys generatedClientId others actions).client.log ∧
      (((after env sys generatedClientId others actions).clientPosix.connected ∧
          ((after env sys generatedClientId others actions).act env sys action).clientPosix =
            (after env sys generatedClientId others actions).clientPosix) ∨
        Grows (fun event => !event.isTalk) (after env sys generatedClientId others actions).client
          ((after env sys generatedClientId others actions).act env sys action).client) := by
  have hwired := after_wired env sys generatedClientId others actions
  exact ⟨hwired.blamed, hwired.talks env sys action⟩

/-! ### Breaking off a connection -/

variable {env sys}

/-- A user who calls these functions. -/
def calling (apiCalls : List ApiCall) : List Action := apiCalls.map .call

theorem run_calling (c : EspMqttClientPosix cfg) (apiCalls : List ApiCall) : c.run env sys (calling apiCalls) =
    { c with client := apiCalls.foldl (fun client apiCall => client.call env apiCall) c.client } := by
  induction apiCalls generalizing c with
  | nil => rfl
  | cons apiCall apiCalls ih => exact ih _

/-- Nothing that a user calls keeps a client from leaving. -/
theorem state_calls_of_leaving {client : MqttClient cfg} {state : State} (hstate : client.state = state)
    (hleaving : state = .disconnectingTcp1 ∨ state = .disconnectingTcp2) (apiCalls : List ApiCall) :
    (apiCalls.foldl (fun client apiCall => client.call env apiCall) client).state = state := by
  refine calls_keep (p := fun client => client.state = state) (fun client apiCall hstate => ?_) apiCalls hstate
  subst hstate
  rcases state_call_cases env client apiCall with heq | ⟨h, -⟩ | ⟨heq, h⟩ | ⟨h, -⟩
  · exact heq
  · rw [h] at hleaving
    rcases hleaving with hleaving | hleaving <;> cases hleaving
  · rw [heq]
    exact (hleaving.resolve_right h).symm
  · rw [h] at hleaving
    rcases hleaving with hleaving | hleaving <;> cases hleaving

theorem not_isOnDisconnect_of_isCall (event : Event) (h : event.isCall) : !event.isOnDisconnect := by
  cases event <;> first | rfl | cases h

theorem onDisconnects_of_grows {client client' : MqttClient cfg}
    (h : Grows (fun event => !event.isOnDisconnect) client client') :
    client'.log.onDisconnects = client.log.onDisconnects := by
  obtain ⟨new, hnew, hp⟩ := h
  have hzero : new.countP (·.event.isOnDisconnect) = 0 := by
    rw [List.countP_eq_zero]
    intro r hr
    simpa using hp r hr
  rw [hnew, Log.onDisconnects, List.countP_append, hzero, Nat.zero_add, Log.onDisconnects]

theorem onDisconnects_calls (client : MqttClient cfg) (apiCalls : List ApiCall) :
    (apiCalls.foldl (fun client apiCall => client.call env apiCall) client).log.onDisconnects =
      client.log.onDisconnects := by
  refine calls_keep (p := fun client' => client'.log.onDisconnects = client.log.onDisconnects)
    (fun client' apiCall h => ?_) apiCalls rfl
  exact (onDisconnects_of_grows ((grows_call client' apiCall).imp not_isOnDisconnect_of_isCall)).trans h

variable (env sys)

/-- **A connection that is broken off** is over after two calls of `loop`, whatever the user calls before each
of them: the first closes the socket, and only the second calls `onDisconnect`. -/
theorem run_leaves (generatedClientId : CString) (others : List ℕ) (actions : List Action)
    {c : EspMqttClientPosix cfg} (hrun : after env sys generatedClientId others actions = c)
    (hstate : c.client.state = .disconnectingTcp1) (apiCalls apiCalls' : List ApiCall) :
    ∃ c', c.run env sys (calling apiCalls ++ .loop :: calling apiCalls') = c' ∧
      c'.client.state = .disconnectingTcp2 ∧ c'.clientPosix.descriptors.own = [] ∧
      c'.client.log.onDisconnects = c.client.log.onDisconnects ∧
      (c'.loop env sys).client.log.onDisconnects = c.client.log.onDisconnects + 1 ∧
      ∃ new, (c'.loop env sys).client.log = new ++ c'.client.log ∧
        .onDisconnect c'.client.disconnectReason ∈ new.map Record.event := by
  have hwired : c.Wired := hrun ▸ after_wired env sys generatedClientId others actions
  -- up to the first call of `loop`
  set c₁ := c.run env sys (calling apiCalls) with hc₁
  have hwired₁ : c₁.Wired := hwired.run env sys _
  have hstate₁ : c₁.client.state = .disconnectingTcp1 := by
    rw [hc₁, run_calling]
    exact state_calls_of_leaving hstate (.inl rfl) apiCalls
  have hlog₁ : c₁.client.log.onDisconnects = c.client.log.onDisconnects := by
    rw [hc₁, run_calling]
    exact onDisconnects_calls c.client apiCalls
  -- up to the second
  set c₂ := c₁.loop env sys with hc₂
  have hwired₂ : c₂.Wired := hwired₁.loop env sys
  have hclient₂ : c₂.client = (c₁.client.note .stop).setState .disconnectingTcp2 := by
    rw [hc₂, loop]
    simp only [hstate₁, MqttClient.loop]
  set c₃ := c₂.run env sys (calling apiCalls') with hc₃
  have hwired₃ : c₃.Wired := hwired₂.run env sys _
  have hstate₃ : c₃.client.state = .disconnectingTcp2 := by
    rw [hc₃, run_calling]
    exact state_calls_of_leaving (by rw [hclient₂]; rfl) (.inr rfl) apiCalls'
  have hlog₃ : c₃.client.log.onDisconnects = c.client.log.onDisconnects := by
    rw [hc₃, run_calling]
    refine (onDisconnects_calls c₂.client apiCalls').trans (Eq.trans ?_ hlog₁)
    rw [hclient₂]
    exact onDisconnects_of_grows (grows_of_cons_cons rfl rfl rfl)
  refine ⟨c₃, by rw [run, List.foldl_append]; rfl, hstate₃, ?_, hlog₃, ?_⟩
  · exact hwired₃.owns.closed (by rw [hstate₃]; rfl)
  · -- `onDisconnect` is called first, and the calls that it makes do not call it again
    rw [hwired₃.loop_of_disconnectingTcp2 env sys hstate₃]
    set closed : MqttClient cfg := { c₃.client.asked.clearQueue 0 with bytesSent := 0 }.setState .disconnected
      with hclosed
    have hgrows : Grows (fun event => !event.isOnDisconnect) _ (closed.callback
        (transport env false c₃.clientPosix) .onDisconnect (.onDisconnect c₃.client.disconnectReason)) :=
      grows_calls closed .onDisconnect _ (fun _ => rfl) not_isOnDisconnect_of_isCall
    refine ⟨?_, ?_⟩
    · rw [onDisconnects_of_grows hgrows, ← hlog₃]
      exact List.countP_cons_of_pos rfl
    · obtain ⟨new, hnew, -⟩ := hgrows
      have hlog : ∃ r before, (closed.note (.onDisconnect c₃.client.disconnectReason)).log =
          r :: before ++ c₃.client.log ∧ r.event = .onDisconnect c₃.client.disconnectReason :=
        ⟨_, [_, _], rfl, rfl⟩
      obtain ⟨r, before, hlog, hr⟩ := hlog
      refine ⟨new ++ r :: before, by rw [hnew, hlog, List.append_assoc], ?_⟩
      rw [List.map_append, List.map_cons, hr]
      exact List.mem_append_right _ List.mem_cons_self

/-- A user has connected and breaks the connection off. -/
def brokenOff : EspMqttClientPosix .linux :=
  after (Script.env .linux {}) ⟨fun _ => true, fun _ _ => true, fun _ _ => [], fun _ => .ip 1 1883⟩
    ⟨[0x65], by decide⟩ [0, 1, 2]
    [.call .connect, .loop, .call (.disconnect true)]

theorem run_leaves_brokenOff : brokenOff.clientPosix.descriptors = ⟨[3], [0, 1, 2]⟩ ∧
    ∃ c' : EspMqttClientPosix .linux,
      c'.client.state = .disconnectingTcp2 ∧ c'.clientPosix.descriptors.own = [] := by
  obtain ⟨c', -, hstate, hown, -⟩ := run_leaves (Script.env .linux {})
    ⟨fun _ => true, fun _ _ => true, fun _ _ => [], fun _ => .ip 1 1883⟩ ⟨[0x65], by decide⟩ [0, 1, 2]
    [.call .connect, .loop, .call (.disconnect true)] (rfl : _ = brokenOff) (by decide) [] [.connect]
  exact ⟨by decide, c', hstate, hown⟩

end EspMqttClientPosix

end EspMqttClient
