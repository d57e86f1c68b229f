/-
  What becomes of the segments that the TCP library hands over.

  A call of `loop` reads once, or not at all, depending on the state and on whether the transport is connected
  (`loop_reads`).  What it reads is a segment whole only when it is called for it and the segment fits in the
  buffer.  Otherwise bytes are lost, or they stay behind for a later call, when the segment is freed
  (`clean_act_iff`).
-/
import EspMqttClient.MqttClient.AsyncTransport
import EspMqttClient.MqttClient.Equiv.Loss

namespace EspMqttClient

namespace MqttClient

variable {cfg : Config} {env : Env cfg}

/-! ### How often is read -/

/-- Does `loop` come to `_checkIncoming`? -/
def reads (env : Env cfg) (c : MqttClient cfg) : Bool :=
  isMqtt c.state ∧ (c.state = .disconnectingMqtt1 ∨ env.connected c.tick)

theorem reads_of_grows {c c' : MqttClient cfg} (h : Grows Event.isLocal c c') : c'.log.reads = c.log.reads := by
  obtain ⟨new, hnew, hlocal⟩ := h
  have hnone : Log.reads new = 0 := by
    rw [Log.reads, List.countP_eq_zero]
    rintro ⟨event, _, _, _, _⟩ hr hread
    have hevent : event.isLocal := hlocal _ hr
    cases event with
    | read => cases hevent
    | _ => cases hread
  rw [hnew, Log.reads, List.countP_append, ← Log.reads, hnone, Nat.zero_add, Log.reads]

theorem reads_of_steps {c c' : MqttClient cfg} (h : Steps env c c') : c'.log.reads = c.log.reads :=
  reads_of_grows h.grows

theorem reads_checkIncomingLoop (fuel : ℕ) {greeted : Prop} {c : MqttClient cfg} (input : List Byte)
    (h : c.Live greeted) (hheard : c.Heard) : (c.checkIncomingLoop env fuel input).log.reads = c.log.reads := by
  induction fuel generalizing c input with
  | zero => rfl
  | succ fuel ih =>
    rw [checkIncomingLoop]
    split_ifs
    · rfl
    obtain ⟨hsound, hid⟩ := h.sound.parseInput input
    dsimp only
    generalize c.parser.parseInput input = parsed at hsound hid ⊢
    obtain ⟨result, bytesParsed, parser⟩ := parsed
    dsimp only at hsound hid ⊢
    have hparsed : ({ c with parser }.note (.parsed (input.take bytesParsed))).log.reads = c.log.reads := rfl
    have hlive : ({ c with parser }.note (.parsed (input.take bytesParsed))).Live greeted :=
      ⟨h.online, hsound, h.greeted⟩
    cases result with
    | awaitData => exact (ih (input.drop bytesParsed) hlive hheard).trans hparsed
    | packet =>
      obtain ⟨hsteps, hlive', hheard'⟩ := handle_steps hlive hheard (hid rfl)
      dsimp only
      split_ifs with hmore
      · exact (ih (input.drop bytesParsed) hlive' (hheard' hmore)).trans ((reads_of_steps hsteps).trans hparsed)
      · exact (reads_of_steps hsteps).trans hparsed
    | protocolError => exact hparsed

theorem reads_checkIncoming {greeted : Prop} {c : MqttClient cfg} (h : c.Live greeted) (hheard : c.Heard) :
    (c.checkIncoming env).log.reads = c.log.reads + 1 := by
  rw [checkIncoming]
  dsimp only
  have hread : (c.note (.read (env.read c.tick))).asked.log.reads = c.log.reads + 1 :=
    List.countP_cons_of_pos rfl
  split_ifs
  · exact hread
  · have hlive : { (c.note (.read (env.read c.tick))).asked with
        lastServerActivity := (c.note (.read (env.read c.tick))).asked.millis env }.asked.Live greeted :=
      ⟨h.online, h.sound, h.greeted⟩
    exact (reads_checkIncomingLoop _ _ hlive hheard).trans hread

/-- The four checks of a connected client. -/
theorem reads_checks {c : MqttClient cfg} (h : c.Live (cfg.waitForConnack = true))
    (hopen : c.state ≠ .disconnectingTcp1) :
    ((((c.checkOutbox env).checkIncoming env).checkPing env).checkTimeout env).log.reads = c.log.reads + 1 := by
  obtain ⟨h1, hlive1⟩ := checkOutbox_steps env h hopen
  have hheard : (c.checkOutbox env).Heard := fun hwait => .inr (hlive1.greeted hwait)
  have hlive2 := (checkIncoming_moves env hlive1 hheard).2
  obtain ⟨h3, hlive3⟩ := checkPing_steps env hlive2
  rw [reads_of_steps (checkTimeout_steps hlive3), reads_of_steps h3, reads_checkIncoming hlive1 hheard,
    reads_of_steps h1]

theorem reads_loopConnected {c : MqttClient cfg} (h : c.Live (cfg.waitForConnack = true))
    (hopen : c.state ≠ .disconnectingTcp1) :
    (c.loopConnected env).log.reads = c.log.reads + if env.connected c.tick then 1 else 0 := by
  rw [loopConnected]
  split_ifs
  · exact reads_checks (h.request rfl rfl id) hopen
  · rfl

/-- **A call of `loop`** reads once or not at all. -/
theorem loop_reads {c : MqttClient cfg} (env : Env cfg) (h : c.Ready) :
    (c.loop env).log.reads = c.log.reads + if c.reads env then 1 else 0 := by
  have hconnected (hstate : c.state = .connected ∨ c.state = .disconnectingMqtt2) :
      (c.loopConnected env).log.reads = c.log.reads + if c.reads env then 1 else 0 := by
    have hreads : c.reads env = env.connected c.tick := by
      rcases hstate with hstate | hstate <;> simp [reads, hstate, isMqtt]
    have hwelcome : isWelcome c.state := by rcases hstate with hstate | hstate <;> rw [hstate] <;> rfl
    rw [hreads]
    exact reads_loopConnected (h.live hwelcome) (isOnline_of_isWelcome hwelcome).2
  rw [loop]
  split
  case h_4 hstate =>
    have hreads : c.reads env = env.connected c.tick := by simp [reads, hstate, isMqtt]
    have honline : c.state.isOnline := by rw [hstate]; rfl
    rw [hreads, loopConnectingMqtt]
    -- the CONNECT is sent by `loop` itself, or by `_checkOutbox`
    by_cases hwait : cfg.waitForConnack
    · rw [if_pos hwait]
      split_ifs
      · have hlive : c.asked.Live False := ⟨honline, h.sound, False.elim⟩
        have hsent := sendPacket_live env hlive
        have hheard : (c.asked.sendPacket env).2.Heard := fun _ => .inl ((state_sendPacket c.asked).trans hstate)
        have hlive2 := (checkIncoming_moves env hsent hheard).2
        dsimp only
        rw [reads_of_steps (checkPing_steps env hlive2).1, reads_checkIncoming hsent hheard,
          reads_of_grows (grows_sendPacket c.asked fun _ => rfl)]
        rfl
      · rfl
    · rw [if_neg hwait]
      exact reads_loopConnected ⟨honline, h.sound, fun h => absurd h hwait⟩ (by simp [hstate])
  case h_5 hstate => exact hconnected (.inl hstate)
  case h_7 hstate => exact hconnected (.inr hstate)
  case h_6 hstate =>
    -- this state does not ask whether the transport is connected
    have hreads : c.reads env := by simp [reads, hstate, isMqtt]
    have hlive : c.Live (cfg.waitForConnack = true) := h.live (by rw [hstate]; rfl)
    have hopen : c.state ≠ .disconnectingTcp1 := by simp [hstate]
    rw [hreads, if_pos rfl, loopDisconnectingMqtt1]
    split_ifs with hempty
    · rcases addPacket_cases env c fun alloc => Packet.control cfg alloc PacketType.DISCONNECT with
        ⟨packet, hbuild, hadd⟩ | ⟨-, hadd⟩
      · simp only [hadd]
        exact reads_checks (hlive.moveTo rfl rfl id) State.noConfusion
      · simp only [hadd]
        exact reads_checks (hlive.request rfl rfl id) hopen
    · exact reads_checks hlive hopen
  case h_1 hstate => simp [reads, hstate, isMqtt]
  case h_2 hstate =>
    have hsilent : c.reads env = false := by simp [reads, hstate, isMqtt]
    rw [hsilent, if_neg Bool.false_ne_true, loopConnectingTcp1]
    split_ifs
    · exact (reads_of_steps (loopConnectingTcp2_steps rfl)).trans rfl
    · rfl
  case h_3 hstate =>
    rw [reads_of_steps (loopConnectingTcp2_steps hstate)]
    simp [reads, hstate, isMqtt]
  case h_8 hstate =>
    have hsilent : c.reads env = false := by simp [reads, hstate, isMqtt]
    rw [hsilent]
    rfl
  case h_9 hstate =>
    have hsilent : c.reads env = false := by simp [reads, hstate, isMqtt]
    rw [hsilent, if_neg Bool.false_ne_true, loopDisconnectingTcp2]
    split_ifs
    · exact reads_of_steps (((steps_asked c).tail (.close (c := c.asked) hstate)).trans (callback_steps _ _ _))
    · rfl

end MqttClient

/-! ### Nothing is lost and nothing invented -/

namespace Happening

def isConnection : Happening → Bool
  | .connection => true
  | _ => false

/-- The bytes of a segment that comes to a client that counts on its connection. -/
def segmentBytes : Happening → List Byte
  | .segment data state => if MqttClient.isMqtt state then data else []
  | _ => []

def readBytes : Happening → List Byte
  | .read bytes _ => bytes
  | _ => []

end Happening

/-- In this connection the bytes of the segments were read, in order and each once, and no byte was ever taken
from a segment that is not valid any more. -/
structure Lossless (history : List Happening) : Prop where
  exact : Trace.gather Happening.isConnection Happening.readBytes history =
    Trace.gather Happening.isConnection Happening.segmentBytes history
  valid : ∀ bytes, .read bytes false ∈ history → bytes = []

namespace EspMqttClientAsync

variable {cfg : Config} {env : AsyncEnv cfg} {freed : ℕ → ℕ → Byte}

/-- Does a segment come to a client that reads it, and fit in the buffer? -/
def heeds (env : AsyncEnv cfg) (c : EspMqttClientAsync cfg) : Action → Bool
  | .onDataCb data => data = [] ∨ (c.client.reads env.toEnv ∧ data.length ≤ cfg.rxBufferSize)
  | _ => true

/-- Is every segment of a run one like that? -/
def heedful (env : AsyncEnv cfg) (freed : ℕ → ℕ → Byte) : EspMqttClientAsync cfg → List Action → Bool
  | _, [] => true
  | c, action :: actions => c.heeds env action ∧ heedful env freed (c.act env freed action) actions

/-- Nothing was lost or invented so far, and nothing is left in the transport. -/
structure Clean (c : EspMqttClientAsync cfg) : Prop where
  ready : c.client.Ready
  lossless : Lossless c.history
  empty : c.clientAsync.availableData = 0

/-- `loop` reads what the transport has, or nothing. -/
theorem loop_cases {c : EspMqttClientAsync cfg} (env : AsyncEnv cfg) (h : c.client.Ready) :
    (c.loop env).client.Ready ∧
    ((c.client.reads env.toEnv = false ∧ (c.loop env).clientAsync = c.clientAsync ∧
      (c.loop env).history = c.history) ∨
    (c.client.reads env.toEnv ∧ (c.loop env).clientAsync = (c.clientAsync.read cfg.rxBufferSize).2 ∧
      (c.loop env).history =
        .read (c.clientAsync.read cfg.rxBufferSize).1 c.clientAsync.valid :: c.history)) := by
  have hready : (c.client.loop (c.transport env)).Ready := (MqttClient.loop_turns h).moves.ready h
  have hreads := MqttClient.loop_reads (c.transport env) h
  have hsame : c.client.reads (c.transport env) = c.client.reads env.toEnv := rfl
  rw [hsame] at hreads
  rw [loop]
  dsimp only
  cases hread : c.client.reads env.toEnv with
  | false =>
    rw [hread, if_neg Bool.false_ne_true, Nat.add_zero] at hreads
    rw [if_pos hreads]
    exact ⟨hready, .inl ⟨rfl, rfl, rfl⟩⟩
  | true =>
    rw [hread, if_pos rfl] at hreads
    rw [if_neg (by omega)]
    exact ⟨hready, .inr ⟨rfl, rfl, rfl⟩⟩

/-- What is left of a segment is read when the segment is gone. -/
theorem not_lossless_of_left {c : EspMqttClientAsync cfg} (hready : c.client.Ready)
    (hleft : c.clientAsync.availableData ≠ 0) (hvalid : c.clientAsync.valid = false)
    (hreads : c.client.reads env.toEnv) : ¬ Lossless (c.loop env).history := by
  intro h
  obtain ⟨-, ⟨hsilent, -, -⟩ | ⟨-, -, hhistory⟩⟩ := loop_cases env hready
  · rw [hsilent] at hreads
    cases hreads
  · have hnil := h.valid (c.clientAsync.read cfg.rxBufferSize).1
      (by rw [hhistory, hvalid]; exact List.mem_cons_self)
    have hlength : (c.clientAsync.read cfg.rxBufferSize).1.length =
        min cfg.rxBufferSize c.clientAsync.availableData := by simp [ClientAsync.read]
    rw [hnil, List.length_nil] at hlength
    have := cfg.rxBufferSize_pos
    omega

/-! ### One action -/

theorem lossless_connection {history : List Happening} (h : Lossless history) :
    Lossless (.connection :: history) where
  exact := rfl
  valid bytes hmem := by
    rcases List.mem_cons.mp hmem with hread | hmem
    · cases hread
    · exact h.valid bytes hmem

theorem lossless_read_nil {history : List Happening} (h : Lossless history) (valid : Bool) :
    Lossless (.read [] valid :: history) where
  exact := by
    show _ ++ [] = _ ++ []
    rw [List.append_nil, List.append_nil, h.exact]
  valid bytes hmem := by
    rcases List.mem_cons.mp hmem with hread | hmem
    · exact (Happening.read.inj hread).1
    · exact h.valid bytes hmem

theorem lossless_segment_nil {history : List Happening} (h : Lossless history) (state : State) :
    Lossless (.segment [] state :: history) where
  exact := by
    have hnil : Happening.segmentBytes (.segment [] state) = [] := ite_self _
    show _ ++ [] = _ ++ Happening.segmentBytes (.segment [] state)
    rw [hnil, List.append_nil, List.append_nil, h.exact]
  valid bytes hmem := by
    rcases List.mem_cons.mp hmem with hread | hmem
    · cases hread
    · exact h.valid bytes hmem

/-- A segment and what is read of it while it is valid. -/
theorem lossless_segment_read_iff {history : List Happening} (h : Lossless history) {state : State}
    (hstate : MqttClient.isMqtt state) (data bytes : List Byte) :
    Lossless (.read bytes true :: .segment data state :: history) ↔ bytes = data := by
  have hdata : Happening.segmentBytes (.segment data state) = data := if_pos hstate
  constructor
  · intro hlossless
    have hexact : Trace.gather Happening.isConnection Happening.readBytes history ++ [] ++ bytes =
        Trace.gather Happening.isConnection Happening.segmentBytes history ++
          Happening.segmentBytes (.segment data state) ++ [] := hlossless.exact
    rw [hdata, List.append_nil, List.append_nil, h.exact] at hexact
    exact List.append_cancel_left hexact
  · rintro rfl
    refine ⟨?_, fun other hmem => ?_⟩
    · show _ ++ [] ++ bytes = _ ++ Happening.segmentBytes (.segment bytes state) ++ []
      rw [hdata, List.append_nil, List.append_nil, h.exact]
    · rcases List.mem_cons.mp hmem with hread | hmem
      · cases hread
      rcases List.mem_cons.mp hmem with hread | hmem
      · cases hread
      · exact h.valid other hmem

/-- When nothing is available, `loop` reads nothing. -/
theorem Clean.loop {c : EspMqttClientAsync cfg} (hc : c.Clean) : (c.loop env).Clean := by
  obtain ⟨hready, ⟨-, htransport, hhistory⟩ | ⟨-, htransport, hhistory⟩⟩ := loop_cases env hc.ready
  · exact ⟨hready, hhistory ▸ hc.lossless, htransport ▸ hc.empty⟩
  · refine ⟨hready, ?_, by rw [htransport]; rfl⟩
    rw [hhistory, ClientAsync.read_of_zero hc.empty]
    exact lossless_read_nil hc.lossless _

theorem Clean.call {c : EspMqttClientAsync cfg} (hc : c.Clean) {client : MqttClient cfg} (h : client.Ready) :
    ({ c with client } : EspMqttClientAsync cfg).Clean := ⟨h, hc.lossless, hc.empty⟩

/-- **A segment** leaves nothing behind exactly when it comes to a client that reads it and it fits in the
buffer. -/
theorem clean_onDataCb_iff {c : EspMqttClientAsync cfg} (hc : c.Clean) (data : List Byte) :
    (c.onDataCb env freed data).Clean ↔
      data = [] ∨ (c.client.reads env.toEnv ∧ data.length ≤ cfg.rxBufferSize) := by
  generalize hreceived : ({ c with
    clientAsync := c.clientAsync.receive data
    history := .segment data c.client.state :: c.history } : EspMqttClientAsync cfg) = d
  have hdata : c.onDataCb env freed data = { d.loop env with
      clientAsync := (d.loop env).clientAsync.release (freed (d.loop env).client.tick) } := by
    rw [← hreceived]
    rfl
  have hclean : (c.onDataCb env freed data).Clean ↔ (d.loop env).Clean := by
    rw [hdata]
    exact ⟨fun h => ⟨h.ready, h.lossless, h.empty⟩, fun h => ⟨h.ready, h.lossless, h.empty⟩⟩
  have hclient : d.client = c.client := by rw [← hreceived]
  have hhistory : d.history = .segment data c.client.state :: c.history := by rw [← hreceived]
  have htransport : d.clientAsync = c.clientAsync.receive data := by rw [← hreceived]
  rw [hclean]
  by_cases hnil : data = []
  · -- an empty segment is like none
    refine ⟨fun _ => .inl hnil, fun _ => Clean.loop ⟨hclient ▸ hc.ready, ?_, ?_⟩⟩
    · rw [hhistory, hnil]
      exact lossless_segment_nil hc.lossless _
    · rw [htransport, hnil]
      rfl
  obtain ⟨hready, ⟨hreads, htransport', hhistory'⟩ | ⟨hreads, htransport', hhistory'⟩⟩ :=
    loop_cases (c := d) env (hclient ▸ hc.ready)
  · -- it stays in the transport
    rw [hclient] at hreads
    have hleft : (d.loop env).clientAsync.availableData = data.length := by rw [htransport', htransport]; rfl
    refine ⟨fun h => ?_, ?_⟩
    · exact absurd (List.length_eq_zero_iff.mp (hleft.symm.trans h.empty)) hnil
    · rintro (h | ⟨h, -⟩)
      · exact absurd h hnil
      · rw [hreads] at h
        cases h
  · rw [hclient] at hreads
    have hstate : MqttClient.isMqtt c.client.state := (of_decide_eq_true hreads).1
    have hlossless : Lossless (d.loop env).history ↔ data.take cfg.rxBufferSize = data := by
      rw [hhistory', hhistory, htransport, ClientAsync.read_receive]
      exact lossless_segment_read_iff hc.lossless hstate data _
    have hfits : data.take cfg.rxBufferSize = data ↔ data.length ≤ cfg.rxBufferSize := by
      refine ⟨fun h => ?_, List.take_of_length_le⟩
      have hlength := congrArg List.length h
      rw [List.length_take] at hlength
      omega
    constructor
    · exact fun h => .inr ⟨hreads, hfits.mp (hlossless.mp h.lossless)⟩
    · rintro (h | ⟨-, h⟩)
      · exact absurd h hnil
      · exact ⟨hready, hlossless.mpr (hfits.mpr h), by rw [htransport']; rfl⟩

/-- **An action** keeps the transport clean exactly when the segment, if it brings one, is read as a whole. -/
theorem clean_act_iff {c : EspMqttClientAsync cfg} (hc : c.Clean) (action : Action) :
    (c.act env freed action).Clean ↔ c.heeds env action := by
  cases action with
  | call apiCall =>
    refine iff_of_true ?_ rfl
    by_cases hconnect : apiCall = .connect
    · subst hconnect
      exact (hc.call ((MqttClient.connect_steps c.client).moves.ready hc.ready)).loop
    · have hcall : (c.client.call env.toEnv apiCall).Ready :=
        (MqttClient.call_steps c.client apiCall).moves.ready hc.ready
      cases apiCall with
      | connect => exact absurd rfl hconnect
      | _ => exact hc.call hcall
  | onConnectCb =>
    refine iff_of_true (Clean.loop ?_) rfl
    exact ⟨⟨hc.ready.sound, Bool.noConfusion⟩, lossless_connection hc.lossless, hc.empty⟩
  | onDataCb data =>
    rw [heeds, decide_eq_true_iff]
    exact clean_onDataCb_iff hc data
  | onDisconnectCb =>
    refine iff_of_true (Clean.loop ?_) rfl
    exact hc.call ⟨hc.ready.sound, Bool.noConfusion⟩
  | onPollCb => exact iff_of_true hc.loop rfl

theorem new_clean (generatedClientId : CString) : (new cfg generatedClientId).Clean :=
  ⟨MqttClient.new_ready generatedClientId, ⟨rfl, fun _ h => absurd h List.not_mem_nil⟩, rfl⟩

theorem Clean.run {c : EspMqttClientAsync cfg} (hc : c.Clean) {actions : List Action}
    (h : heedful env freed c actions) : (c.run env freed actions).Clean := by
  induction actions generalizing c with
  | nil => exact hc
  | cons action actions ih =>
    obtain ⟨hheeds, hrest⟩ := of_decide_eq_true h
    exact ih ((clean_act_iff hc action).mpr hheeds) hrest

/-- What is true of the actions of a run is true of the first of them. -/
theorem heedful_take {c : EspMqttClientAsync cfg} {actions : List Action} (h : heedful env freed c actions)
    (n : ℕ) : heedful env freed c (actions.take n) := by
  induction actions generalizing c n with
  | nil => rwa [List.take_nil]
  | cons action actions ih =>
    cases n with
    | zero => rfl
    | succ n =>
      obtain ⟨hheeds, hrest⟩ := of_decide_eq_true h
      exact decide_eq_true ⟨hheeds, ih hrest n⟩

/-- **The transport loses and invents nothing**, at every moment of every run in which the segments come to a
client that reads them and fit in the buffer. -/
theorem run_lossless (env : AsyncEnv cfg) (freed : ℕ → ℕ → Byte) (generatedClientId : CString)
    (actions : List Action)
    (h : heedful env freed (new cfg generatedClientId) actions) (n : ℕ) :
    Lossless ((new cfg generatedClientId).run env freed (actions.take n)).history :=
  ((new_clean generatedClientId).run (heedful_take h n)).lossless

/-- Two connections that take their time. -/
def twiceScript : Script where
  pending := [2, 3, 21, 22]

def twiceEnv : AsyncEnv .linux where
  toEnv := twiceScript.env .linux
  not_connect _ _ h := absurd h List.not_mem_nil

/-- The CONNACK and a PINGRESP in two segments. -/
theorem run_lossless_twice : Lossless
    ((new .linux ⟨[0x63], by decide⟩).run twiceEnv (fun _ _ => 0)
      ([.call .connect, .onConnectCb, .onPollCb, .onDataCb [0x20, 2], .onDataCb [0, 0, 0xD0, 0],
        .onPollCb].take 6)).history := by
  apply run_lossless
  decide +kernel

/-- A segment that comes when the user has just broken the connection off stays behind, and in the next
connection the client reads what has become of it. -/
theorem not_lossless_twice : ¬ ∀ actions : List Action, Lossless
    ((new .linux ⟨[0x63], by decide⟩).run twiceEnv (fun _ _ => 0x20) actions).history := by
  intro h
  have hread := (h [.call .connect, .onConnectCb, .onPollCb, .onDataCb [0x20, 2, 0, 0], .call (.disconnect true),
    .onDataCb [0x40, 2, 0, 1], .onDisconnectCb, .call .connect, .onConnectCb, .onPollCb]).valid
    [0x20, 0x20, 0x20, 0x20] (by decide +kernel)
  cases hread

end EspMqttClientAsync

end EspMqttClient
