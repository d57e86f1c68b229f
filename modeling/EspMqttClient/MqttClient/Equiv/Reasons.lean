/-
  The reason of a disconnect.

  Where the client sets the reason it fits what happened in the connection.  A forced disconnect and a
  first packet that is not a CONNACK do not set it: the reason is right as long as the one they find
  happens to fit (`run_reasons`).
-/
import EspMqttClient.MqttClient.Equiv.Lifecycle

namespace EspMqttClient

/-! ### Properties of a log -/

/-- Is the connection left by now? -/
def State.isEnding : State → Bool
  | disconnectingTcp1 | disconnectingTcp2 => true
  | _ => false

/-- Is it the reason for a CONNACK with a return code other than 0? -/
def DisconnectReason.isRefusal : DisconnectReason → Bool
  | USER_OK | TLS_BAD_FINGERPRINT | TCP_DISCONNECTED => false
  | _ => true

namespace Event

/-- A CONNACK with the return code for this reason. -/
def isRefusal (reason : DisconnectReason) : Event → Bool
  | .packet report => report.packetType &&& 0xF0 = PacketType.CONNACK ∧ report.returnCode ≠ 0 ∧
      .ofReturnCode report.returnCode = reason
  | _ => false

/-- A DISCONNECT was written to its end, or the user called `disconnect`. -/
def isGoodbye : Event → Bool
  | .sent p => p.packetType = PacketType.DISCONNECT
  | .disconnect _ => true
  | _ => false

def isFault : Event → Bool
  | .fault _ => true
  | _ => false

/-- Something that ends a connection and is not a fault, or the beginning of the next one. -/
def isOtherEnd : Event → Bool
  | .connect _ => true
  | .disconnect force => force
  | .sent p => p.packetType = PacketType.DISCONNECT
  | .packet report => report.packetType &&& 0xF0 = PacketType.CONNACK ∧ report.returnCode ≠ 0
  | _ => false

end Event

namespace Log

/-- Did a CONNACK with the return code for this reason come in since the last `connect`? -/
def refused (reason : DisconnectReason) : Log → Bool :=
  Trace.since (·.event.isConnect) (·.event.isRefusal reason)

/-- Did the client or its user say goodbye since the last `connect`? -/
def goodbye : Log → Bool := Trace.since (·.event.isConnect) (·.event.isGoodbye)

/-- Is a fault the last thing that ended the connection? -/
def failed : Log → Bool := Trace.since (·.event.isOtherEnd) (·.event.isFault)

/-- Is this a reason for the end of the connection? -/
def justifies (log : Log) (reason : DisconnectReason) : Bool :=
  (reason.isRefusal → log.refused reason) ∧ (reason = .USER_OK → log.goodbye) ∧
    (log.failed → reason = .TCP_DISCONNECTED)

end Log

namespace Record

/-- `onDisconnect` is called with a reason that belongs to the connection that ended. -/
def isOwn (r : Record) (earlier : Log) : Bool :=
  match r.event with
  | .onDisconnect reason => earlier.justifies reason
  | _ => true

/-- Where the reason is left as it is, it fits. -/
def isFitting (r : Record) : Bool :=
  match r.event with
  | .disconnect true => r.disconnectReason = .TCP_DISCONNECTED ∨ r.disconnectReason = .USER_OK
  | .fault .unexpectedPacket => r.disconnectReason = .TCP_DISCONNECTED
  | _ => true

end Record

namespace MqttClient

variable {cfg : Config} {env : Env cfg}

/-! ### The reason in each phase -/

/-- A reason stays one as long as there is neither a `connect` nor a fault. -/
theorem justifies_append {new log : Log} {reason : DisconnectReason}
    (hnew : ∀ r ∈ new, r.event.isConnect = false ∧ r.event.isFault = false)
    (h : log.justifies reason) : Log.justifies (new ++ log) reason := by
  obtain ⟨hrefusal, huser, hfault⟩ := of_decide_eq_true h
  have hconnect : ∀ r ∈ new, r.event.isConnect = false := fun r hr => (hnew r hr).1
  refine decide_eq_true ⟨fun hr => ?_, fun hr => ?_, fun hf => ?_⟩
  · exact Trace.since_of_past hconnect (hrefusal hr)
  · exact Trace.since_of_past hconnect (huser hr)
  · exact hfault (Trace.past_of_since (fun r hr => (hnew r hr).2) hf)

theorem ofReturnCode_ne {returnCode : Byte} (h : returnCode ≠ 0) :
    DisconnectReason.ofReturnCode returnCode ≠ .USER_OK := by
  rw [DisconnectReason.ofReturnCode, if_neg h]
  split_ifs <;> nofun

/-- A lost connection needs no further reason. -/
theorem justifies_lost (log : Log) : log.justifies .TCP_DISCONNECTED :=
  decide_eq_true ⟨nofun, nofun, fun _ => rfl⟩

/-- A client that leaves its connection has a reason for it. -/
structure Reasoned (c : MqttClient cfg) : Prop where
  own : Trace.Always (fun r earlier => r.isOwn earlier) c.log
  justified : c.state.isEnding → c.log.justifies c.disconnectReason

theorem Reasoned.calm {c c' : MqttClient cfg} (hc : c.Reasoned) (h : Calm c c') : c'.Reasoned where
  own := by
    apply h.always _ hc.own
    rintro ⟨event, _, _, _, _⟩ hevent - earlier
    cases event with
    | onDisconnect => cases hevent
    | _ => rfl
  justified hstate := by
    obtain ⟨new, hnew, hcalm⟩ := h.log
    rw [hnew, h.reason]
    rw [h.state] at hstate
    refine justifies_append (fun r hr => ?_) (hc.justified hstate)
    obtain ⟨event, _, _, _, _⟩ := r
    have hevent := (hcalm _ hr).1
    cases event <;> first | exact ⟨rfl, rfl⟩ | cases hevent

/-- A DISCONNECT that was sent is a reason of its own. -/
theorem farewell_reasoned {c : MqttClient cfg} {packet : Packet}
    (hown : Trace.Always (fun r earlier => r.isOwn earlier) c.log)
    (htype : packet.packetType = PacketType.DISCONNECT) :
    ((c.farewell packet).note (.sent packet)).Reasoned := by
  rw [farewell_of_type htype]
  refine ⟨⟨rfl, rfl, hown⟩, fun _ => decide_eq_true ⟨nofun, fun _ => ?_, fun hfailed => ?_⟩⟩
  · apply Trace.since_of_hit
    exact decide_eq_true htype
  · refine absurd hfailed (Trace.not_since_of_start ?_ rfl _)
    exact decide_eq_true htype

theorem Phase.reasoned {c c' : MqttClient cfg} (h : Phase c c')
    (hc : Trace.Always (fun r _ => r.isFitting) c.log → c.Reasoned)
    (hfitting : Trace.Always (fun r _ => r.isFitting) c'.log) : c'.Reasoned := by
  cases h with
  | calm h =>
    obtain ⟨new, hnew, -⟩ := h.log
    rw [hnew] at hfitting
    exact (hc hfitting.of_append).calm h
  | connect args => exact ⟨⟨rfl, rfl, (hc hfitting.2.2).own⟩, fun h => by cases h⟩
  | connecting | established | addDisconnect => exact ⟨⟨rfl, (hc hfitting.2).own⟩, fun h => by cases h⟩
  | disconnect force h =>
    obtain ⟨state, hleave, -, -, ⟨rfl, rfl⟩ | ⟨rfl, -⟩⟩ := disconnect_cases h
    · rw [hleave] at hfitting ⊢
      refine ⟨⟨rfl, rfl, (hc hfitting.2.2).own⟩, fun _ => decide_eq_true ⟨?_, fun _ => rfl, ?_⟩⟩
      · -- no refusal of an earlier connection is left
        show c.disconnectReason.isRefusal → _
        rcases of_decide_eq_true hfitting.2.1 with hreason | hreason
        · rw [show c.disconnectReason = _ from hreason]
          intro h
          cases h
        · rw [show c.disconnectReason = _ from hreason]
          intro h
          cases h
      · intro h
        cases h
    · rw [hleave] at hfitting ⊢
      exact ⟨⟨rfl, rfl, (hc hfitting.2.2).own⟩, fun h => by cases h⟩
  | lost fault => exact ⟨⟨rfl, rfl, (hc hfitting.2.2).own⟩, fun _ => justifies_lost _⟩
  | farewell hstate htype =>
    rw [farewell_of_type htype] at hfitting
    exact farewell_reasoned (hc hfitting.2.2).own htype
  | stop hstate =>
    have hc := hc hfitting.2.2
    have hjustified := hc.justified (by rw [hstate]; rfl)
    refine ⟨⟨rfl, rfl, hc.own⟩, fun _ => ?_⟩
    show Log.justifies ([_, _] ++ c.log) _
    exact justifies_append (by simp [Event.isConnect, Event.isFault]) hjustified
  | close hstate =>
    have hc := hc hfitting.2.2.2
    have hjustified := hc.justified (by rw [hstate]; rfl)
    refine ⟨⟨?_, rfl, rfl, hc.own⟩, fun h => by cases h⟩
    show Log.justifies ([_, _] ++ c.log) _
    exact justifies_append (by simp [Event.isConnect, Event.isFault]) hjustified
  | unexpected =>
    -- no reason is set here; by assumption the old one fits
    have hreason : c.disconnectReason = .TCP_DISCONNECTED := of_decide_eq_true hfitting.2.1
    refine ⟨⟨rfl, rfl, (hc hfitting.2.2).own⟩, fun _ => ?_⟩
    show Log.justifies _ c.disconnectReason
    rw [hreason]
    exact justifies_lost _
  | refused hstate htype hcode =>
    have hrefusal : (Event.packet c.parser.report).isRefusal (.ofReturnCode c.incoming.returnCode) :=
      decide_eq_true ⟨htype, hcode, rfl⟩
    have hother : (Event.packet c.parser.report).isOtherEnd := decide_eq_true ⟨htype, hcode⟩
    refine ⟨⟨rfl, rfl, (hc hfitting.2.2).own⟩, fun _ => decide_eq_true ⟨?_, ?_, ?_⟩⟩
    · intro _
      show Trace.since _ _ ([_] ++ c.received.log)
      apply Trace.since_of_past (by simp [Event.isConnect])
      apply Trace.since_of_hit
      exact hrefusal
    · -- the code of a refusal is none of the user's
      exact fun huser => absurd huser (ofReturnCode_ne hcode)
    · intro hfailed
      have hfailed : Trace.since (·.event.isOtherEnd) (·.event.isFault) ([_] ++ c.received.log) := hfailed
      refine absurd (Trace.past_of_since (by simp [Event.isFault]) hfailed) ?_
      apply Trace.not_since_of_start
      · exact hother
      · rfl
  | accept =>
    obtain ⟨new, hnew⟩ := log_suffix_admitted c.received
    have hc : c.received.Reasoned := by
      have hadmitted := hfitting.2
      rw [← hnew] at hadmitted
      exact (hc hadmitted.of_append.2).calm (calm_received c)
    have hadmitted : c.received.admitted.Reasoned := by
      rcases calm_admitted c.received with h | ⟨item, -, -, htype, h⟩
      · refine Reasoned.calm ?_ h
        exact ⟨⟨rfl, hc.own⟩, fun h => by cases h⟩
      · refine Reasoned.calm (farewell_reasoned ?_ htype) h
        exact ⟨rfl, hc.own⟩
    refine ⟨⟨rfl, hadmitted.own⟩, fun hstate => ?_⟩
    show Log.justifies ([_] ++ c.received.admitted.log) _
    exact justifies_append (by simp [Event.isConnect, Event.isFault]) (hadmitted.justified hstate)

/-- **The disconnect reason belongs to the connection that ended**, in every run in which a forced
disconnect and a first packet that is not a CONNACK find one that fits. -/
theorem run_reasons (env : Env cfg) (generatedClientId : CString) (actions : List Action)
    (h : Trace.Always (fun r _ => r.isFitting) ((new cfg generatedClientId).run env actions).log) :
    Trace.Always (fun r earlier => r.isOwn earlier) ((new cfg generatedClientId).run env actions).log := by
  have hreasoned := run_phase_invariant env
    (fun c => Trace.Always (fun r _ => r.isFitting) c.log → c.Reasoned) generatedClientId
    (fun _ => ⟨trivial, nofun⟩) Phase.reasoned actions
  exact (hreasoned h).own

/-- A server that says nothing sensible at first and refuses the client later. -/
def laterScript : Script where
  read := [(9, [0xFF]), (24, [0x20, 2, 0, 5])]

/-- Three connections: the second is broken off by the user when the reason of the first one is left. -/
theorem run_reasons_refusal : Trace.Always (fun r earlier => r.isOwn earlier)
    (laterScript.run [.call .connect, .loop, .loop, .loop, .loop,
      .call .connect, .call (.disconnect true), .loop, .loop,
      .call .connect, .loop, .loop, .loop, .loop]).log := by
  apply run_reasons
  decide +kernel

/-- A server that refuses the client. -/
def refusalScript : Script where
  read := [(9, [0x20, 2, 0, 5])]

/-- The next connection, which the user breaks off, ends for the same reason. -/
theorem not_own_refusal : ¬ Trace.Always (fun r earlier => r.isOwn earlier)
    (refusalScript.run [.call .connect, .loop, .loop, .loop, .loop,
      .call .connect, .call (.disconnect true), .loop, .loop]).log := by
  decide +kernel

end MqttClient

end EspMqttClient
