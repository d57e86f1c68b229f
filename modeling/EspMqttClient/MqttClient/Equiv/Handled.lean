/-
  Every packet that is noted is handled.

  Nothing but `handle` notes that a packet came in (`loop_handled`), so each such record of a run stands for a
  client in that very moment, and what `handle` made of it is what the run went on with (`run_handled`).
-/
import EspMqttClient.MqttClient.Equiv.History

namespace EspMqttClient

/-- Anything but that a packet came in which the client goes on to handle. -/
def Event.isOther : Event → Bool
  | .packet _ => false
  | _ => true

/-- Anything but what is noted of the bytes and of the packets that come in. -/
def Event.isInternal (event : Event) : Bool := event.isOther && event.isLocal

namespace MqttClient

variable {cfg : Config} {env : Env cfg}

/-- At this record a client handled a packet, and the log goes on with what came of it. -/
def HandledAt (env : Env cfg) (log : Log) (r : Record) (earlier : Log) : Prop :=
  ∃ c : MqttClient cfg, c.received.log = r :: earlier ∧ (c.handle env).2.log <:+ log

/-- All packets that were noted were handled. -/
def AllHandled (env : Env cfg) (c : MqttClient cfg) : Prop :=
  Trace.Always (fun r earlier => ¬ r.event.isOther → HandledAt env c.log r earlier) c.log

/-! ### Other events -/

/-- Nothing about a packet that came in was noted. -/
abbrev Others (c c' : MqttClient cfg) : Prop := Grows Event.isOther c c'

theorem Others.allHandled {c c' : MqttClient cfg} (h : Others c c') (hc : c.AllHandled env) :
    c'.AllHandled env := by
  have hsuffix := h.log_suffix
  obtain ⟨new, hnew, hother⟩ := h
  have hgoes : ∀ r earlier, HandledAt env c.log r earlier → HandledAt env c'.log r earlier := by
    rintro r earlier ⟨d, hd, hlog⟩
    exact ⟨d, hd, hlog.trans hsuffix⟩
  have hall : Trace.Always (fun r earlier => ¬ r.event.isOther → HandledAt env c'.log r earlier) c.log :=
    hc.imp fun r earlier hr hpacket => hgoes r earlier (hr hpacket)
  rw [AllHandled]
  nth_rewrite 2 [hnew]
  exact hall.append fun r hr _ hpacket => absurd (hother r hr) hpacket

/-- Nor was anything about the bytes that came in. -/
abbrev Internal (c c' : MqttClient cfg) : Prop := Grows Event.isInternal c c'

theorem Internal.others {c c' : MqttClient cfg} (h : Internal c c') : Others c c' := by
  obtain ⟨new, hnew, hinternal⟩ := h
  refine ⟨new, hnew, fun r hr => ?_⟩
  have hr := hinternal r hr
  rw [Event.isInternal, Bool.and_eq_true] at hr
  exact hr.1

theorem Internal.allHandled {c c' : MqttClient cfg} (h : Internal c c') (hc : c.AllHandled env) :
    c'.AllHandled env := h.others.allHandled hc

theorem internal_refl (c : MqttClient cfg) : Internal c c := grows_of_log rfl

theorem internal_connect (c : MqttClient cfg) : Internal c (c.connect env).2 := by
  rw [connect]
  dsimp only
  split_ifs
  · rw [addPacketFront]
    split_ifs with hnode
    · dsimp only
      split_ifs
      · exact grows_of_cons_cons rfl rfl rfl
      · exact grows_of_cons rfl rfl
    · exact grows_of_cons rfl rfl
  · exact internal_refl c

theorem internal_disconnect (c : MqttClient cfg) (force : Bool) : Internal c (c.disconnect force).2 := by
  rw [disconnect]
  split_ifs
  · exact grows_of_cons_cons rfl rfl rfl
  · exact grows_of_cons_cons rfl rfl rfl
  · exact internal_refl c

theorem internal_publish (c : MqttClient cfg) (topic : CString) (qos : Byte) (retain : Bool)
    (payload : List Byte) : Internal c (c.publish env topic qos retain payload).2 := by
  have hid : Internal c (c.publishPacketId qos).2 := grows_publishPacketId c qos fun _ => rfl
  rw [publish]
  by_cases hrefused : c.refusesPublish
  · rw [if_pos hrefused]
    exact internal_refl c
  · rw [if_neg hrefused]
    have hadd := hid.trans (@grows_addPacket _ env _ _ fun alloc =>
      Packet.publish cfg alloc (c.publishPacketId qos).1 topic payload qos retain)
    dsimp only
    generalize addPacket env (c.publishPacketId qos).2 _ = added at hadd ⊢
    obtain ⟨success, d⟩ := added
    cases success
    · exact hadd.trans (grows_note _ rfl)
    · exact hadd.trans (grows_note _ rfl)

theorem internal_publishChunked (c : MqttClient cfg) (topic : CString) (qos : Byte) (retain : Bool)
    (callback : PayloadCallback) (length : ℕ) :
    Internal c (c.publishChunked env topic qos retain callback length).2 := by
  have hid : Internal c (c.publishPacketId qos).2 := grows_publishPacketId c qos fun _ => rfl
  rw [publishChunked]
  by_cases hrefused : c.refusesPublish
  · rw [if_pos hrefused]
    exact internal_refl c
  · rw [if_neg hrefused]
    have hadd := hid.trans (@grows_addPacket _ env _ _ fun alloc =>
      Packet.publishChunked cfg alloc (c.publishPacketId qos).1 topic callback length qos retain)
    dsimp only
    generalize addPacket env (c.publishPacketId qos).2 _ = added at hadd ⊢
    obtain ⟨success, d⟩ := added
    cases success
    · exact hadd.trans (grows_note _ rfl)
    · exact hadd.trans (grows_note _ rfl)

theorem internal_subscribe (c : MqttClient cfg) (topic : CString) (qos : Byte) (args : List (CString × Byte)) :
    Internal c (c.subscribe env topic qos args).2 := by
  have hid : Internal c c.getNextPacketId.2 := grows_getNextPacketId c fun _ => rfl
  rw [subscribe]
  by_cases hstate : c.state ≠ .connected
  · rw [if_pos hstate]
    exact internal_refl c
  · rw [if_neg hstate]
    have hadd := hid.trans (@grows_addPacket _ env _ _ fun alloc =>
      Packet.subscribe cfg alloc c.getNextPacketId.1 ((topic, qos) :: args))
    dsimp only
    generalize addPacket env c.getNextPacketId.2 _ = added at hadd ⊢
    obtain ⟨success, d⟩ := added
    cases success
    · exact hadd
    · exact hadd.trans (grows_note _ rfl)

theorem internal_unsubscribe (c : MqttClient cfg) (topic : CString) (args : List CString) :
    Internal c (c.unsubscribe env topic args).2 := by
  have hid : Internal c c.getNextPacketId.2 := grows_getNextPacketId c fun _ => rfl
  rw [unsubscribe]
  by_cases hstate : c.state ≠ .connected
  · rw [if_pos hstate]
    exact internal_refl c
  · rw [if_neg hstate]
    have hadd := hid.trans (@grows_addPacket _ env _ _ fun alloc =>
      Packet.unsubscribe cfg alloc c.getNextPacketId.1 (topic :: args))
    dsimp only
    generalize addPacket env c.getNextPacketId.2 _ = added at hadd ⊢
    obtain ⟨success, d⟩ := added
    cases success
    · exact hadd
    · exact hadd.trans (grows_note _ rfl)

theorem internal_call (c : MqttClient cfg) (apiCall : ApiCall) : Internal c (c.call env apiCall) := by
  cases apiCall with
  | connect => exact internal_connect c
  | disconnect force => exact internal_disconnect c force
  | publish topic qos retain payload => exact internal_publish c topic qos retain payload
  | publishChunked topic qos retain callback length =>
    exact internal_publishChunked c topic qos retain callback length
  | subscribe topic qos args => exact internal_subscribe c topic qos args
  | unsubscribe topic args => exact internal_unsubscribe c topic args
  | clearQueue deleteSessionData => exact grows_of_cons rfl rfl
  | set setting => exact grows_of_log rfl

theorem internal_calls (apiCalls : List ApiCall) (c : MqttClient cfg) :
    Internal c (apiCalls.foldl (fun c apiCall => c.call env apiCall) c) := by
  induction apiCalls generalizing c with
  | nil => exact internal_refl c
  | cons apiCall apiCalls ih => exact (internal_call c apiCall).trans (ih _)

theorem internal_callback (c : MqttClient cfg) (callback : Callback) {event : Event} (h : event.isInternal) :
    Internal c (c.callback env callback event) := by
  rw [MqttClient.callback]
  dsimp only
  split_ifs
  · have hcalls : Internal (c.note event)
        ((c.note event).note (.calls (env.callback (c.note event).tick))).asked :=
      grows_of_cons rfl rfl
    exact (grows_note c h).trans (hcalls.trans (internal_calls _ _))
  · exact grows_note c h

/-! ### Sending and the timers -/

theorem internal_checkOutbox (c : MqttClient cfg) : Internal c (c.checkOutbox env) := by
  suffices hloop : ∀ (fuel : ℕ) (c : MqttClient cfg), Internal c (c.checkOutboxLoop env fuel) from hloop _ c
  intro fuel
  induction fuel with
  | zero => exact fun c => internal_refl c
  | succ fuel ih =>
    intro c
    have hsend : Internal c (c.sendPacket env).2 := grows_sendPacket c fun _ => rfl
    have hadvance : Internal c (c.sendPacket env).2.advanceOutbox.2 :=
      hsend.trans (grows_advanceOutbox _ (fun _ => rfl) rfl)
    rw [checkOutboxLoop]
    dsimp only
    split_ifs
    · exact hadvance.trans (ih _)
    · exact hadvance
    · exact hsend

theorem internal_checkPing (c : MqttClient cfg) : Internal c (c.checkPing env) := by
  rw [checkPing]
  dsimp only
  split_ifs
  · exact internal_refl c
  · exact grows_of_cons_cons rfl rfl rfl
  · rcases addPacket_cases env c.asked fun alloc => Packet.control cfg alloc PacketType.PINGREQ with
      ⟨packet, -, hadd⟩ | ⟨-, hadd⟩ <;> simp only [hadd]
    · exact grows_of_cons rfl rfl
    · exact grows_of_log rfl
  · exact grows_of_log rfl

theorem internal_checkTimeout (c : MqttClient cfg) : Internal c (c.checkTimeout env) := by
  rw [checkTimeout]
  split
  · exact internal_refl c
  · dsimp only
    split_ifs
    · exact grows_of_cons rfl rfl
    · exact grows_of_log rfl
    · exact internal_refl c

/-! ### Handling -/

theorem internal_onConnack (c : MqttClient cfg) : Internal c (c.onConnack env) := by
  by_cases hcode : c.incoming.returnCode = 0
  · rw [onConnack_of_accepted hcode]
    exact (grows_admitted c (fun _ => rfl) (fun _ => rfl) rfl).trans (internal_callback _ _ rfl)
  · rw [onConnack, if_neg hcode]
    exact grows_of_cons rfl rfl

theorem internal_onPublish (c : MqttClient cfg) : Internal c (c.onPublish env) := by
  have hanswer : Internal c (c.answerPublish env).2 := grows_answerPublish c
  rw [onPublish]
  dsimp only
  split_ifs
  · exact hanswer.trans (internal_callback _ _ rfl)
  · exact hanswer

theorem internal_finish (c : MqttClient cfg) (type : MQTTPacketType) : Internal c (c.finish env type) := by
  rw [finish]
  cases c.findFirst type c.incoming.packetId with
  | none => exact internal_refl c
  | some it => exact (grows_remove c it rfl).trans (internal_callback _ _ rfl)

theorem internal_proceed (c : MqttClient cfg) (type next : MQTTPacketType) :
    Internal c (c.proceed env type next) := by
  rw [proceed]
  cases c.findFirst type c.incoming.packetId with
  | none => exact internal_refl c
  | some it => exact (grows_addPacket c _).trans (grows_remove _ it rfl)

theorem internal_onSuback (c : MqttClient cfg) : Internal c (c.onSuback env) := by
  rw [onSuback]
  cases c.outbox.find (·.isFor PacketType.SUBSCRIBE c.incoming.packetId) with
  | none => exact internal_refl c
  | some it => exact (grows_remove c it rfl).trans (internal_callback _ _ rfl)

theorem internal_onUnsuback (c : MqttClient cfg) : Internal c (c.onUnsuback env) := by
  rw [onUnsuback]
  cases c.outbox.find (·.packet.packetId = c.incoming.packetId) with
  | none => exact internal_refl c
  | some it => exact (grows_remove c it rfl).trans (internal_callback _ _ rfl)

/-- A packet is not expected, or it is noted and nothing else of its kind. -/
theorem handle_internal (env : Env cfg) (c : MqttClient cfg) :
    c.handle env = (false, (c.note (.fault .unexpectedPacket)).setState .disconnectingTcp1) ∨
      Internal c.received (c.handle env).2 := by
  rw [handle]
  dsimp only
  rw [← received, ← incomingType]
  by_cases hunexpected : c.state = .connectingMqtt ∧ c.incomingType ≠ PacketType.CONNACK
  · rw [if_pos hunexpected]
    exact .inl rfl
  rw [if_neg hunexpected]
  right
  by_cases hconnack : c.incomingType = PacketType.CONNACK
  · rw [if_pos hconnack]
    exact internal_onConnack _
  rw [if_neg hconnack]
  by_cases hpublish : c.incomingType = PacketType.PUBLISH
  · rw [if_pos hpublish]
    dsimp only
    split_ifs
    · exact internal_refl _
    · exact internal_onPublish _
  rw [if_neg hpublish]
  by_cases hpuback : c.incomingType = PacketType.PUBACK
  · rw [if_pos hpuback]
    exact internal_finish _ _
  rw [if_neg hpuback]
  by_cases hpubrec : c.incomingType = PacketType.PUBREC
  · rw [if_pos hpubrec]
    exact internal_proceed _ _ _
  rw [if_neg hpubrec]
  by_cases hpubrel : c.incomingType = PacketType.PUBREL
  · rw [if_pos hpubrel]
    exact internal_proceed _ _ _
  rw [if_neg hpubrel]
  by_cases hpubcomp : c.incomingType = PacketType.PUBCOMP
  · rw [if_pos hpubcomp]
    exact internal_finish _ _
  rw [if_neg hpubcomp]
  by_cases hsuback : c.incomingType = PacketType.SUBACK
  · rw [if_pos hsuback]
    exact internal_onSuback _
  rw [if_neg hsuback]
  by_cases hunsuback : c.incomingType = PacketType.UNSUBACK
  · rw [if_pos hunsuback]
    exact internal_onUnsuback _
  rw [if_neg hunsuback]
  by_cases hpingresp : c.incomingType = PacketType.PINGRESP
  · rw [if_pos hpingresp]
    exact grows_of_log rfl
  rw [if_neg hpingresp]
  exact internal_refl _

theorem handle_allHandled {c : MqttClient cfg} (h : c.AllHandled env) : (c.handle env).2.AllHandled env := by
  rcases handle_internal env c with hunexpected | hinternal
  · have hinternal : Internal c ((c.note (.fault .unexpectedPacket)).setState .disconnectingTcp1) :=
      grows_of_cons_cons rfl rfl rfl
    rw [hunexpected]
    exact hinternal.allHandled h
  · have hothers := hinternal.others
    have hsuffix := hothers.log_suffix
    obtain ⟨new, hnew, hother⟩ := hothers
    have hreceived : c.received.log = ⟨.packet c.parser.report, c.state, c.outbox, c.bytesSent,
      c.disconnectReason⟩ :: c.log := rfl
    have hgoes : ∀ r earlier, HandledAt env c.log r earlier → HandledAt env (c.handle env).2.log r earlier := by
      rintro r earlier ⟨d, hd, hlog⟩
      exact ⟨d, hd, (hlog.trans (List.suffix_cons _ _)).trans hsuffix⟩
    rw [AllHandled]
    nth_rewrite 2 [hnew]
    refine Trace.Always.append ?_ fun r hr _ hpacket => absurd (hother r hr) hpacket
    rw [hreceived]
    exact ⟨fun _ => ⟨c, hreceived, List.suffix_rfl⟩,
      h.imp fun r earlier hr hpacket => hgoes r earlier (hr hpacket)⟩

/-! ### Runs -/

theorem checkIncomingLoop_allHandled (fuel : ℕ) {c : MqttClient cfg} (h : c.AllHandled env) (input : List Byte) :
    (c.checkIncomingLoop env fuel input).AllHandled env := by
  induction fuel generalizing c input with
  | zero => exact h
  | succ fuel ih =>
    have hparsed : ∀ parser bytes, ({ c with parser }.note (.parsed bytes)).AllHandled env := by
      intro parser bytes
      have hothers : Others c ({ c with parser }.note (.parsed bytes)) := grows_of_cons rfl rfl
      exact hothers.allHandled h
    rw [checkIncomingLoop]
    split_ifs
    · exact h
    · obtain ⟨result, n, parser⟩ := c.parser.parseInput input
      cases result with
      | awaitData => exact ih (hparsed _ _) _
      | packet =>
        have hhandle := handle_allHandled (hparsed parser (input.take n))
        dsimp only
        split_ifs
        · exact ih hhandle _
        · exact hhandle
      | protocolError =>
        have hothers : Others ({ c with parser }.note (.parsed (input.take n)))
            (({ c with parser }.note (.parsed (input.take n))).lost .protocolError) :=
          grows_of_cons_cons rfl rfl rfl
        exact hothers.allHandled (hparsed _ _)

theorem checkIncoming_allHandled {c : MqttClient cfg} (h : c.AllHandled env) :
    (c.checkIncoming env).AllHandled env := by
  have hread : Others c (c.note (.read (env.read c.tick))).asked := grows_of_cons rfl rfl
  rw [checkIncoming]
  dsimp only
  split_ifs
  · exact hread.allHandled h
  · have hactive : Others c { (c.note (.read (env.read c.tick))).asked with
        lastServerActivity := (c.note (.read (env.read c.tick))).asked.millis env }.asked :=
      grows_of_cons rfl rfl
    exact checkIncomingLoop_allHandled _ (hactive.allHandled h) _

theorem checks_allHandled {c : MqttClient cfg} (h : c.AllHandled env) :
    ((((c.checkOutbox env).checkIncoming env).checkPing env).checkTimeout env).AllHandled env :=
  (internal_checkTimeout _).allHandled ((internal_checkPing _).allHandled
    (checkIncoming_allHandled ((internal_checkOutbox c).allHandled h)))

theorem internal_lost (c : MqttClient cfg) (fault : Fault) : Internal c (c.lost fault) :=
  grows_of_cons_cons rfl rfl rfl

theorem loopConnected_allHandled {c : MqttClient cfg} (h : c.AllHandled env) :
    (c.loopConnected env).AllHandled env := by
  have hasked : Others c c.asked := grows_of_log rfl
  rw [loopConnected]
  dsimp only
  split_ifs
  · exact checks_allHandled (hasked.allHandled h)
  · exact (internal_lost _ _).allHandled (hasked.allHandled h)

theorem loopConnectingMqtt_allHandled {c : MqttClient cfg} (h : c.AllHandled env) :
    (c.loopConnectingMqtt env).AllHandled env := by
  have hasked : Others c c.asked := grows_of_log rfl
  rw [loopConnectingMqtt]
  dsimp only
  split_ifs
  · have hsend : Others c (c.asked.sendPacket env).2 := hasked.trans (grows_sendPacket _ fun _ => rfl)
    exact (internal_checkPing _).allHandled (checkIncoming_allHandled (hsend.allHandled h))
  · exact (internal_lost _ _).allHandled (hasked.allHandled h)
  · exact loopConnected_allHandled h

theorem loopDisconnectingMqtt1_allHandled {c : MqttClient cfg} (h : c.AllHandled env) :
    (c.loopDisconnectingMqtt1 env).AllHandled env := by
  rw [loopDisconnectingMqtt1]
  apply checks_allHandled
  split_ifs
  · rcases addPacket_cases env c fun alloc => Packet.control cfg alloc PacketType.DISCONNECT with
      ⟨packet, -, hadd⟩ | ⟨-, hadd⟩ <;> simp only [hadd]
    · have hothers : Others c ((c.push packet).asked.setState .disconnectingMqtt2) := grows_of_cons rfl rfl
      exact hothers.allHandled h
    · have hothers : Others c (c.asked.note (.onError 0 .OUT_OF_MEMORY)) := grows_of_cons rfl rfl
      exact hothers.allHandled h
  · exact h

theorem internal_loopConnectingTcp2 (c : MqttClient cfg) : Internal c (c.loopConnectingTcp2 env) := by
  rw [loopConnectingTcp2]
  dsimp only
  split_ifs
  · exact grows_of_cons rfl rfl
  · exact grows_of_cons_cons rfl rfl rfl
  · exact grows_of_log rfl

theorem others_loopConnectingTcp1 (c : MqttClient cfg) : Others c (c.loopConnectingTcp1 env) := by
  have hconnect : Others c (c.note (.transportConnect (env.connect c.tick))).asked := grows_of_cons rfl rfl
  rw [loopConnectingTcp1]
  split_ifs
  · exact hconnect.trans ((grows_setState _ rfl).trans (internal_loopConnectingTcp2 _).others)
  · exact hconnect.trans (internal_lost _ _).others

theorem internal_loopDisconnectingTcp2 (c : MqttClient cfg) : Internal c (c.loopDisconnectingTcp2 env) := by
  rw [loopDisconnectingTcp2]
  dsimp only
  split_ifs
  · have hclosed : Internal c ({ c.asked.clearQueue 0 with bytesSent := 0 }.setState .disconnected) :=
      grows_of_cons_cons rfl rfl rfl
    exact hclosed.trans (internal_callback _ _ rfl)
  · exact grows_of_log rfl

theorem loop_allHandled {c : MqttClient cfg} (h : c.AllHandled env) : (c.loop env).AllHandled env := by
  rw [loop]
  split
  · exact h
  · exact (others_loopConnectingTcp1 c).allHandled h
  · exact (internal_loopConnectingTcp2 c).allHandled h
  · exact loopConnectingMqtt_allHandled h
  · exact loopConnected_allHandled h
  · exact loopDisconnectingMqtt1_allHandled h
  · exact loopConnected_allHandled h
  · have hothers : Others c ((c.note .stop).setState .disconnectingTcp2) := grows_of_cons_cons rfl rfl rfl
    exact hothers.allHandled h
  · exact (internal_loopDisconnectingTcp2 c).allHandled h

theorem run_allHandled (env : Env cfg) (generatedClientId : CString) (actions : List Action) :
    ((new cfg generatedClientId).run env actions).AllHandled env := by
  suffices hrun : ∀ (c : MqttClient cfg), c.AllHandled env → (c.run env actions).AllHandled env from
    hrun _ trivial
  induction actions with
  | nil => exact fun c h => h
  | cons action actions ih =>
    intro c h
    have hact : (c.act env action).AllHandled env := by
      cases action with
      | call apiCall => exact (internal_call c apiCall).allHandled h
      | loop => exact loop_allHandled h
    exact ih _ hact

/-- **Every packet that a run notes is handled**, by a client that stands as the record says. -/
theorem run_handledAt {env : Env cfg} {generatedClientId : CString} {actions : List Action} {r : Record}
    {earlier : Log} (h : r :: earlier <:+ ((new cfg generatedClientId).run env actions).log)
    (hpacket : r.event.isOther = false) :
    HandledAt env ((new cfg generatedClientId).run env actions).log r earlier := by
  have hall := Trace.always_iff.mp (run_allHandled env generatedClientId actions)
  exact hall r earlier h (by rw [hpacket]; exact Bool.false_ne_true)

end MqttClient

end EspMqttClient
