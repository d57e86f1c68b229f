/-
  The PUBRECs in the queue.

  A client remembers that it delivered a message by the PUBREC in its queue.  It adds one for every PUBLISH
  that it got to the end, also for one that is sent again, and takes the first one out for a PUBREL with its
  packet id.  So it is a queueing receiver of the packets that it reports (`run_inStep`).
-/
import EspMqttClient.Data.Queueing
import EspMqttClient.MqttClient.Equiv.Tally

namespace EspMqttClient

/-! ### Exchanges of quality 2 -/

/-- The last slice of a PUBLISH of quality 2. -/
def Parser.Report.isFinal (report : Parser.Report) : Bool :=
  publishQos report.packetType = 2 ∧ report.index + report.payload.length = report.total

/-- What a packet is in an exchange of quality 2. -/
def Parser.Report.signal (report : Parser.Report) : Option (Signal UInt16 Parser.Report) :=
  if report.isFinal then some (.message report.packetId report)
  else if report.packetType &&& 0xF0 = PacketType.PUBREL then some (.release report.packetId)
  else none

namespace Event

def signal : Event → Option (Signal UInt16 Parser.Report)
  | .packet report => report.signal
  | _ => none

/-- The last slice that the user gets. -/
def delivers : Event → Option Parser.Report
  | .onMessage report => if report.isFinal then some report else none
  | _ => none

/-- Nothing that an exchange of quality 2 is about. -/
def isNeutral : Event → Bool
  | .packet report => report.signal.isNone
  | .onMessage report => !report.isFinal
  | _ => true

end Event

namespace Log

/-- What came in for the exchanges of quality 2, oldest first. -/
def signals (log : Log) : List (Signal UInt16 Parser.Report) := (log.filterMap (·.event.signal)).reverse

/-- The last slices that the user got, newest first. -/
def delivered (log : Log) : List Parser.Report := log.filterMap (·.event.delivers)

end Log

/-- A client takes bytes in only while it waits for its CONNACK or is connected, nothing comes in before the
CONNACK and no PUBLISH before the client is connected, and no PUBREC is cleared away. -/
def Record.isSheltered (r : Record) : Bool :=
  match r.event with
  | .parsed _ => r.state = .connectingMqtt ∨ r.state = .connected
  | .fault fault => fault ≠ .unexpectedPacket
  | .packet report => report.packetType &&& 0xF0 = PacketType.PUBLISH → r.state = .connected
  | .clearQueue clearData => clearData = 0 ∨ r.outbox.items.all (!·.isType PacketType.PUBREC)
  | _ => true

/-- An UNSUBACK does not hit a PUBREC, and no message with a quality of service that there is not is
stored: it may look like one. -/
def Record.sparesPubrecs (r : Record) : Bool :=
  match r.event with
  | .packet report => report.packetType &&& 0xF0 = PacketType.UNSUBACK →
      (r.outbox.items.find? (·.packet.packetId = report.packetId)).all (!·.isType PacketType.PUBREC)
  | event => event.isLawful

/-! ### What is read off the log -/

theorem signal_of_isFinal {report : Parser.Report} (h : report.isFinal) :
    report.signal = some (.message report.packetId report) := if_pos h

theorem signal_of_other {report : Parser.Report} (h : report.packetType &&& 0xF0 ≠ PacketType.PUBLISH) :
    report.signal = if report.packetType &&& 0xF0 = PacketType.PUBREL then some (.release report.packetId)
      else none := by
  refine if_neg fun hfinal => ?_
  have hqos := (of_decide_eq_true hfinal).1
  rw [publishQos, if_pos h] at hqos
  exact absurd hqos (by decide)

theorem signal_of_release {report : Parser.Report} (h : report.packetType &&& 0xF0 = PacketType.PUBREL) :
    report.signal = some (.release report.packetId) := by
  rw [signal_of_other (by rw [h]; decide), if_pos h]

theorem signals_cons (r : Record) (past : Log) :
    Log.signals (r :: past) = past.signals ++ r.event.signal.toList := by
  rw [Log.signals, List.filterMap_cons]
  cases r.event.signal with
  | none => exact (List.append_nil _).symm
  | some signal => exact List.reverse_cons

/-- What comes in tells the receiver what to store and what to deliver. -/
theorem enqueues_signals_cons {r : Record} {signal : Signal UInt16 Parser.Report}
    (h : r.event.signal = some signal) (past : Log) :
    Receiver.enqueues (Log.signals (r :: past)) = (Receiver.enqueues past.signals).enqueue signal := by
  rw [signals_cons, h]
  exact Receiver.enqueues_append _ _

/-! ### Other events -/

theorem signal_of_isNeutral {event : Event} (h : event.isNeutral) : event.signal = none := by
  cases event with
  | packet report => exact Option.isNone_iff_eq_none.mp h
  | _ => rfl

theorem delivers_of_isNeutral {event : Event} (h : event.isNeutral) : event.delivers = none := by
  cases event with
  | onMessage report =>
    rw [Event.isNeutral, Bool.not_eq_true'] at h
    rw [Event.delivers, h]
    rfl
  | _ => rfl

theorem signals_append_of_none {new : Log} (h : ∀ r ∈ new, r.event.signal = none) (log : Log) :
    Log.signals (new ++ log) = log.signals := by
  rw [Log.signals, List.filterMap_append, List.filterMap_eq_nil_iff.mpr h]
  rfl

theorem signals_append_of_isNeutral {new : Log} (h : ∀ r ∈ new, r.event.isNeutral) (log : Log) :
    Log.signals (new ++ log) = log.signals :=
  signals_append_of_none (fun r hr => signal_of_isNeutral (h r hr)) log

theorem delivered_append_of_isNeutral {new : Log} (h : ∀ r ∈ new, r.event.isNeutral) (log : Log) :
    Log.delivered (new ++ log) = log.delivered := by
  have hnone : new.filterMap (·.event.delivers) = [] :=
    List.filterMap_eq_nil_iff.mpr fun r hr => delivers_of_isNeutral (h r hr)
  rw [Log.delivered, List.filterMap_append, hnone]
  rfl

/-- A packet of another type. -/
theorem isNeutral_packet {report : Parser.Report} (hpublish : report.packetType &&& 0xF0 ≠ PacketType.PUBLISH)
    (hpubrel : report.packetType &&& 0xF0 ≠ PacketType.PUBREL) : (Event.packet report).isNeutral := by
  rw [Event.isNeutral, signal_of_other hpublish, if_neg hpubrel]
  rfl

/-! ### The PUBRECs in the queue -/

/-- The packet id of a PUBREC. -/
def OutgoingPacket.pubrecId (item : OutgoingPacket) : Option UInt16 :=
  if item.isType PacketType.PUBREC then some item.packet.packetId else none

theorem pubrecId_eq_none {item : OutgoingPacket} (h : item.packet.packetType ≠ PacketType.PUBREC) :
    item.pubrecId = none := if_neg fun htype => h (of_decide_eq_true htype)

theorem pubrecId_eq_some_iff {item : OutgoingPacket} {packetId : UInt16} :
    item.pubrecId = some packetId ↔ item.isFor PacketType.PUBREC packetId := by
  rw [OutgoingPacket.pubrecId, MqttClient.isFor_iff, OutgoingPacket.isType]
  simp

namespace MqttClient

variable {cfg : Config} {env : Env cfg}

/-- The packet ids of the PUBRECs in the queue. -/
def pubrecs (c : MqttClient cfg) : List UInt16 := c.outbox.items.filterMap (·.pubrecId)

/-- The PUBRECs in the queue are what a queueing receiver stores, and the user got what it delivers. -/
structure InStep (c : MqttClient cfg) : Prop where
  pubrecs : c.pubrecs = (Receiver.enqueues c.log.signals).stored
  delivered : c.log.delivered = (Receiver.enqueues c.log.signals).delivered.map Prod.snd

theorem pubrecId_touched {item item' : OutgoingPacket} (h : Touched cfg item item') (hp : Proper item.packet) :
    item'.pubrecId = item.pubrecId := by
  rw [OutgoingPacket.pubrecId, OutgoingPacket.pubrecId, h.isType hp, h.reads.packetId]

/-- A PUBREC is not removed when it is sent. -/
theorem Leaves.pubrecs {l l' : CursorList OutgoingPacket} (h : Leaves cfg [] l l')
    (hproper : ∀ item ∈ l.items, Proper item.packet) :
    l'.items.filterMap (·.pubrecId) = l.items.filterMap (·.pubrecId) := by
  refine h.filterMap_eq (fun item hmem item' htouched => pubrecId_touched htouched (hproper item hmem)) ?_
  rintro item hmem ⟨item', htouched, hdropped⟩
  rw [← pubrecId_touched htouched (hproper item hmem)]
  have hproper' : Proper item'.packet := (hproper item hmem).reads htouched.reads
  cases hdropped with
  | sent h =>
    apply pubrecId_eq_none
    intro htype
    rw [Packet.removable, if_neg (hproper'.identified (.inl htype)), htype] at h
    exact absurd h (by decide)
  | cleared hr => cases hr
  | unsuback hr => cases hr

/-- No PUBREC is cleared away. -/
theorem clearQueue_pubrecs (c : MqttClient cfg) {clearData : ℕ}
    (h : clearData = 0 ∨ c.outbox.items.all (!·.isType PacketType.PUBREC)) :
    (c.clearQueue clearData).pubrecs = c.pubrecs := by
  rw [pubrecs, outbox_clearQueue, CursorList.items_filter, List.filterMap_filter, pubrecs]
  apply List.filterMap_congr
  intro item hmem
  split_ifs with hkeeps
  · rfl
  · symm
    apply pubrecId_eq_none
    intro htype
    have hpubrec : item.isType PacketType.PUBREC := decide_eq_true htype
    rcases h with rfl | h
    · rw [keeps, if_pos rfl, decide_eq_true_iff] at hkeeps
      exact hkeeps (.inl hpubrec)
    · rw [List.all_eq_true] at h
      have hnot := h item hmem
      rw [hpubrec] at hnot
      cases hnot

/-- A packet at the back. -/
theorem push_pubrecs (c : MqttClient cfg) (packet : Packet) :
    (c.push packet).pubrecs = c.pubrecs ++ (OutgoingPacket.pubrecId ⟨0, packet, c.tick⟩).toList := by
  rw [pubrecs, show (c.push packet).outbox.items = c.outbox.items ++ [_] from CursorList.items_emplace _ _,
    List.filterMap_append, pubrecs]
  cases h : OutgoingPacket.pubrecId ⟨0, packet, c.tick⟩ <;> simp [h]

theorem push_pubrecs_of_ne (c : MqttClient cfg) {packet : Packet} (h : packet.packetType ≠ PacketType.PUBREC) :
    (c.push packet).pubrecs = c.pubrecs := by
  rw [push_pubrecs, pubrecId_eq_none h]
  exact List.append_nil _

/-- The first PUBREC in the queue. -/
theorem head_pubrecs (c : MqttClient cfg) :
    c.pubrecs.head? = (c.outbox.items.find? (·.isType PacketType.PUBREC)).map (·.packet.packetId) := by
  rw [pubrecs]
  induction c.outbox.items with
  | nil => rfl
  | cons item rest ih =>
    by_cases htype : item.isType PacketType.PUBREC
    · have hid : item.pubrecId = some item.packet.packetId := if_pos htype
      rw [List.filterMap_cons_some hid, List.find?_cons_of_pos htype]
      rfl
    · have hid : item.pubrecId = none := if_neg htype
      rw [List.filterMap_cons_none hid, List.find?_cons_of_neg htype, ih]

/-- Is there a PUBREC with this packet id? -/
theorem mem_pubrecs {c : MqttClient cfg} {packetId : UInt16} :
    packetId ∈ c.pubrecs ↔ (c.outbox.find (·.isFor PacketType.PUBREC packetId)).isSome := by
  rw [pubrecs, List.mem_filterMap, CursorList.find, List.findIdx?_isSome, List.any_eq_true]
  simp only [pubrecId_eq_some_iff]

/-- Another packet is taken out. -/
theorem remove_pubrecs {c : MqttClient cfg} {it : ℕ} {item : OutgoingPacket}
    (hitem : c.outbox.items[it]? = some item) (h : item.pubrecId = none) :
    (c.remove it).pubrecs = c.pubrecs := by
  obtain ⟨hlt, rfl⟩ := List.getElem?_eq_some_iff.mp hitem
  have hsplit :
      c.outbox.items = c.outbox.items.take it ++ c.outbox.items[it] :: c.outbox.items.drop (it + 1) := by
    rw [← List.drop_eq_getElem_cons hlt, List.take_append_drop]
  have hremove : (c.remove it).outbox.items = c.outbox.items.eraseIdx it := CursorList.items_remove _ _
  rw [pubrecs, hremove, List.eraseIdx_eq_take_drop_succ, List.filterMap_append, pubrecs]
  conv => rhs; rw [hsplit]
  rw [List.filterMap_append, List.filterMap_cons_none h]

/-- The next packet of another exchange is no PUBREC. -/
theorem Settles.pubrecs {ack : Ack} {before behind follow : List OutgoingPacket} {item : OutgoingPacket}
    {c d : MqttClient cfg} (h : Settles ack before item behind follow c d) (hack : ack ≠ .pubrel) :
    d.pubrecs = c.pubrecs := by
  have hitem : item.pubrecId = none := by
    apply pubrecId_eq_none
    rw [(isFor_iff.mp h.acknowledged).1]
    cases ack <;> first | decide | exact absurd rfl hack
  have hfollow : follow.filterMap (·.pubrecId) = [] := by
    rw [List.filterMap_eq_nil_iff]
    intro next hmem
    obtain ⟨type, hnext, -, htype⟩ := h.mem_follow hmem
    apply pubrecId_eq_none
    rw [htype]
    cases ack <;> cases hnext <;> decide
  rw [MqttClient.pubrecs, MqttClient.pubrecs, h.items, h.rest, List.filterMap_append, List.filterMap_append,
    List.filterMap_append, List.filterMap_cons_none hitem, hfollow, List.append_nil]

/-- A PUBREL takes the first PUBREC out. -/
theorem Settles.pubrecs_tail {before behind follow : List OutgoingPacket} {item : OutgoingPacket}
    {c d : MqttClient cfg} (h : Settles .pubrel before item behind follow c d)
    (hfirst : ∀ other ∈ before, ¬ other.isType PacketType.PUBREC) :
    c.pubrecs.head? = some c.incoming.packetId ∧ d.pubrecs = c.pubrecs.tail := by
  have hbefore : before.filterMap (·.pubrecId) = [] :=
    List.filterMap_eq_nil_iff.mpr fun other hmem => if_neg (hfirst other hmem)
  have hitem : item.pubrecId = some c.incoming.packetId := pubrecId_eq_some_iff.mpr h.acknowledged
  have hfollow : follow.filterMap (·.pubrecId) = [] := by
    rw [List.filterMap_eq_nil_iff]
    intro next hmem
    obtain ⟨type, hnext, -, htype⟩ := h.mem_follow hmem
    apply pubrecId_eq_none
    rw [htype]
    cases hnext
    decide
  rw [MqttClient.pubrecs, MqttClient.pubrecs, h.items, h.rest, List.filterMap_append, List.filterMap_append,
    List.filterMap_append, List.filterMap_cons_some hitem, hfollow, hbefore, List.append_nil]
  exact ⟨rfl, rfl⟩

/-! ### Steps -/

/-- Nothing that an exchange of quality 2 is about. -/
theorem InStep.aside {c c' : MqttClient cfg} (hc : c.InStep) (hpubrecs : c'.pubrecs = c.pubrecs)
    (hgrows : Grows Event.isNeutral c c') : c'.InStep := by
  obtain ⟨new, hlog, haside⟩ := hgrows
  refine ⟨?_, ?_⟩
  · rw [hpubrecs, hc.pubrecs, hlog, signals_append_of_isNeutral haside]
  · rw [hlog, delivered_append_of_isNeutral haside, signals_append_of_isNeutral haside, hc.delivered]

/-- A PUBREL that comes in. -/
theorem InStep.release {c c' : MqttClient cfg} (hc : c.InStep) {r : Record} (new : Log) {packetId : UInt16}
    (hr : r.event.signal = some (.release packetId)) (hnew : ∀ r ∈ new, r.event.isNeutral)
    (hlog : c'.log = new ++ r :: c.log)
    (hpubrecs : c'.pubrecs = if c.pubrecs.head? = some packetId then c.pubrecs.tail else c.pubrecs) :
    c'.InStep := by
  have hdelivers : r.event.delivers = none := by
    cases hevent : r.event with
    | onMessage report =>
      rw [hevent] at hr
      cases hr
    | _ => rfl
  have hcons : Log.delivered (r :: c.log) = c.log.delivered := List.filterMap_cons_none hdelivers
  refine ⟨?_, ?_⟩
  · rw [hpubrecs, hc.pubrecs, hlog, signals_append_of_isNeutral hnew, enqueues_signals_cons hr]
    rfl
  · rw [hlog, delivered_append_of_isNeutral hnew, signals_append_of_isNeutral hnew, hcons,
      enqueues_signals_cons hr]
    exact hc.delivered

/-- The last slice of a PUBLISH of quality 2 is answered, and delivered if no PUBREC waits. -/
theorem answerPublish_final {c : MqttClient cfg} (halloc : (env.alloc c.tick).Suffices cfg)
    (hsound : c.parser.Sound) (hfinal : c.parser.report.isFinal) :
    ((c.answerPublish env).1 ↔ c.incoming.packetId ∉ c.pubrecs) ∧
      (c.answerPublish env).2.pubrecs = c.pubrecs ++ [c.incoming.packetId] ∧
      (c.answerPublish env).2.log = c.log := by
  obtain ⟨hqos, hlast⟩ := of_decide_eq_true hfinal
  rw [hsound.length_payload] at hlast
  have hcomplete : c.incoming.payload.index + c.incoming.payload.length = c.incoming.payload.total := hlast
  have hqos : c.incoming.qos = 2 := hqos
  obtain ⟨packet, hbuild, hadd⟩ := addPacket_of_suffices c PacketType.PUBREC c.incoming.packetId halloc
  obtain ⟨-, hid, -, htype⟩ := Packet.ack_built hbuild
  have hpubrec : OutgoingPacket.pubrecId ⟨0, packet, c.tick⟩ = some c.incoming.packetId :=
    pubrecId_eq_some_iff.mpr (isFor_iff.mpr ⟨htype.trans (by decide), hid⟩)
  rw [answerPublish]
  simp only [hqos, hcomplete, decide_true, if_true, hadd]
  rw [if_neg (by decide)]
  refine ⟨?_, ?_, rfl⟩
  · rw [mem_pubrecs, Bool.not_eq_true, Option.isSome_eq_false_iff]
  · show (c.push packet).pubrecs = _
    rw [push_pubrecs, hpubrec]
    rfl

/-- Another slice leaves the PUBRECs alone. -/
theorem answerPublish_other {c : MqttClient cfg} (hsound : c.parser.Sound)
    (hfinal : c.parser.report.isFinal = false) : (c.answerPublish env).2.pubrecs = c.pubrecs := by
  rw [answerPublish]
  dsimp only
  split_ifs with h1 hcomplete h2 hcomplete
  · rcases addPacket_cases env c fun alloc => Packet.ack cfg alloc PacketType.PUBACK c.incoming.packetId with
      ⟨packet, hbuild, hadd⟩ | ⟨-, hadd⟩ <;> rw [hadd]
    · refine push_pubrecs_of_ne c ?_
      rw [(Packet.ack_built hbuild).2.2.2]
      decide
    · rfl
  · rfl
  · refine absurd (decide_eq_true ⟨h2, ?_⟩) (Bool.eq_false_iff.mp hfinal)
    rw [hsound.length_payload]
    exact of_decide_eq_true hcomplete
  · rfl
  · rfl

/-- A PUBLISH that is handled. -/
theorem InStep.message {c : MqttClient cfg} (hc : c.InStep) (halloc : (env.alloc c.tick).Suffices cfg)
    (hsound : c.parser.Sound) (htype : c.incomingType = PacketType.PUBLISH) :
    (if (c.received.answerPublish env).1 then
      (c.received.answerPublish env).2.note (.onMessage c.parser.report)
      else (c.received.answerPublish env).2).InStep := by
  have hpubrel : c.parser.report.packetType &&& 0xF0 ≠ PacketType.PUBREL := by
    rw [show c.parser.report.packetType &&& 0xF0 = PacketType.PUBLISH from htype]
    decide
  cases hfinal : c.parser.report.isFinal with
  | false =>
    -- another slice, or another quality of service
    have hsignal : c.parser.report.signal = none := by
      rw [Parser.Report.signal, hfinal, if_neg Bool.false_ne_true, if_neg hpubrel]
    have hpacket : (Event.packet c.parser.report).isNeutral := Option.isNone_iff_eq_none.mpr hsignal
    have hmessage : (Event.onMessage c.parser.report).isNeutral := by
      rw [Event.isNeutral, hfinal]
      rfl
    have hgrows : Grows Event.isNeutral c (c.received.answerPublish env).2 :=
      (grows_note c hpacket).trans (grows_answerPublish c.received)
    have hpubrecs : (c.received.answerPublish env).2.pubrecs = c.pubrecs :=
      answerPublish_other (c := c.received) hsound hfinal
    split_ifs
    · exact hc.aside hpubrecs (hgrows.trans (grows_note _ hmessage))
    · exact hc.aside hpubrecs hgrows
  | true =>
    obtain ⟨hdelivers, hpubrecs, hlog⟩ := answerPublish_final (c := c.received) halloc hsound hfinal
    have hreceived : (c.received.answerPublish env).2.log =
        ⟨.packet c.parser.report, c.state, c.outbox, c.bytesSent, c.disconnectReason⟩ :: c.log := hlog
    have hsame : c.received.pubrecs = (Receiver.enqueues c.log.signals).stored := hc.pubrecs
    rw [hsame] at hdelivers hpubrecs
    have hevent : (Event.packet c.parser.report).signal =
        some (.message c.parser.report.packetId c.parser.report) := signal_of_isFinal hfinal
    -- one PUBREC more, and the message if there was none
    have henqueues : Receiver.enqueues (c.received.answerPublish env).2.log.signals =
        (Receiver.enqueues c.log.signals).enqueue (.message c.parser.report.packetId c.parser.report) := by
      rw [hreceived, enqueues_signals_cons hevent]
    have hstored : (c.received.answerPublish env).2.pubrecs =
        (Receiver.enqueues (c.received.answerPublish env).2.log.signals).stored := by
      rw [hpubrecs, henqueues]
      rfl
    have hpast : (c.received.answerPublish env).2.log.delivered =
        (Receiver.enqueues c.log.signals).delivered.map Prod.snd := by
      rw [hreceived]
      exact hc.delivered
    split_ifs with hcallback
    · have hnew : c.parser.report.packetId ∉ (Receiver.enqueues c.log.signals).stored := hdelivers.mp hcallback
      refine ⟨hstored, ?_⟩
      have hmessage : (Event.onMessage c.parser.report).delivers = some c.parser.report := if_pos hfinal
      have hcons : ((c.received.answerPublish env).2.note (.onMessage c.parser.report)).log.delivered =
          c.parser.report :: (c.received.answerPublish env).2.log.delivered := List.filterMap_cons_some hmessage
      have hnote : ((c.received.answerPublish env).2.note (.onMessage c.parser.report)).log.signals =
          (c.received.answerPublish env).2.log.signals := rfl
      rw [hcons, hpast, hnote, henqueues, Receiver.enqueue, if_neg hnew]
      rfl
    · have hold : c.parser.report.packetId ∈ (Receiver.enqueues c.log.signals).stored := by
        by_contra hnew
        exact hcallback (hdelivers.mpr hnew)
      refine ⟨hstored, ?_⟩
      rw [hpast, henqueues, Receiver.enqueue, if_pos hold]

/-- A packet that is asked for is no PUBREC. -/
theorem Requested.packetType_ne {c : MqttClient cfg} {packet : Packet} {event : Event}
    (h : c.Requested packet event)
    (hlawful : event.isLawful) : packet.packetType ≠ PacketType.PUBREC := by
  have hother : ∀ {type : MQTTPacketType}, packet.packetType = type ∨ packet.packetType = 0 →
      type ≠ PacketType.PUBREC → packet.packetType ≠ PacketType.PUBREC := by
    rintro type (htype | htype) hne <;> rw [htype]
    · exact hne
    · decide
  cases h with
  | publish _ _ hpacket =>
    obtain ⟨alloc, hbuild⟩ := hpacket
    exact hother ((Packet.publish_built hbuild).2.2.2 (of_decide_eq_true hlawful)) (by decide)
  | publishChunked _ _ hpacket =>
    obtain ⟨alloc, hbuild⟩ := hpacket
    exact hother ((Packet.publishChunked_built hbuild).2.2.2 (of_decide_eq_true hlawful)) (by decide)
  | subscribe _ _ hpacket =>
    obtain ⟨alloc, hbuild⟩ := hpacket
    exact hother (Packet.subscribe_built hbuild).2.2.2 (by decide)
  | unsubscribe _ _ hpacket =>
    obtain ⟨alloc, hbuild⟩ := hpacket
    exact hother (Packet.unsubscribe_built hbuild).2.2.2 (by decide)
  | ping _ hpacket =>
    obtain ⟨alloc, hbuild⟩ := hpacket
    exact hother (Packet.control_built hbuild).2.2.2 (by decide)

/-- A packet is asked for. -/
theorem InStep.request {c c₁ : MqttClient cfg} {packet : Packet} {event : Event} (hc : c.InStep)
    (hnumber : c₁ = c ∨ c₁ = c.getNextPacketId.2) (h : c₁.Requested packet event) (hspares : event.isLawful) :
    ((c₁.push packet).asked.note event).InStep := by
  have hevent : event.isNeutral := by cases h <;> rfl
  have hpubrecs : (c₁.push packet).pubrecs = c.pubrecs := by
    rw [push_pubrecs_of_ne c₁ (h.packetType_ne hspares)]
    rcases hnumber with rfl | rfl <;> rfl
  refine hc.aside hpubrecs ?_
  rcases hnumber with rfl | rfl
  · exact grows_of_cons rfl hevent
  · exact grows_of_cons_cons rfl hevent rfl

/-- A packet that is no PUBREC is acknowledged and taken out. -/
theorem InStep.removed {c : MqttClient cfg} (hc : c.InStep) {it : ℕ} {item : OutgoingPacket} {event : Event}
    (hpacket : (Event.packet c.parser.report).isNeutral) (hitem : c.outbox.items[it]? = some item)
    (hid : item.pubrecId = none) (hevent : event.isNeutral) :
    ((c.received.remove it).note event).InStep := by
  refine hc.aside (remove_pubrecs (c := c.received) hitem hid) ?_
  exact (grows_note c hpacket).trans ((grows_remove c.received it rfl).trans (grows_note _ hevent))

/-- A PUBREL that finds no PUBREC does not have the packet id of the first one. -/
theorem head_pubrecs_ne {c : MqttClient cfg}
    (hnone : c.findFirst PacketType.PUBREC c.incoming.packetId = none) :
    ¬ c.pubrecs.head? = some c.incoming.packetId := by
  have hsome := isSome_findFirst c PacketType.PUBREC c.incoming.packetId
  rw [hnone] at hsome
  rw [head_pubrecs]
  intro heq
  obtain ⟨item, hfind, hid⟩ := Option.map_eq_some_iff.mp heq
  rw [hfind, Option.any_some, decide_eq_true hid] at hsome
  cases hsome

/-- An UNSUBACK that spares the PUBRECs does not find one. -/
theorem pubrecId_of_spared {c : MqttClient cfg} {it : ℕ} {item : OutgoingPacket}
    (htype : c.incomingType = PacketType.UNSUBACK)
    (hspared : (Record.mk (.packet c.parser.report) c.state c.outbox c.bytesSent
      c.disconnectReason).sparesPubrecs)
    (hfind : c.outbox.find (·.packet.packetId = c.incoming.packetId) = some it)
    (hitem : c.outbox.items[it]? = some item) : item.pubrecId = none := by
  have hfound : c.outbox.items.find? (·.packet.packetId = c.incoming.packetId) = some item := by
    rw [CursorList.find] at hfind
    rw [List.find?_eq_bind_findIdx?_getElem?, hfind]
    exact hitem
  have hall := of_decide_eq_true hspared htype
  change (c.outbox.items.find? (·.packet.packetId = c.incoming.packetId)).all _ = true at hall
  rw [hfound, Option.all_some, Bool.not_eq_true'] at hall
  exact pubrecId_eq_none (of_decide_eq_false hall)

/-- A packet with other first byte is added. -/
theorem packetType_control_ne {alloc : Alloc} {type : MQTTPacketType} {packet : Packet}
    (h : Packet.control cfg alloc type = (.SUCCESS, packet))
    (htype : type = PacketType.PINGREQ ∨ type = PacketType.DISCONNECT) :
    packet.packetType ≠ PacketType.PUBREC := by
  have hbuilt := (Packet.control_built h).2.2.2
  rcases htype with rfl | rfl <;> rcases hbuilt with hbuilt | hbuilt <;> rw [hbuilt] <;> decide

/-- **A step**, if there is memory and nothing that it notes is against the promises. -/
theorem Step.inStep {c c' : MqttClient cfg} (h : Step env c c') (halloc : ∀ tick, (env.alloc tick).Suffices cfg)
    (hproper : c.QueuesProper) (hsheltered : ∀ r ∈ c'.log, r.isSheltered)
    (hspares : ∀ r ∈ c'.log, r.sparesPubrecs) (hc : c.InStep) : c'.InStep := by
  have hitems : ∀ {c' : MqttClient cfg}, c'.outbox.items = c.outbox.items → c'.pubrecs = c.pubrecs := fun h =>
    congrArg (List.filterMap _) h
  have hleaves : ∀ {c' : MqttClient cfg}, Leaves cfg [] c.outbox c'.outbox → c'.pubrecs = c.pubrecs := fun h =>
    h.pubrecs hproper
  have hpacket : ∀ {type : MQTTPacketType}, c.incomingType = type → type ≠ PacketType.PUBLISH →
      type ≠ PacketType.PUBREL → (Event.packet c.parser.report).isNeutral := by
    rintro type rfl hpublish hpubrel
    exact isNeutral_packet hpublish hpubrel
  cases h with
  | quiet h => exact hc.aside (hitems (by rw [h.outbox])) (grows_of_log h.log)
  | error packetId => exact hc.aside rfl (grows_note c rfl)
  | calls apiCalls => exact hc.aside rfl (grows_note c rfl)
  | connect hstate hbuilds =>
    obtain ⟨alloc, hbuild⟩ := hbuilds
    refine hc.aside ?_ (grows_of_cons_cons rfl rfl rfl)
    rw [pubrecs]
    refine List.filterMap_cons_none (pubrecId_eq_none ?_)
    rcases (Packet.connect_built hbuild).2.2.2.1 with htype | htype <;> dsimp only <;> rw [htype] <;> decide
  | connectFailed => exact hc.aside rfl (grows_of_log rfl)
  | disconnect force =>
    rw [MqttClient.disconnect]
    split_ifs
    · exact hc.aside rfl (grows_of_cons_cons rfl rfl rfl)
    · exact hc.aside rfl (grows_of_cons_cons rfl rfl rfl)
    · exact hc
  | nextPacketId => exact hc.aside rfl (grows_of_cons rfl rfl)
  | @publish _ qos _ _ _ hstate hbuilds =>
    obtain ⟨alloc, hbuild⟩ := hbuilds
    rw [← tick_publishPacketId c qos] at hspares ⊢
    refine hc.request (publishPacketId_spec c qos (Packet.publish_built hbuild).2.1).1
      (.publish ?_ (publishPacketId_ne_zero c) ⟨_, hbuild⟩) (hspares _ List.mem_cons_self)
    rw [refusesPublish_publishPacketId, hstate]
  | @publishChunked _ qos _ _ _ _ hstate hbuilds =>
    obtain ⟨alloc, hbuild⟩ := hbuilds
    rw [← tick_publishPacketId c qos] at hspares ⊢
    refine hc.request (publishPacketId_spec c qos (Packet.publishChunked_built hbuild).2.1).1
      (.publishChunked ?_ (publishPacketId_ne_zero c) ⟨_, hbuild⟩) (hspares _ List.mem_cons_self)
    rw [refusesPublish_publishPacketId, hstate]
  | subscribe hstate hbuilds =>
    exact hc.request (.inr rfl) (.subscribe hstate (getNextPacketId_ne_zero c) hbuilds) rfl
  | unsubscribe hstate hbuilds =>
    exact hc.request (.inr rfl) (.unsubscribe hstate (getNextPacketId_ne_zero c) hbuilds) rfl
  | clearQueue deleteSessionData =>
    have hclears := hsheltered _ List.mem_cons_self
    exact hc.aside (clearQueue_pubrecs c (of_decide_eq_true hclears)) (grows_of_cons rfl rfl)
  | connecting => exact hc.aside rfl (grows_setState c rfl)
  | established => exact hc.aside rfl (grows_setState c rfl)
  | lost fault => exact hc.aside rfl (grows_of_cons_cons rfl rfl rfl)
  | addDisconnect _ _ hbuilds =>
    obtain ⟨alloc, hbuild⟩ := hbuilds
    exact hc.aside (push_pubrecs_of_ne c (packetType_control_ne hbuild (.inr rfl))) (grows_of_cons rfl rfl)
  | stop => exact hc.aside rfl (grows_of_cons_cons rfl rfl rfl)
  | close =>
    exact hc.aside (clearQueue_pubrecs c (.inl rfl)) ⟨[_, _, _], rfl, by simp [Event.isNeutral]⟩
  | sendConnect => exact hc.aside (hleaves (sendPacket_leaves env [] c)) (grows_sendPacket c fun _ => rfl)
  | sendRound =>
    exact hc.aside (hleaves (sendRound_leaves env [] c)) (grows_sendRound c (fun _ => rfl) (fun _ => rfl) rfl)
  | ping _ hbuilds =>
    obtain ⟨alloc, hbuild⟩ := hbuilds
    exact hc.aside (push_pubrecs_of_ne c (packetType_control_ne hbuild (.inl rfl))) (grows_of_cons rfl rfl)
  | timeout => exact hc.aside rfl (grows_of_cons rfl rfl)
  | unexpected => exact hc.aside rfl (grows_of_cons_cons rfl rfl rfl)
  | ignore hlistens _ _ hpublish hpubrel =>
    by_cases hreleases : c.incomingType = PacketType.PUBREL
    · have hhead := head_pubrecs_ne (hpubrel hreleases)
      have hevent : (Event.packet c.parser.report).signal = some (.release c.incoming.packetId) :=
        signal_of_release hreleases
      refine hc.release [] hevent (fun r hr => absurd hr List.not_mem_nil) rfl ?_
      rw [if_neg hhead]
      rfl
    · refine hc.aside rfl (grows_of_cons rfl (isNeutral_packet (fun htype => ?_) hreleases))
      -- a PUBLISH would have come in after the user called disconnect
      have hconnected := hsheltered _ List.mem_cons_self
      have hstate : c.state = .connected := of_decide_eq_true hconnected htype
      have hclosing := hpublish htype
      rw [hstate] at hclosing
      exact absurd hclosing (by decide)
  | refused _ htype =>
    exact hc.aside rfl (grows_of_cons_cons rfl rfl (hpacket htype (by decide) (by decide)))
  | accept _ htype =>
    have hgrows : Grows Event.isNeutral c c.received.accept :=
      (grows_note c (hpacket htype (by decide) (by decide))).trans
        ((grows_admitted c.received (fun _ => rfl) (fun _ => rfl) rfl).trans (grows_note _ rfl))
    refine hc.aside ?_ hgrows
    have hadvance : c.received.connectedNow.advanceOutbox.2.pubrecs = c.pubrecs :=
      hleaves (advanceOutbox_leaves [] c.received.connectedNow)
    show c.received.admitted.pubrecs = c.pubrecs
    have hadmitted : ∀ r ∈ c.received.admitted.log, r.isSheltered := fun r hr =>
      hsheltered r (List.mem_cons_of_mem _ hr)
    rw [admitted] at hadmitted ⊢
    split_ifs at hadmitted ⊢
    · have hclears := hadmitted _ List.mem_cons_self
      rw [clearQueue_pubrecs _ (of_decide_eq_true hclears), hadvance]
    · exact hadvance
  | message _ htype _ hsound => exact hc.message (halloc _) hsound htype
  | @finish it type request hexchange _ htype hid hfind =>
    obtain ⟨ack, htype', hrequest, hack, htells⟩ := ack_of_finishing hexchange
    obtain ⟨item, -, hitem, hitemType, -⟩ := findFirst_spec hfind
    have htypes : finishing.all (fun exchange => exchange.1 ≠ PacketType.PUBLISH ∧
        exchange.1 ≠ PacketType.PUBREL ∧ exchange.2 ≠ PacketType.PUBREC) := by decide
    have hne := of_decide_eq_true (List.all_eq_true.mp htypes _ hexchange)
    have hitemId : item.pubrecId = none := pubrecId_eq_none (of_decide_eq_true hitemType ▸ hne.2.2)
    exact hc.removed (hpacket htype hne.1 hne.2.1) hitem hitemId rfl
  | @proceed it type request next hexchange _ htype hid hfind =>
    obtain ⟨item, hfirst, hitem, hitemType, heq⟩ := findFirst_spec hfind
    have hfor : item.isFor request c.received.incoming.packetId := isFor_of_isType hitemType heq
    have hitem : c.received.outbox.items[it]? = some item := hitem
    simp only [proceeding, List.mem_cons, Prod.mk.injEq, List.not_mem_nil, or_false] at hexchange
    rcases hexchange with ⟨rfl, rfl, rfl⟩ | ⟨rfl, rfl, rfl⟩
    · -- a PUBREC of the server: the PUBREL takes the place of a PUBLISH
      obtain ⟨follow, hsettles⟩ := proceed_settles env (show Ack.pubrec.next = _ from rfl) hitem hfor
      refine hc.aside (hsettles.pubrecs Ack.noConfusion) ?_
      exact (grows_note c (hpacket htype (by decide) (by decide))).trans
        ((grows_addPacket c.received _).trans (grows_remove _ it rfl))
    · -- a PUBREL: the PUBCOMP takes the place of the first PUBREC
      obtain ⟨follow, hsettles⟩ := proceed_settles env (show Ack.pubrel.next = _ from rfl) hitem hfor
      have hbefore : ∀ other ∈ c.received.outbox.items.take it, ¬ other.isType PacketType.PUBREC := by
        intro other hmem
        obtain ⟨j, hj, rfl⟩ := List.mem_take_iff_getElem.mp hmem
        exact (CursorList.find_eq_some_iff.mp hfirst).2.2 j (by omega)
      obtain ⟨hhead, htail⟩ := hsettles.pubrecs_tail hbefore
      obtain ⟨r, hr, hlog⟩ := hsettles.log
      have hevent : (Event.packet c.parser.report).signal = some (.release c.incoming.packetId) :=
        signal_of_release htype
      refine hc.release [r] hevent ?_ hlog ?_
      · rw [List.forall_mem_singleton, hr]
        rfl
      · have hhead : c.pubrecs.head? = some c.incoming.packetId := hhead
        rw [if_pos hhead]
        exact htail
  | suback returncodes _ htype hid hfind =>
    obtain ⟨item, hitem, hfor⟩ := find_spec hfind
    have hitemId : item.pubrecId = none := pubrecId_eq_none (by rw [(isFor_iff.mp hfor).1]; decide)
    exact hc.removed (hpacket htype (by decide) (by decide)) hitem hitemId rfl
  | @unsuback it _ htype hid hfind =>
    obtain ⟨item, hitem, -⟩ := find_spec hfind
    -- the PUBLISH or SUBSCRIBE that it hits, if it is not an UNSUBSCRIBE, is at least no PUBREC
    have hspared := hspares _ (List.mem_cons_of_mem _ (List.mem_cons_of_mem _ List.mem_cons_self))
    have hitemId := pubrecId_of_spared htype hspared hfind hitem
    exact hc.removed (hpacket htype (by decide) (by decide)) hitem hitemId rfl

/-! ### Runs -/

theorem Move.inStep {c c' : MqttClient cfg} (h : Move env c c') (halloc : ∀ tick, (env.alloc tick).Suffices cfg)
    (hproper : c.QueuesProper) (hsheltered : ∀ r ∈ c'.log, r.isSheltered)
    (hspares : ∀ r ∈ c'.log, r.sparesPubrecs) (hc : c.InStep) : c'.InStep := by
  cases h with
  | step h => exact h.inStep halloc hproper hsheltered hspares hc
  | transportConnect success => exact hc.aside rfl (grows_note c rfl)
  | read bytes => exact hc.aside rfl (grows_note c rfl)
  | parsed parser bytes => exact hc.aside rfl (grows_of_cons rfl rfl)

theorem run_inStep (env : Env cfg) (halloc : ∀ tick, (env.alloc tick).Suffices cfg) (generatedClientId : CString)
    (actions : List Action)
    (hsheltered : ∀ r ∈ ((new cfg generatedClientId).run env actions).log, r.isSheltered)
    (hspares : ∀ r ∈ ((new cfg generatedClientId).run env actions).log, r.sparesPubrecs) :
    ((new cfg generatedClientId).run env actions).InStep := by
  refine run_move_invariant env (fun r => r.isSheltered ∧ r.sparesPubrecs) InStep generatedClientId ⟨rfl, rfl⟩ ?_
    actions fun r hr => ⟨hsheltered r hr, hspares r hr⟩
  intro c c' hmove hcondition hproper hc
  exact hmove.inStep halloc hproper (fun r hr => (hcondition r hr).1) (fun r hr => (hcondition r hr).2) hc

end MqttClient

end EspMqttClient
