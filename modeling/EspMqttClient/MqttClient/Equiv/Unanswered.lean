/-
  No message is lost.

  A message that was accepted by `publish` with quality 1 or 2 is unanswered until the client handles a PUBACK
  or a PUBREC with its packet id.  As long as nobody clears the queue of all data and no UNSUBACK comes in, every
  unanswered message is in the queue, in every run (`run_keepsUnanswered`).
-/
import EspMqttClient.MqttClient.Equiv.Tally
import EspMqttClient.Packets.Equiv.RoundTrip

namespace EspMqttClient

/-! ### Messages -/

/-- A message as it was given to `publish`, with what that returned and when its packet was added. -/
structure Message where
  added : ℕ
  packetId : UInt16
  topic : CString
  payload : List Byte
  qos : Byte
  retain : Bool
deriving DecidableEq

namespace Message

/-- The message is to be acknowledged and its lengths can be encoded. -/
structure Regular (m : Message) : Prop where
  qos : m.qos = 1 ∨ m.qos = 2
  topic_le : m.topic.length ≤ 65535
  length_le : Packet.publishRemainingLength m.topic m.payload.length m.qos ≤ 268435455

/-- The bytes of its PUBLISH, marked as a duplicate or not. -/
def bytes (m : Message) (dup : Bool) : List Byte :=
  Parser.sentByte m.qos m.retain dup ::
    (encodeRemainingLength (Packet.publishRemainingLength m.topic m.payload.length m.qos) ++
      (Packet.stringBytes m.topic ++ Packet.idBytes m.packetId m.qos)) ++ m.payload

/-- The packet in the queue is the PUBLISH of the message. -/
structure IsIn (m : Message) (item : OutgoingPacket) : Prop where
  added : item.added = m.added
  packetId : item.packet.packetId = m.packetId
  getPayload : item.packet.getPayload = none
  data : ∃ dup, item.packet.data = m.bytes dup

end Message

namespace Event

/-- The message that was accepted. -/
def message : Event → Option Message
  | .publish added packetId topic payload qos retain => some ⟨added, packetId, topic, payload, qos, retain⟩
  | _ => none

/-- Is a PUBACK or a PUBREC with this packet id handled? -/
def answers (packetId : UInt16) : Event → Bool
  | .packet report => (report.packetType &&& 0xF0 = PacketType.PUBACK ∨
      report.packetType &&& 0xF0 = PacketType.PUBREC) ∧ report.packetId = packetId
  | _ => false

/-- Anything but an UNSUBACK and `clearQueue(true)`. -/
def isHarmless : Event → Bool
  | .clearQueue clearData => clearData ≠ 2
  | .packet report => report.packetType &&& 0xF0 ≠ PacketType.UNSUBACK
  | _ => true

end Event

/-- The messages that were accepted and not answered since. -/
def Log.unanswered : Log → List Message
  | [] => []
  | r :: past => r.event.message.toList ++ (Log.unanswered past).filter fun m => !r.event.answers m.packetId

namespace MqttClient

variable {cfg : Config} {env : Env cfg} {m : Message}

/-! ### The packet of a message -/

theorem sentByte_dup {qos : Byte} (hqos : qos = 1 ∨ qos = 2) (retain dup : Bool) :
    Parser.sentByte qos retain dup ||| 0x08 = Parser.sentByte qos retain true := by
  rcases hqos with rfl | rfl <;> cases retain <;> cases dup <;> decide

theorem isIn_touched {item item' : OutgoingPacket} (h : m.IsIn item) (hm : m.Regular)
    (htouched : Touched cfg item item') : m.IsIn item' := by
  obtain ⟨hadded, hpacketId, hnone, hdata⟩ := h
  refine ⟨htouched.added.trans hadded, htouched.reads.packetId.trans hpacketId,
    htouched.reads.getPayload.trans hnone, ?_⟩
  have hreads := htouched.reads
  clear htouched hadded hpacketId
  generalize item'.packet = packet at hreads
  induction hreads with
  | refl => exact hdata
  | available call index hq ih =>
    rw [Packet.available_buffered (hq.getPayload.trans hnone)]
    exact ih
  | @setDup packet hq ih =>
    rcases Packet.setDup_eq packet with h | h <;> rw [h]
    · exact ih
    · obtain ⟨dup, hdata⟩ := ih
      refine ⟨true, ?_⟩
      rw [hdata, Message.bytes, List.cons_append, List.modifyHead_cons, sentByte_dup hm.qos]
      rfl

/-- It is a PUBLISH. -/
theorem packetType_of_isIn {item : OutgoingPacket} (h : m.IsIn item) (hm : m.Regular) :
    item.packet.packetType = PacketType.PUBLISH := by
  obtain ⟨dup, hdata⟩ := h.data
  rw [Packet.packetType, hdata, Message.bytes, List.cons_append]
  show Parser.sentByte m.qos m.retain dup &&& 0xF0 = _
  rcases hm.qos with hqos | hqos <;> rw [hqos] <;> cases m.retain <;> cases dup <;> decide

/-- The PUBLISH that `publish` adds is that of its message. -/
theorem isIn_of_publish {alloc : Alloc} {packet : Packet} (hm : m.Regular) (hid : m.packetId ≠ 0)
    (h : Packet.publish cfg alloc m.packetId m.topic m.payload m.qos m.retain = (.SUCCESS, packet)) :
    m.IsIn ⟨0, packet, m.added⟩ := by
  have hqos : m.qos ≤ 2 := by rcases hm.qos with hqos | hqos <;> rw [hqos] <;> decide
  obtain ⟨-, hpacketId, hnone, -⟩ := Packet.publish_built h
  refine ⟨rfl, ?_, hnone, false, Parser.sent_data hqos (fun _ => hid) hm.topic_le hm.length_le h false⟩
  rw [hpacketId, if_neg]
  rintro hzero
  rcases hm.qos with hqos | hqos <;> rw [hzero] at hqos <;> exact absurd hqos (by decide)

/-! ### What is unanswered -/

/-- Without new messages what is unanswered was it before, and no answer came. -/
theorem unanswered_append {new past : Log} (hnew : ∀ r ∈ new, r.event.message = none)
    (hmem : m ∈ Log.unanswered (new ++ past)) :
    m ∈ past.unanswered ∧ ∀ r ∈ new, r.event.answers m.packetId = false := by
  induction new with
  | nil => exact ⟨hmem, fun _ h => absurd h List.not_mem_nil⟩
  | cons r new ih =>
    rw [List.forall_mem_cons] at hnew
    rw [List.cons_append, Log.unanswered, hnew.1, Option.toList_none, List.nil_append, List.mem_filter] at hmem
    obtain ⟨hpast, hanswers⟩ := ih hnew.2 hmem.1
    rw [List.forall_mem_cons]
    exact ⟨hpast, by simpa using hmem.2, hanswers⟩

theorem unanswered_cons {r : Record} {past : Log} (hr : r.event.message = none)
    (hmem : m ∈ Log.unanswered (r :: past)) : m ∈ past.unanswered :=
  (unanswered_append (List.forall_mem_singleton.mpr hr) hmem).1

theorem message_of_isIdle {event : Event} (h : event.isIdle) : event.message = none := by
  cases event <;> first | rfl | cases h

theorem message_of_mem_tells {ack : Ack} {packetId : UInt16} {returncodes : List Byte} {event : Event}
    (h : event ∈ ack.tells packetId returncodes) : event.message = none := by
  cases ack <;> first | exact absurd h List.not_mem_nil | exact (List.mem_singleton.mp h ▸ rfl)

/-- Every regular message that is unanswered is in the queue. -/
def KeepsUnanswered (c : MqttClient cfg) : Prop :=
  ∀ m ∈ c.log.unanswered, m.Regular → m.packetId ≠ 0 ∧ ∃ item ∈ c.outbox.items, m.IsIn item

/-- No packet of a message is given up. -/
theorem not_givenUp {log : Log} {item : OutgoingPacket} (hm : m.Regular) (hid : m.packetId ≠ 0)
    (hin : m.IsIn item) (hharmless : ∀ r ∈ log, r.event.isHarmless) : ¬ GivenUp cfg log item := by
  rintro ⟨item', htouched, hdropped⟩
  have hin' := isIn_touched hin hm htouched
  have htype := packetType_of_isIn hin' hm
  have hne : item'.packet.packetId ≠ 0 := hin'.packetId ▸ hid
  cases hdropped with
  | sent h =>
    rw [Packet.removable, if_neg hne, htype] at h
    exact absurd h (by decide)
  | @cleared r clearData hr hevent hle hkeeps =>
    have hharmless := hharmless r hr
    rw [hevent] at hharmless
    have hdata : clearData = 0 ∨ clearData = 1 := by
      have hne : clearData ≠ 2 := of_decide_eq_true hharmless
      omega
    have hpublish : item'.isType PacketType.PUBLISH := decide_eq_true htype
    rcases hdata with rfl | rfl
    · simp [keeps, hpublish, hne] at hkeeps
    · simp [keeps, hpublish] at hkeeps
  | @unsuback r report hr hevent htype =>
    have hharmless := hharmless r hr
    rw [hevent] at hharmless
    exact of_decide_eq_true hharmless htype

/-- The packet of a message is taken out by its answer only. -/
theorem mem_rest_of_settles {c d : MqttClient cfg} {ack : Ack} {before behind follow : List OutgoingPacket}
    {item other : OutgoingPacket} (hm : m.Regular) (hin : m.IsIn other)
    (h : Settles ack before item behind follow c.received d) (htype : c.incomingType = ack.type)
    (hunanswered : Event.answers m.packetId (.packet c.parser.report) = false)
    (hmem : other ∈ c.outbox.items) : other ∈ d.outbox.items := by
  rw [h.rest]
  rw [show c.outbox.items = _ from h.items, List.mem_append, List.mem_cons] at hmem
  rcases hmem with hmem | rfl | hmem
  · exact List.mem_append_left _ (List.mem_append_left _ hmem)
  · -- it would be a PUBACK or a PUBREC with its packet id
    obtain ⟨hrequest, hid⟩ := isFor_iff.mp h.acknowledged
    rw [packetType_of_isIn hin hm] at hrequest
    have hack : c.incomingType = PacketType.PUBACK ∨ c.incomingType = PacketType.PUBREC := by
      rw [htype]
      cases ack with
      | puback => exact .inl rfl
      | pubrec => exact .inr rfl
      | _ => exact absurd hrequest (by decide)
    have hanswers : Event.answers m.packetId (.packet c.parser.report) :=
      decide_eq_true ⟨hack, hid.symm.trans hin.packetId⟩
    rw [hunanswered] at hanswers
    cases hanswers
  · exact List.mem_append_left _ (List.mem_append_right _ hmem)

theorem Deal.keepsUnanswered {c c' : MqttClient cfg} (h : Deal c c')
    (hharmless : ∀ r ∈ c'.log, r.event.isHarmless) (hc : c.KeepsUnanswered) : c'.KeepsUnanswered := by
  intro m hmem hm
  cases h with
  | thins hitems _ hgrows =>
    obtain ⟨new, hlog, hidle⟩ := hgrows
    rw [hlog] at hmem
    obtain ⟨hpast, -⟩ := unanswered_append (fun r hr => message_of_isIdle (hidle r hr)) hmem
    obtain ⟨hid, item, hitem, hin⟩ := hc m hpast hm
    rcases hitems.gone_or_exists_mem hitem with hgone | ⟨item', hitem', htouched⟩
    · exact absurd hgone (not_givenUp hm hid hin hharmless)
    · exact ⟨hid, item', hitem', isIn_touched hin hm htouched⟩
  | number =>
    exact hc m (unanswered_cons rfl hmem) hm
  | @request c₁ packet event hnumber hid h =>
    have hitems : ((c₁.push packet).asked.note event).outbox.items = c₁.outbox.items ++ [⟨0, packet, c₁.tick⟩] :=
      CursorList.items_emplace _ _
    have hnumbered : c₁.KeepsUnanswered := by
      rcases hnumber with rfl | rfl
      · exact hc
      · intro m hmem hm
        exact hc m (unanswered_cons rfl hmem) hm
    have hold : m ∈ c₁.log.unanswered → m.packetId ≠ 0 ∧
        ∃ item ∈ ((c₁.push packet).asked.note event).outbox.items, m.IsIn item := by
      intro hpast
      obtain ⟨hid, item, hitem, hin⟩ := hnumbered m hpast hm
      exact ⟨hid, item, hitems ▸ List.mem_append_left _ hitem, hin⟩
    rcases List.mem_append.mp hmem with hmem | hmem
    · cases h with
      | publish _ hne hpacket =>
        obtain ⟨alloc, hbuild⟩ := hpacket
        obtain rfl := List.mem_singleton.mp hmem
        have hid := hne (by rintro hzero; rcases hm.qos with hqos | hqos <;> rw [hzero] at hqos <;> cases hqos)
        refine ⟨hid, _, ?_, isIn_of_publish hm hid hbuild⟩
        rw [hitems]
        exact List.mem_append_right _ List.mem_cons_self
      | _ => exact absurd hmem List.not_mem_nil
    · exact hold (List.mem_filter.mp hmem).1
  | add _ _ hitems _ hgrows =>
    obtain ⟨new, hlog, hidle⟩ := hgrows
    rw [hlog] at hmem
    obtain ⟨hpast, -⟩ := unanswered_append (fun r hr => message_of_isIdle (hidle r hr)) hmem
    obtain ⟨hid, item, hitem, hin⟩ := hc m hpast hm
    exact ⟨hid, item, hitems.symm.subset (List.mem_cons_of_mem _ hitem), hin⟩
  | settle ack returncodes _ htype _ hsettles hitems _ hlog =>
    obtain ⟨new, hlog, htells⟩ := hlog
    obtain ⟨r, s, hr, hs, hd⟩ := hsettles.log_eq
    have hsplit : c'.log = (new ++ [r, s]) ++ c.log := by rw [hlog, hd, List.append_assoc]; rfl
    have hnew : ∀ t ∈ new ++ [r, s], t.event.message = none := by
      intro t ht
      rcases List.mem_append.mp ht with ht | ht
      · exact message_of_mem_tells (htells ▸ List.mem_map_of_mem ht)
      · rcases List.mem_pair.mp ht with rfl | rfl
        · rw [hr]
          rfl
        · rw [hs]
          rfl
    rw [hsplit] at hmem
    obtain ⟨hpast, hanswers⟩ := unanswered_append hnew hmem
    have hunanswered := hanswers s (by simp)
    rw [hs] at hunanswered
    obtain ⟨hid, item, hitem, hin⟩ := hc m hpast hm
    exact ⟨hid, item, hitems ▸ mem_rest_of_settles hm hin hsettles htype hunanswered hitem, hin⟩

/-- **No message is lost**: in every run in which nobody calls `clearQueue(true)` and no UNSUBACK comes in. -/
theorem run_keepsUnanswered (env : Env cfg) (generatedClientId : CString) (actions : List Action)
    (hharmless : ∀ r ∈ ((new cfg generatedClientId).run env actions).log, r.event.isHarmless) {m : Message}
    (hmem : m ∈ ((new cfg generatedClientId).run env actions).log.unanswered) (hm : m.Regular) :
    m.packetId ≠ 0 ∧ ∃ item ∈ ((new cfg generatedClientId).run env actions).outbox.items, m.IsIn item := by
  refine run_deal_invariant env (fun r => r.event.isHarmless) KeepsUnanswered generatedClientId ?_ ?_ actions
    hharmless m hmem hm
  · exact fun _ hmem => absurd hmem List.not_mem_nil
  · exact fun h hharmless _ hc => h.keepsUnanswered hharmless hc

/-- A server that accepts the client twice, but not its session. -/
def forgetfulScript : Script where
  read := [(10, [0x20, 2, 0, 0]), (31, [0x20, 2, 0, 0])]

/-- The client loses its connection when it has sent its message. -/
def forgetfulActions : List Action :=
  [.call (.publish ⟨[0x66], by decide⟩ 2 false [7, 8]), .call .connect, .loop, .loop, .loop,
    .call (.disconnect true),
    .loop, .loop, .call (.clearQueue false), .call .connect, .loop, .loop, .loop]

theorem run_keepsUnanswered_forgetful : (1 : UInt16) ≠ 0 ∧
    ∃ item ∈ (forgetfulScript.run forgetfulActions).outbox.items,
      Message.IsIn ⟨0, 1, ⟨[0x66], by decide⟩, [7, 8], 2, false⟩ item := by
  refine run_keepsUnanswered (forgetfulScript.env .linux) ⟨[0x63], by decide⟩ forgetfulActions ?_
    (m := ⟨0, 1, ⟨[0x66], by decide⟩, [7, 8], 2, false⟩) ?_ ⟨.inr rfl, by decide, by decide⟩
  · decide +kernel
  · decide +kernel

end MqttClient

end EspMqttClient
