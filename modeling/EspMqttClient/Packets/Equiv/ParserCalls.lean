/-
  What one call of a state function does to a parser.

  `Ok` is the invariant of the parser between two bytes (`Ok.call`).  Two parsers are `Similar` when
  they differ at most in how much of a payload they reported in one slice; no state function can
  tell them apart (`Similar.call`).
-/
import EspMqttClient.Packets.Stream
import Mathlib.Tactic.SplitIfs

namespace EspMqttClient

namespace Parser

variable {cfg : Config}

/-! ### Well-formed parsers -/

/-- Is the packet at hand a PUBLISH? -/
def isPublish (p : Parser cfg) : Prop := p.packet.packetType &&& 0xF0 = PacketType.PUBLISH

instance (p : Parser cfg) : Decidable p.isPublish := inferInstanceAs (Decidable (_ = _))

/-- What holds between any two bytes: the payload of a PUBLISH is not complete while the parser waits
for it, and nothing of it is reported before. -/
structure Ok (p : Parser cfg) : Prop where
  payload : p.parse = .payloadPublish → p.packet.payload.index + p.packet.payload.length
    < p.packet.payload.total
  topic : p.parse = .varHeaderTopicLength1 ∨ p.parse = .varHeaderTopicLength2
    ∨ p.parse = .varHeaderTopic → p.isPublish
  start : p.parse ≠ .fixedHeader → p.parse ≠ .payloadPublish → p.isPublish →
    p.packet.payload.index = 0 ∧ p.packet.payload.length = 0

theorem ok_of_fixedHeader {p : Parser cfg} (h : p.parse = .fixedHeader) : p.Ok where
  payload := by simp [h]
  topic := by simp [h]
  start := by simp [h]

theorem reset_ok (p : Parser cfg) : p.reset.Ok := ok_of_fixedHeader rfl

/-- Every state function leaves a well-formed parser. -/
theorem Ok.call {p : Parser cfg} (h : p.Ok) (byte : Byte) (rest : List Byte) :
    (p.call byte rest).2.2.Ok := by
  cases hp : p.parse with
  | fixedHeader =>
    -- the members of the union are cleared, whatever the packet is
    simp only [Parser.call, hp, fixedHeader]
    split_ifs <;> exact ⟨by simp, by simp, fun _ _ _ => ⟨rfl, rfl⟩⟩
  | remainingLengthFixed =>
    have hstart := h.start (by simp [hp]) (by simp [hp])
    simp only [Parser.call, hp, remainingLengthFixed]
    split_ifs
    · exact ⟨by simp, by simp, fun _ _ => hstart⟩
    · exact ⟨by simp, by simp, fun _ _ => hstart⟩
    · exact ok_of_fixedHeader rfl
  | remainingLengthNone =>
    simp only [Parser.call, hp, remainingLengthNone]
    split_ifs <;> exact ok_of_fixedHeader rfl
  | remainingLengthVariable =>
    have hstart := h.start (by simp [hp]) (by simp [hp])
    simp only [Parser.call, hp, remainingLengthVariable]
    split_ifs with hcontinued hfour hpublish hsize
    · exact ⟨by simp, by simp, fun _ _ => hstart⟩
    · exact ⟨by simp, by simp, fun _ _ => hstart⟩
    · exact ⟨by simp, fun _ => hpublish, fun _ _ => hstart⟩
    · -- this is a SUBACK
      exact ⟨by simp, by simp, fun _ _ h => absurd h hpublish⟩
    · exact ok_of_fixedHeader rfl
  | varHeaderConnack1 =>
    have hstart := h.start (by simp [hp]) (by simp [hp])
    simp only [Parser.call, hp, varHeaderConnack1]
    split_ifs
    · exact ⟨by simp, by simp, fun _ _ => hstart⟩
    · exact ok_of_fixedHeader rfl
  | varHeaderConnack2 =>
    simp only [Parser.call, hp, varHeaderConnack2]
    split_ifs <;> exact ok_of_fixedHeader rfl
  | varHeaderPacketId1 =>
    have hstart := h.start (by simp [hp]) (by simp [hp])
    simp only [Parser.call, hp, varHeaderPacketId1]
    exact ⟨by simp, by simp, fun _ _ => hstart⟩
  | varHeaderPacketId2 =>
    have hstart := h.start (by simp [hp]) (by simp [hp])
    simp only [Parser.call, hp, varHeaderPacketId2]
    split_ifs with hid hsuback hpublish htotal
    · exact ⟨by simp, by simp, fun _ _ => hstart⟩
    · exact ok_of_fixedHeader rfl
    · -- the payload is next and nothing of it is reported yet
      obtain ⟨hindex, hlength⟩ := hstart hpublish
      refine ⟨fun _ => ?_, by simp, by simp⟩
      dsimp only
      omega
    · exact ok_of_fixedHeader rfl
    · exact ok_of_fixedHeader rfl
  | varHeaderTopicLength1 =>
    have hpublish := h.topic (.inl hp)
    have hstart := h.start (by simp [hp]) (by simp [hp])
    simp only [Parser.call, hp, varHeaderTopicLength1]
    exact ⟨by simp, fun _ => hpublish, fun _ _ => hstart⟩
  | varHeaderTopicLength2 =>
    have hpublish := h.topic (.inr (.inl hp))
    have hstart := h.start (by simp [hp]) (by simp [hp])
    simp only [Parser.call, hp, varHeaderTopicLength2]
    generalize cfg.sub (cfg.sub p.packet.remainingLength 2) _ = maxTopicLength
    split_ifs
    · exact ⟨by simp, fun _ => hpublish, fun _ _ => hstart⟩
    · exact ok_of_fixedHeader rfl
  | varHeaderTopic =>
    have hpublish := h.topic (.inr (.inr hp))
    have hstart := h.start (by simp [hp]) (by simp [hp])
    simp only [Parser.call, hp, varHeaderTopic]
    split_ifs with hend hid htotal
    · exact ⟨by simp, by simp, fun _ _ => hstart⟩
    · exact ok_of_fixedHeader rfl
    · -- as behind a packet id
      obtain ⟨hindex, hlength⟩ := hstart hpublish
      refine ⟨fun _ => ?_, by simp, by simp⟩
      dsimp only
      omega
    · exact ⟨by simp, fun _ => hpublish, fun _ _ => hstart⟩
  | payloadSuback =>
    have hstart := h.start (by simp [hp]) (by simp [hp])
    simp only [Parser.call, hp, payloadSuback]
    split_ifs
    · exact ok_of_fixedHeader rfl
    · exact ⟨by simp, by simp, fun _ _ => hstart⟩
    · exact ok_of_fixedHeader rfl
  | payloadPublish =>
    have hpayload := h.payload hp
    simp only [Parser.call, hp, payloadPublish]
    split_ifs with hend
    · exact ok_of_fixedHeader rfl
    · -- a slice ends where its input does
      refine ⟨fun _ => ?_, by simp, by simp⟩
      dsimp only
      omega

/-- A call in another state than `payloadPublish` reads one byte and looks at no other. -/
theorem call_byte {p : Parser cfg} (h : p.parse ≠ .payloadPublish) (byte : Byte) (rest : List Byte) :
    p.call byte rest = ((p.call byte []).1, 1, (p.call byte []).2.2) := by
  unfold Parser.call
  cases hp : p.parse <;> simp_all

theorem length_payloadPublish (p : Parser cfg) (input : List Byte) :
    (p.payloadPublish input).packet.payload.length =
      min input.length (p.packet.payload.total - (p.packet.payload.index + p.packet.payload.length)) := by
  rw [payloadPublish]
  dsimp only
  split_ifs <;> rfl

/-- A call reads at least one byte and no more than there are. -/
theorem Ok.call_read {p : Parser cfg} (h : p.Ok) (byte : Byte) (rest : List Byte) :
    1 ≤ (p.call byte rest).2.1 ∧ (p.call byte rest).2.1 ≤ rest.length + 1 := by
  by_cases hp : p.parse = .payloadPublish
  · have := h.payload hp
    simp only [Parser.call, hp, length_payloadPublish, List.length_cons]
    omega
  · rw [call_byte hp]
    simp

/-! ### Similar parsers -/

/-- Two parsers that differ at most in where the last slice began. -/
structure Similar (p q : Parser cfg) : Prop where
  bytePos : p.bytePos = q.bytePos
  parse : p.parse = q.parse
  packet : { p.packet with payload := q.packet.payload } = q.packet
  payloadBuffer : p.payloadBuffer = q.payloadBuffer
  total : p.packet.payload.total = q.packet.payload.total
  read : p.packet.payload.index + p.packet.payload.length
    = q.packet.payload.index + q.packet.payload.length
  slice : p.parse = .fixedHeader ∨ p.parse = .payloadPublish ∨
    (p.packet.payload.index = q.packet.payload.index ∧ (p.packet.payload.length = 0 ∨
      p.packet.payload.data = q.packet.payload.data))

theorem Similar.refl (p : Parser cfg) : p.Similar p where
  bytePos := rfl
  parse := rfl
  packet := rfl
  payloadBuffer := rfl
  total := rfl
  read := rfl
  slice := .inr (.inr ⟨rfl, .inr rfl⟩)

theorem Similar.trans {p q r : Parser cfg} (h : p.Similar q) (h' : q.Similar r) : p.Similar r where
  bytePos := h.bytePos.trans h'.bytePos
  parse := h.parse.trans h'.parse
  packet := by rw [← h'.packet, ← h.packet]
  payloadBuffer := h.payloadBuffer.trans h'.payloadBuffer
  total := h.total.trans h'.total
  read := h.read.trans h'.read
  slice := by
    have hparse := h.parse
    have hread := h.read
    rcases h.slice with h1 | h1 | ⟨hi, hd⟩
    · exact .inl h1
    · exact .inr (.inl h1)
    rcases h'.slice with h1 | h1 | ⟨hi', hd'⟩
    · exact .inl (hparse.trans h1)
    · exact .inr (.inl (hparse.trans h1))
    · refine .inr (.inr ⟨hi.trans hi', ?_⟩)
      rcases hd with hd | hd
      · exact .inl hd
      · rcases hd' with hd' | hd'
        · exact .inl (by omega)
        · exact .inr (hd.trans hd')

theorem Similar.symm {p q : Parser cfg} (h : p.Similar q) : q.Similar p where
  bytePos := h.bytePos.symm
  parse := h.parse.symm
  packet := by rw [← h.packet]
  payloadBuffer := h.payloadBuffer.symm
  total := h.total.symm
  read := h.read.symm
  slice := by
    have hread := h.read
    rw [← h.parse]
    refine h.slice.imp id (Or.imp id fun ⟨hi, hd⟩ => ⟨hi.symm, ?_⟩)
    exact hd.imp (fun hd => by omega) Eq.symm

/-- Two outcomes of a call that a caller cannot tell apart. -/
structure SimilarCall (r s : ParserResult × ℕ × Parser cfg) : Prop where
  result : r.1 = s.1
  read : r.2.1 = s.2.1
  parser : r.2.2.Similar s.2.2
  report : r.1 = .packet → r.2.2.report = s.2.2.report

/-- **No state function tells similar parsers apart.** -/
theorem Similar.call {p q : Parser cfg} (h : p.Similar q) (byte : Byte) (rest : List Byte) :
    SimilarCall (p.call byte rest) (q.call byte rest) := by
  obtain ⟨bytePos, parse, ⟨type, rl, raw, tl, topic, sp, rc, id, ⟨data, length, index, total⟩⟩,
    buffer⟩ := p
  obtain ⟨bytePos', parse', ⟨type', rl', raw', tl', topic', sp', rc', id',
    ⟨data', length', index', total'⟩⟩, buffer'⟩ := q
  obtain ⟨hpos, hparse, hpacket, hbuffer, htotal, hread, hslice⟩ := h
  simp only [IncomingPacket.mk.injEq] at hpacket
  simp only at hpos hparse hbuffer htotal hread hslice
  obtain ⟨rfl, rfl, rfl, rfl, rfl, rfl, rfl, rfl, -⟩ := hpacket
  subst hpos hparse hbuffer htotal
  cases parse
  case fixedHeader =>
    -- index and length are cleared
    simp only [Parser.call, fixedHeader, IncomingPacket.reset]
    split_ifs <;> refine ⟨rfl, rfl, ?_, by simp⟩ <;> constructor <;> simp
  case payloadPublish =>
    -- only their sum is read
    simp only [Parser.call, payloadPublish, hread]
    split_ifs <;> refine ⟨rfl, rfl, ?_, by simp [Parser.report, payloadData]⟩ <;> constructor <;> simp
  all_goals simp only [reduceCtorEq, false_or] at hslice
  all_goals obtain ⟨rfl, hdata⟩ := hslice
  all_goals obtain rfl : length = length' := by omega
  -- from here on they can only differ in a pointer to nothing
  all_goals
    have hreport : ∀ pos parse rl (topic : Vector Byte (cfg.maxTopicLength + 1)) rc id
        (buffer : Vector Byte cfg.payloadBufferSize) total,
        Parser.report ⟨pos, parse, ⟨type, rl, raw, tl, topic, sp, rc, id, ⟨data, length, index, total⟩⟩,
          buffer⟩ = Parser.report ⟨pos, parse, ⟨type, rl, raw, tl, topic, sp, rc, id,
          ⟨data', length, index, total⟩⟩, buffer⟩ := by
      intros
      rcases hdata with rfl | rfl <;> simp [Parser.report, payloadData]
  case remainingLengthFixed =>
    simp only [Parser.call, remainingLengthFixed]
    split_ifs <;> refine ⟨rfl, rfl, ?_, by simp⟩ <;> constructor <;> simp [hdata]
  case remainingLengthNone =>
    simp only [Parser.call, remainingLengthNone]
    split_ifs <;> refine ⟨rfl, rfl, ?_, by simp [hreport]⟩ <;> constructor <;> simp
  case remainingLengthVariable =>
    simp only [Parser.call, remainingLengthVariable]
    split_ifs <;> refine ⟨rfl, rfl, ?_, by simp⟩ <;> constructor <;> simp [hdata]
  case varHeaderConnack1 =>
    simp only [Parser.call, varHeaderConnack1]
    split_ifs <;> refine ⟨rfl, rfl, ?_, by simp⟩ <;> constructor <;> simp [hdata]
  case varHeaderConnack2 =>
    simp only [Parser.call, varHeaderConnack2]
    split_ifs <;> refine ⟨rfl, rfl, ?_, by simp [hreport]⟩ <;> constructor <;> simp
  case varHeaderPacketId1 =>
    refine ⟨rfl, rfl, ?_, by simp [Parser.call, varHeaderPacketId1]⟩
    simp only [Parser.call, varHeaderPacketId1]
    constructor <;> simp [hdata]
  case varHeaderPacketId2 =>
    simp only [Parser.call, varHeaderPacketId2]
    split_ifs <;> refine ⟨rfl, rfl, ?_, by simp [hreport]⟩ <;> constructor <;> simp [hdata]
  case varHeaderTopicLength1 =>
    refine ⟨rfl, rfl, ?_, by simp [Parser.call, varHeaderTopicLength1]⟩
    simp only [Parser.call, varHeaderTopicLength1]
    constructor <;> simp [hdata]
  case varHeaderTopicLength2 =>
    simp only [Parser.call, varHeaderTopicLength2]
    split_ifs <;> refine ⟨rfl, rfl, ?_, by simp⟩ <;> constructor <;> simp [hdata]
  case varHeaderTopic =>
    simp only [Parser.call, varHeaderTopic]
    split_ifs <;> refine ⟨rfl, rfl, ?_, by simp [hreport]⟩ <;> constructor <;> simp [hdata]
  case payloadSuback =>
    simp only [Parser.call, payloadSuback]
    split_ifs <;> refine ⟨rfl, rfl, ?_, by simp [hreport]⟩ <;> constructor <;> simp [hdata]

end Parser

end EspMqttClient
