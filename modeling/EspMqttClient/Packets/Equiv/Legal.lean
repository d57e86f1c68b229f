/-
  Which packets the parser returns.

  Whatever a server sends and however it is cut, a packet that `parse` returns is `Legal` if and
  only if it `BeginsLegally` (`legal_iff`): `_fixedHeader` lets a PUBLISH of quality 3 through that
  is marked as a duplicate, and `_varHeaderTopicLength2` a topic of no bytes.  Everything else that
  is checked at all is checked on every path.
-/
import EspMqttClient.Packets.Equiv.Midway

namespace EspMqttClient

namespace Parser

variable {cfg : Config}

instance (code : Byte) : Decidable (isSubackCode code) := inferInstanceAs (Decidable (_ ∨ _))

instance (type : Byte) : Decidable (isIdentifier type) := inferInstanceAs (Decidable (_ ∨ _))

/-! ### Legal packets -/

/-- A legal PUBLISH, by what the parser holds of it. -/
structure LegalPublish (q : Parser cfg) : Prop where
  isPublish : q.isPublish
  qos : q.packet.qos ≤ 2
  dup : q.packet.qos = 0 → q.packet.dup = false
  topic : 1 ≤ q.packet.topicLength.toNat
  packetId : q.packet.qos ≠ 0 → q.packet.packetId ≠ 0

/-- A legal packet from a server: its flags, its packet id and its codes are what they must be.  Whether the
fields are as long together as the remaining length says is not asked here but by `framed_iff`. -/
def Legal (q : Parser cfg) : Prop :=
  LegalPublish q ∨
  (isIdentifier q.packet.packetType ∧ q.packet.packetId ≠ 0) ∨
  (q.packet.packetType = PacketType.SUBACK ∧ q.packet.packetId ≠ 0 ∧
    ∀ code ∈ q.report.payload, isSubackCode code) ∨
  (q.packet.packetType = PacketType.CONNACK ∧ q.packet.sessionPresent ≤ 1 ∧ q.packet.returnCode ≤ 5) ∨
  q.packet.packetType = PacketType.PINGRESP

/-- The two things that the parser does not look at: whether a duplicate is of quality 3 and whether a
topic has no bytes. -/
def BeginsLegally (s : List Byte) : Prop :=
  (∀ type rest, s = type :: rest → type ≠ 0x3E ∧ type ≠ 0x3F) ∧
    ∀ type ls hi lo rest, s = type :: (ls ++ hi :: lo :: rest) → type &&& 0xF0 = PacketType.PUBLISH →
      IsLengthField ls → joinBytes hi lo ≠ 0

/-! ### PUBLISH -/

/-- What holds of each number below 256 holds of each byte. -/
theorem forall_byte {P : Byte → Prop} (h : ∀ n : Fin 256, P (UInt8.ofNat n)) (b : Byte) : P b := by
  have hb := h ⟨b.toNat, b.toNat_lt⟩
  rwa [UInt8.ofNat_toNat] at hb

/-- The flags of a PUBLISH that the parser accepts are legal with two exceptions. -/
theorem publish_flags (type : Byte) : startsPublish type →
    ((type ≠ 0x3E ∧ type ≠ 0x3F) ↔ publishQos type ≤ 2 ∧ (publishQos type = 0 → publishDup type = false)) ∧
      (hasPacketId type = true ↔ publishQos type ≠ 0) := by
  revert type
  exact forall_byte (by decide +kernel)

/-- A PUBLISH that is returned is legal if its flags are and it has a topic. -/
theorem PublishBegun.legal_iff {u : List Byte} {q : Parser cfg} (h : PublishBegun u q)
    (hid : hasPacketId q.packet.packetType → q.packet.packetId ≠ 0) : q.Legal ↔ BeginsLegally u := by
  obtain ⟨htype, -, hi, lo, behind, ⟨ls, hls, rfl⟩, htopic⟩ := h
  obtain ⟨hflags, hpacketId⟩ := publish_flags _ htype
  constructor
  · rintro (⟨-, hqos, hdup, hone, -⟩ | ⟨hother, -⟩ | ⟨hother, -⟩ | ⟨hother, -⟩ | hother)
    · -- the flags are those of the first byte, and the topic length those of the bytes behind the length
      -- field
      refine ⟨?_, ?_⟩
      · intro type rest heq
        rw [← (List.cons.inj heq).1]
        exact hflags.mpr ⟨hqos, hdup⟩
      · intro type ls' hi' lo' rest heq _ hls'
        obtain ⟨-, -, rfl, rfl⟩ := header_inj hls hls' heq
        intro hzero
        rw [htopic, hzero] at hone
        exact absurd hone (by decide)
    · -- the first byte is not one of another packet
      exact absurd htype.1 hother.type.1
    · rw [hother] at htype
      exact absurd htype (by decide)
    · rw [hother] at htype
      exact absurd htype (by decide)
    · rw [hother] at htype
      exact absurd htype (by decide)
  · rintro ⟨hfirst, hlength⟩
    obtain ⟨hqos, hdup⟩ := hflags.mp (hfirst _ _ rfl)
    have hne := hlength _ _ _ _ _ rfl htype.1 hls
    refine .inl ⟨htype.1, hqos, hdup, ?_, fun h => hid (hpacketId.mpr h)⟩
    rw [htopic, Nat.one_le_iff_ne_zero, ne_eq, ← UInt16.toNat_zero, UInt16.toNat_inj]
    exact hne

/-! ### All packets -/

/-- A packet of another type begins legally. -/
theorem beginsLegally_of_ne {type : Byte} {rest : List Byte} (h : type &&& 0xF0 ≠ PacketType.PUBLISH) :
    BeginsLegally (type :: rest) := by
  constructor
  · rintro type' rest' heq
    obtain ⟨rfl, -⟩ := List.cons.inj heq
    constructor
    · rintro rfl
      exact h (by decide)
    · rintro rfl
      exact h (by decide)
  · intro type' ls hi lo rest' heq hpublish _
    obtain ⟨rfl, -⟩ := List.cons.inj heq
    exact absurd hpublish h

/-- What is known of a packet that is returned is enough, but for how it begins. -/
theorem Told.legal_iff {u : List Byte} {q : Parser cfg} (h : Told u q) : q.Legal ↔ BeginsLegally u := by
  obtain ⟨⟨rest, rfl⟩, ⟨hbegun, hid⟩ | ⟨hack, hid⟩ | ⟨hsuback, hid, hcodes⟩ |
    ⟨hconnack, hsession, hcode⟩ | hping⟩ := h
  · exact hbegun.legal_iff hid
  · exact iff_of_true (.inr (.inl ⟨hack, hid⟩)) (beginsLegally_of_ne hack.type.1)
  · refine iff_of_true (.inr (.inr (.inl ⟨hsuback, hid, hcodes⟩))) (beginsLegally_of_ne ?_)
    rw [hsuback]
    decide
  · have hone : q.packet.sessionPresent ≤ 1 := by
      rw [UInt8.le_iff_toNat_le]
      exact Nat.lt_succ_iff.mp (UInt8.lt_iff_toNat_lt.mp hsession)
    refine iff_of_true (.inr (.inr (.inr (.inl ⟨hconnack, hone, hcode⟩)))) (beginsLegally_of_ne ?_)
    rw [hconnack]
    decide
  · refine iff_of_true (.inr (.inr (.inr (.inr hping)))) (beginsLegally_of_ne ?_)
    rw [hping]
    decide

/-- **Exactly the packets that begin legally are legal.** `u` are the bytes of the packet that were read before,
`input.take n` those that this call read. -/
theorem legal_iff_beginsLegally {u : List Byte} {p : Parser cfg} (h : Reached u p) {input : List Byte} {n : ℕ}
    {q : Parser cfg} (hcall : p.parseInput input = (.packet, n, q)) :
    q.Legal ↔ BeginsLegally (u ++ input.take n) := by
  have hparse := h.midway.parseInput input
  rw [hcall] at hparse
  exact hparse.1.legal_iff

/-- The parser in the middle of a SUBACK. -/
def midSuback : Parser .linux := ((new .linux).reset.parseInput [0x90, 0x04, 0x00]).2.2

theorem midSuback_reached : Reached [0x90, 0x04, 0x00] midSuback := by
  have hcall : (new .linux).reset.parseInput [0x90, 0x04, 0x00] = (.awaitData, 3, midSuback) :=
    Prod.ext rfl (Prod.ext rfl rfl)
  have h := Reached.parse (.reset (new .linux)) hcall (by decide)
  have hopen : midSuback.parse ≠ .fixedHeader := by decide
  rwa [if_neg hopen] at h

/-- A SUBACK in two buffers. -/
theorem legal_iff_beginsLegally_suback : (midSuback.parseInput [0x07, 0x02, 0x80]).2.2.Legal ↔
    BeginsLegally [0x90, 0x04, 0x00, 0x07, 0x02, 0x80] :=
  legal_iff_beginsLegally midSuback_reached (Prod.ext (by decide +kernel) (Prod.ext rfl rfl))

/-- A duplicate of quality 3 is returned. -/
theorem not_legal_all : ¬ ∀ (u : List Byte) (p : Parser .linux) (input : List Byte) (n : ℕ) (q : Parser .linux),
    Reached u p → p.parseInput input = (.packet, n, q) → q.Legal := by
  intro h
  have hlegal := h [] (new .linux).reset [0x3E, 0x05, 0x00, 0x01, 0x61, 0x00, 0x01] 7
    ((new .linux).reset.parseInput [0x3E, 0x05, 0x00, 0x01, 0x61, 0x00, 0x01]).2.2 (.reset _) (by rfl)
  rcases hlegal with ⟨-, hqos, -⟩ | ⟨hack, -⟩ | ⟨hsuback, -⟩ | ⟨hconnack, -⟩ | hping
  · exact absurd hqos (by decide)
  · exact absurd hack (by decide)
  · exact absurd hsuback (by decide)
  · exact absurd hconnack (by decide)
  · exact absurd hping (by decide)

end Parser

end EspMqttClient
