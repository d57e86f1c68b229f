/-
  What can be relied on in a packet that the parser returns.

  `Sound` adds to `Ok` what the state functions know of the packet type.  A parser that is reset is sound
  and every call leaves a sound one (`Sound.call`).  A packet that needs a packet id has one
  (`Sound.parseInput`), and a report has as many bytes of payload as the packet says.
-/
import EspMqttClient.Packets.Equiv.ParserCalls

namespace EspMqttClient

namespace Parser

variable {cfg : Config}

/-- A well-formed parser whose state suits the type of the packet at hand. -/
structure Sound (p : Parser cfg) : Prop extends Ok p where
  none : p.parse = .remainingLengthNone → p.packet.packetType &&& 0xF0 = PacketType.PINGRESP
  connack : p.parse = .varHeaderConnack1 ∨ p.parse = .varHeaderConnack2 →
    p.packet.packetType &&& 0xF0 = PacketType.CONNACK
  suback : p.parse = .payloadSuback → p.packet.packetId ≠ 0
  publish : p.parse = .payloadPublish → p.isPublish ∧ (hasPacketId p.packet.packetType → p.packet.packetId ≠ 0)
  fits : p.packet.payload.length ≤ p.payloadData.length

theorem new_sound : (new cfg).Sound where
  toOk := ok_of_fixedHeader rfl
  none := by simp [new]
  connack := by simp [new]
  suback := by simp [new]
  publish := by simp [new]
  fits := by simp [new]

theorem reset_sound (p : Parser cfg) : p.reset.Sound where
  toOk := reset_ok p
  none := by simp [reset]
  connack := by simp [reset]
  suback := by simp [reset]
  publish := by simp [reset]
  fits := by simp [reset, IncomingPacket.reset]

/-- What a returned packet looks like: a CONNACK, a PINGRESP and a PUBLISH of quality 0 come without a
packet id. -/
def Identified (p : Parser cfg) : Prop :=
  p.packet.packetType &&& 0xF0 = PacketType.CONNACK ∨ p.packet.packetType &&& 0xF0 = PacketType.PINGRESP ∨
    (p.isPublish ∧ (hasPacketId p.packet.packetType → p.packet.packetId ≠ 0)) ∨ p.packet.packetId ≠ 0

/-- Every state function leaves a sound parser, and a packet it returns has the packet id it needs. -/
theorem Sound.call {p : Parser cfg} (h : p.Sound) (byte : Byte) (rest : List Byte) :
    (p.call byte rest).2.2.Sound ∧
      ((p.call byte rest).1 = .packet → (p.call byte rest).2.2.Identified) := by
  have hok := h.toOk.call byte rest
  cases hp : p.parse with
  | fixedHeader =>
    simp only [Parser.call, hp, fixedHeader] at hok ⊢
    split_ifs at hok ⊢ with hpublish hflags hfixed hsuback hping
    · exact ⟨⟨hok, by simp, by simp, by simp, by simp, Nat.zero_le _⟩, by simp⟩
    · exact ⟨⟨hok, by simp, by simp, by simp, by simp, Nat.zero_le _⟩, by simp⟩
    · exact ⟨⟨hok, by simp, by simp, by simp, by simp, Nat.zero_le _⟩, by simp⟩
    · exact ⟨⟨hok, by simp, by simp, by simp, by simp, Nat.zero_le _⟩, by simp⟩
    · have htype : byte &&& 0xF0 = PacketType.PINGRESP := by rw [hping]; decide
      exact ⟨⟨hok, fun _ => htype, by simp, by simp, by simp, Nat.zero_le _⟩, by simp⟩
    · exact ⟨⟨hok, by simp, by simp, by simp, by simp, Nat.zero_le _⟩, by simp⟩
  | remainingLengthFixed =>
    simp only [Parser.call, hp, remainingLengthFixed] at hok ⊢
    split_ifs at hok ⊢ with htwo hconnack
    · exact ⟨⟨hok, by simp, by simp, by simp, by simp, h.fits⟩, by simp⟩
    · exact ⟨⟨hok, by simp, fun _ => not_not.mp hconnack, by simp, by simp, h.fits⟩, by simp⟩
    · exact ⟨⟨hok, by simp, by simp, by simp, by simp, h.fits⟩, by simp⟩
  | remainingLengthNone =>
    have htype := h.none hp
    simp only [Parser.call, hp, remainingLengthNone] at hok ⊢
    split_ifs at hok ⊢
    · exact ⟨⟨hok, by simp, by simp, by simp, by simp, h.fits⟩, fun _ => .inr (.inl htype)⟩
    · exact ⟨⟨hok, by simp, by simp, by simp, by simp, h.fits⟩, by simp⟩
  | remainingLengthVariable =>
    simp only [Parser.call, hp, remainingLengthVariable] at hok ⊢
    split_ifs at hok ⊢ with hcontinued hfour hpublish hsize
    · exact ⟨⟨hok, by simp, by simp, by simp, by simp, h.fits⟩, by simp⟩
    · exact ⟨⟨hok, by simp, by simp, by simp, by simp, h.fits⟩, by simp⟩
    · exact ⟨⟨hok, by simp, by simp, by simp, by simp, h.fits⟩, by simp⟩
    · -- the codes of a SUBACK fit in the buffer
      refine ⟨⟨hok, by simp, by simp, by simp, by simp, ?_⟩, by simp⟩
      rw [payloadData, Vector.length_toList]
      dsimp only
      omega
    · exact ⟨⟨hok, by simp, by simp, by simp, by simp, h.fits⟩, by simp⟩
  | varHeaderConnack1 =>
    have htype := h.connack (.inl hp)
    simp only [Parser.call, hp, varHeaderConnack1] at hok ⊢
    split_ifs at hok ⊢
    · exact ⟨⟨hok, by simp, fun _ => htype, by simp, by simp, h.fits⟩, by simp⟩
    · exact ⟨⟨hok, by simp, by simp, by simp, by simp, h.fits⟩, by simp⟩
  | varHeaderConnack2 =>
    have htype := h.connack (.inr hp)
    simp only [Parser.call, hp, varHeaderConnack2] at hok ⊢
    split_ifs at hok ⊢
    · exact ⟨⟨hok, by simp, by simp, by simp, by simp, h.fits⟩, fun _ => .inl htype⟩
    · exact ⟨⟨hok, by simp, by simp, by simp, by simp, h.fits⟩, by simp⟩
  | varHeaderPacketId1 =>
    simp only [Parser.call, hp, varHeaderPacketId1] at hok ⊢
    exact ⟨⟨hok, by simp, by simp, by simp, by simp, h.fits⟩, by simp⟩
  | varHeaderPacketId2 =>
    simp only [Parser.call, hp, varHeaderPacketId2] at hok ⊢
    split_ifs at hok ⊢ with hid hsuback hpublish htotal
    · exact ⟨⟨hok, by simp, by simp, fun _ => hid, by simp, h.fits⟩, by simp⟩
    · exact ⟨⟨hok, by simp, by simp, by simp, by simp, h.fits⟩, fun _ => .inr (.inr (.inr hid))⟩
    · exact ⟨⟨hok, by simp, by simp, by simp, fun _ => ⟨hpublish, fun _ => hid⟩, h.fits⟩, by simp⟩
    · exact ⟨⟨hok, by simp, by simp, by simp, by simp, h.fits⟩, fun _ => .inr (.inr (.inr hid))⟩
    · exact ⟨⟨hok, by simp, by simp, by simp, by simp, h.fits⟩, by simp⟩
  | varHeaderTopicLength1 =>
    simp only [Parser.call, hp, varHeaderTopicLength1] at hok ⊢
    exact ⟨⟨hok, by simp, by simp, by simp, by simp, h.fits⟩, by simp⟩
  | varHeaderTopicLength2 =>
    simp only [Parser.call, hp, varHeaderTopicLength2] at hok ⊢
    generalize cfg.sub (cfg.sub p.packet.remainingLength 2) _ = maxTopicLength at hok ⊢
    split_ifs at hok ⊢
    · exact ⟨⟨hok, by simp, by simp, by simp, by simp, h.fits⟩, by simp⟩
    · exact ⟨⟨hok, by simp, by simp, by simp, by simp, h.fits⟩, by simp⟩
  | varHeaderTopic =>
    have hpublish := h.topic (.inr (.inr hp))
    simp only [Parser.call, hp, varHeaderTopic] at hok ⊢
    split_ifs at hok ⊢ with hend hid htotal
    · exact ⟨⟨hok, by simp, by simp, by simp, by simp, h.fits⟩, by simp⟩
    · exact ⟨⟨hok, by simp, by simp, by simp, by simp, h.fits⟩,
        fun _ => .inr (.inr (.inl ⟨hpublish, fun h => absurd h hid⟩))⟩
    · exact ⟨⟨hok, by simp, by simp, by simp, fun _ => ⟨hpublish, fun h => absurd h hid⟩, h.fits⟩, by simp⟩
    · exact ⟨⟨hok, by simp, by simp, by simp, by simp, h.fits⟩, by simp⟩
  | payloadSuback =>
    have hid := h.suback hp
    have hfits := h.fits
    -- the buffer is as long as it was
    have hbuffer (buffer : Vector Byte cfg.payloadBufferSize) :
        p.payloadData.length = ({ p with payloadBuffer := buffer } : Parser cfg).payloadData.length := by
      rw [payloadData, payloadData]
      cases p.packet.payload.data <;> simp
    simp only [Parser.call, hp, payloadSuback] at hok ⊢
    split_ifs at hok ⊢
    · exact ⟨⟨hok, by simp, by simp, by simp, by simp, hfits.trans (hbuffer _).le⟩,
        fun _ => .inr (.inr (.inr hid))⟩
    · exact ⟨⟨hok, by simp, by simp, fun _ => hid, by simp, hfits.trans (hbuffer _).le⟩, by simp⟩
    · exact ⟨⟨hok, by simp, by simp, by simp, by simp, hfits⟩, by simp⟩
  | payloadPublish =>
    have hpublish := h.publish hp
    simp only [Parser.call, hp, payloadPublish] at hok ⊢
    split_ifs at hok ⊢
    · exact ⟨⟨hok, by simp, by simp, by simp, by simp, Nat.min_le_left _ _⟩,
        fun _ => .inr (.inr (.inl hpublish))⟩
    · exact ⟨⟨hok, by simp, by simp, by simp, fun _ => hpublish, Nat.min_le_left _ _⟩,
        fun _ => .inr (.inr (.inl hpublish))⟩

/-- `parse` leaves a sound parser, and a packet it returns has the packet id it needs. -/
theorem Sound.parseInput : ∀ {p : Parser cfg} (_ : p.Sound) (input : List Byte),
    (p.parseInput input).2.2.Sound ∧
      ((p.parseInput input).1 = .packet → (p.parseInput input).2.2.Identified) := by
  intro p h input
  induction input generalizing p with
  | nil => exact ⟨h, by simp [Parser.parseInput]⟩
  | cons byte rest ih =>
    obtain ⟨hsound, hpacket⟩ := h.call byte rest
    rw [Parser.parseInput]
    generalize p.call byte rest = call at *
    obtain ⟨result, n, q⟩ := call
    dsimp only at hsound hpacket ⊢
    cases result with
    | awaitData => exact ih hsound
    | packet => exact ⟨hsound, fun _ => hpacket rfl⟩
    | protocolError => exact ⟨hsound, by simp⟩

/-- A sound parser reports the whole slice. -/
theorem Sound.length_payload {p : Parser cfg} (h : p.Sound) :
    p.report.payload.length = p.packet.payload.length := by
  rw [report, List.length_take, Nat.min_eq_left h.fits]

end Parser

end EspMqttClient
