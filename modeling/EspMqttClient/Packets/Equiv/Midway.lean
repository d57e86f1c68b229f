/-
  What the parser knows in the middle of a packet.

  `Midway` ties the state of the parser to the bytes it read of the packet at hand, whatever they are: of which
  type the packet can be, what was checked of it so far, and where in its arrays the parser is.  Every state
  function keeps it (`Midway.call`), so it holds of every parser that was reset and met no protocol error since
  (`Reached.midway`).  `Told` is what is known of a packet that is returned.
-/
import EspMqttClient.Packets.Equiv.Framing
import EspMqttClient.Packets.Equiv.ParserReports
import EspMqttClient.Packets.Equiv.Slices

namespace EspMqttClient

namespace Parser

variable {cfg : Config}

/-! ### Types of packets -/

/-- The first bytes of the packets that consist of a packet id. -/
def isIdentifier (type : Byte) : Prop :=
  type = PacketType.PUBACK ∨ type = PacketType.PUBREC ∨
    type = PacketType.PUBREL ||| HeaderFlag.PUBREL_RESERVED ∨ type = PacketType.PUBCOMP ∨
    type = PacketType.UNSUBACK

/-- The return codes of a SUBACK. -/
def isSubackCode (code : Byte) : Prop := code < 0x03 ∨ code = 0x80

instance (code : Byte) : Decidable (isSubackCode code) := inferInstanceAs (Decidable (_ ∨ _))

theorem isIdentifier.type {type : Byte} (h : isIdentifier type) :
    type &&& 0xF0 ≠ PacketType.PUBLISH ∧ type &&& 0xF0 ≠ PacketType.SUBACK ∧
      type &&& 0xF0 ≠ PacketType.CONNACK := by
  rcases h with rfl | rfl | rfl | rfl | rfl <;> decide

/-! ### The invariant -/

/-- `u` begins with a fixed header, `behind` it comes the rest of `u`. -/
def Begun (type : Byte) (u behind : List Byte) : Prop := ∃ ls, IsLengthField ls ∧ u = type :: (ls ++ behind)

theorem Begun.append {type : Byte} {u behind : List Byte} (h : Begun type u behind) (more : List Byte) :
    Begun type (u ++ more) (behind ++ more) := by
  obtain ⟨ls, hls, rfl⟩ := h
  exact ⟨ls, hls, by simp⟩

theorem Begun.head {type : Byte} {u behind : List Byte} (h : Begun type u behind) (more : List Byte) :
    ∃ rest, u ++ more = type :: rest := by
  obtain ⟨ls, -, rfl⟩ := h
  exact ⟨ls ++ behind ++ more, rfl⟩

/-- The packet at hand is a PUBLISH whose topic length was read, and what is left for its payload is a
`size_t`. -/
def PublishBegun (u : List Byte) (p : Parser cfg) : Prop :=
  startsPublish p.packet.packetType ∧ p.packet.payload.total < cfg.sizeMod ∧
    ∃ hi lo behind, Begun p.packet.packetType u (hi :: lo :: behind) ∧
    p.packet.topicLength = joinBytes hi lo

theorem PublishBegun.append {u : List Byte} {p : Parser cfg} (h : PublishBegun u p) (more : List Byte) :
    PublishBegun (u ++ more) p := by
  obtain ⟨htype, htotal, hi, lo, behind, hbegun, htopic⟩ := h
  exact ⟨htype, htotal, hi, lo, behind ++ more, hbegun.append more, htopic⟩

theorem PublishBegun.head {u : List Byte} {p : Parser cfg} (h : PublishBegun u p) (more : List Byte) :
    ∃ rest, u ++ more = p.packet.packetType :: rest := by
  obtain ⟨-, -, hi, lo, behind, hbegun, -⟩ := h
  exact hbegun.head more

/-- The packet at hand is a SUBACK, and this is where the parser is in its codes. -/
structure CodesRead (p : Parser cfg) : Prop where
  type : p.packet.packetType = PacketType.SUBACK
  data : p.packet.payload.data = .payloadBuffer
  length : p.packet.payload.length = p.packet.payload.total
  index : p.packet.payload.index = 0
  room : p.packet.payload.total < cfg.payloadBufferSize
  bytePos : p.bytePos < p.packet.payload.total
  codes : ∀ code ∈ p.payloadBuffer.toList.take p.bytePos, isSubackCode code

/-- What a packet that has a packet id can be. -/
def Identifies (u : List Byte) (p : Parser cfg) : Prop :=
  isIdentifier p.packet.packetType ∨ (CodesRead p ∧ p.bytePos = 0) ∨
    (PublishBegun u p ∧ hasPacketId p.packet.packetType)

/-- What the parser is in the middle of, `u` being the bytes it read of the packet. -/
def Midway (u : List Byte) (p : Parser cfg) : Prop :=
  match p.parse with
  | .fixedHeader => u = []
  | .remainingLengthFixed => u = [p.packet.packetType] ∧
      (p.packet.packetType = PacketType.CONNACK ∨ isIdentifier p.packet.packetType)
  | .remainingLengthNone => u = [p.packet.packetType] ∧ p.packet.packetType = PacketType.PINGRESP
  | .remainingLengthVariable => p.bytePos < 4 ∧
      u = p.packet.packetType :: p.packet.remainingLengthRaw.toList.take p.bytePos ∧
      (∀ b ∈ p.packet.remainingLengthRaw.toList.take p.bytePos, b &&& 0x80 ≠ 0) ∧
      (startsPublish p.packet.packetType ∨ p.packet.packetType = PacketType.SUBACK)
  | .varHeaderConnack1 => (∃ behind, Begun p.packet.packetType u behind) ∧
      p.packet.packetType = PacketType.CONNACK
  | .varHeaderConnack2 => (∃ behind, Begun p.packet.packetType u behind) ∧
      p.packet.packetType = PacketType.CONNACK ∧ p.packet.sessionPresent < 2
  | .varHeaderPacketId1 => (∃ behind, Begun p.packet.packetType u behind) ∧ Identifies u p
  | .varHeaderPacketId2 => (∃ behind, Begun p.packet.packetType u behind) ∧ Identifies u p
  | .varHeaderTopicLength1 => startsPublish p.packet.packetType ∧ Begun p.packet.packetType u []
  | .varHeaderTopicLength2 => startsPublish p.packet.packetType ∧
      ∃ hi : Byte, Begun p.packet.packetType u [hi] ∧ p.packet.topicLength = hi.toUInt16 <<< 8
  | .varHeaderTopic => PublishBegun u p ∧ p.bytePos < cfg.maxTopicLength
  | .payloadSuback => (∃ behind, Begun p.packet.packetType u behind) ∧ CodesRead p ∧ p.packet.packetId ≠ 0
  | .payloadPublish => PublishBegun u p ∧ (hasPacketId p.packet.packetType → p.packet.packetId ≠ 0)

/-- What is known of a packet that is returned, `u` being the bytes that were read of it. -/
def Told (u : List Byte) (p : Parser cfg) : Prop :=
  (∃ rest, u = p.packet.packetType :: rest) ∧
  ((PublishBegun u p ∧ (hasPacketId p.packet.packetType → p.packet.packetId ≠ 0)) ∨
  (isIdentifier p.packet.packetType ∧ p.packet.packetId ≠ 0) ∨
  (p.packet.packetType = PacketType.SUBACK ∧ p.packet.packetId ≠ 0 ∧
    ∀ code ∈ p.report.payload, isSubackCode code) ∨
  (p.packet.packetType = PacketType.CONNACK ∧ p.packet.sessionPresent < 2 ∧ p.packet.returnCode ≤ 5) ∨
  p.packet.packetType = PacketType.PINGRESP)

/-- The packet's remaining length does not end where it must: its first four bytes all say that it goes on. -/
def Overlong (u : List Byte) : Prop := ∃ type ls, u = type :: ls ∧ ls.length = 4 ∧ ∀ b ∈ ls, b &&& 0x80 ≠ 0

/-- What a call may do to a parser in the middle of a packet. -/
def MidwayCall (u : List Byte) (byte : Byte) (rest : List Byte) (r : ParserResult × ℕ × Parser cfg) : Prop :=
  match r.1 with
  | .awaitData => r.2.2.parse ≠ .fixedHeader ∧ Midway (u ++ [byte]) r.2.2
  | .packet => Told (u ++ (byte :: rest).take r.2.1) r.2.2 ∧
      (r.2.2.parse ≠ .fixedHeader → Midway (u ++ (byte :: rest).take r.2.1) r.2.2)
  | .protocolError =>
      (Overlong (u ++ [byte]) → r.2.2.parse = .remainingLengthVariable ∧ r.2.2.bytePos = 4) ∧
        (¬ Overlong (u ++ [byte]) → r.2.2.parse = .fixedHeader)

/-! ### The errors -/

/-- A packet whose first bytes hold a length field is not overlong. -/
theorem Begun.not_overlong {type : Byte} {u behind : List Byte} (h : Begun type u behind) (byte : Byte) :
    ¬ Overlong (u ++ [byte]) := by
  obtain ⟨ls, hls, rfl⟩ := h
  rintro ⟨type', ls', heq, hlength, hcontinued⟩
  obtain ⟨init, last, rfl, -, hlast, -⟩ := lengthField_split hls
  have hmem : last ∈ ls' := by
    rw [← (List.cons.inj heq).2]
    simp
  exact hcontinued last hmem hlast

/-- Fewer bytes are not overlong. -/
theorem not_overlong_of_length {u : List Byte} (h : u.length < 5) : ¬ Overlong u := by
  rintro ⟨type, ls, rfl, hlength, -⟩
  rw [List.length_cons] at h
  omega

theorem midwayCall_error {u rest : List Byte} {byte : Byte} {n : ℕ} {q : Parser cfg}
    (hq : q.parse = .fixedHeader) (hu : ¬ Overlong (u ++ [byte])) :
    MidwayCall u byte rest (.protocolError, n, q) :=
  ⟨fun h => absurd h hu, fun _ => hq⟩

/-! ### The state functions -/

theorem midway_fixedHeader {p : Parser cfg} {byte : Byte} {rest : List Byte} (hp : p.parse = .fixedHeader) :
    MidwayCall [] byte rest (p.call byte rest) := by
  have hshort : ¬ Overlong ([] ++ [byte]) := not_overlong_of_length (by simp)
  simp only [Parser.call, hp, fixedHeader]
  split_ifs with hpublish hflags hfixed hsuback hping
  · simp [MidwayCall, Midway, startsPublish, hpublish, hflags]
  · exact midwayCall_error rfl hshort
  · refine ⟨by simp, rfl, ?_⟩
    rcases hfixed with h | h
    · exact .inl h
    · exact .inr h
  · subst hsuback
    simp [MidwayCall, Midway]
  · exact ⟨by simp, rfl, hping⟩
  · exact midwayCall_error rfl hshort

theorem midway_remainingLengthFixed {p : Parser cfg} {u : List Byte} {byte : Byte} {rest : List Byte}
    (hp : p.parse = .remainingLengthFixed) (h : Midway u p) : MidwayCall u byte rest (p.call byte rest) := by
  simp only [Midway, hp] at h
  obtain ⟨rfl, htype⟩ := h
  simp only [Parser.call, hp, remainingLengthFixed]
  split_ifs with htwo hconnack
  · obtain rfl : byte = 2 := UInt8.toNat_inj.mp htwo
    have hbegun : Begun p.packet.packetType ([p.packet.packetType] ++ [2]) [] := ⟨[2], by decide, rfl⟩
    refine ⟨by simp, ⟨[], hbegun⟩, .inl (htype.resolve_left fun hc => hconnack ?_)⟩
    rw [hc]
    decide
  · obtain rfl : byte = 2 := UInt8.toNat_inj.mp htwo
    have hbegun : Begun p.packet.packetType ([p.packet.packetType] ++ [2]) [] := ⟨[2], by decide, rfl⟩
    refine ⟨by simp, ⟨[], hbegun⟩, htype.resolve_right fun hid => hconnack hid.type.2.2⟩
  · exact midwayCall_error rfl (not_overlong_of_length (by simp))

theorem midway_remainingLengthNone {p : Parser cfg} {u : List Byte} {byte : Byte} {rest : List Byte}
    (hp : p.parse = .remainingLengthNone) (h : Midway u p) : MidwayCall u byte rest (p.call byte rest) := by
  simp only [Midway, hp] at h
  obtain ⟨rfl, htype⟩ := h
  simp only [Parser.call, hp, remainingLengthNone]
  split_ifs with hzero
  · exact ⟨⟨⟨_, rfl⟩, .inr (.inr (.inr (.inr htype)))⟩, fun hne => absurd rfl hne⟩
  · exact midwayCall_error rfl (not_overlong_of_length (by simp))

theorem midway_remainingLengthVariable {p : Parser cfg} {u : List Byte} {byte : Byte} {rest : List Byte}
    (hp : p.parse = .remainingLengthVariable) (h : Midway u p) : MidwayCall u byte rest (p.call byte rest) := by
  simp only [Midway, hp] at h
  obtain ⟨hpos, hu, hcontinued, htype⟩ := h
  have hlen : p.packet.remainingLengthRaw.toList.length = 4 := Vector.length_toList
  have htake := take_succ_set p.packet.remainingLengthRaw.toList (by omega : p.bytePos < _) byte
  generalize hdone : p.packet.remainingLengthRaw.toList.take p.bytePos = done at *
  have hdonelen : done.length = p.bytePos := by rw [← hdone, List.length_take]; omega
  have hu' : u ++ [byte] = p.packet.packetType :: (done ++ [byte]) := by rw [hu]; rfl
  simp only [Parser.call, hp, remainingLengthVariable]
  by_cases hbyte : byte &&& 0x80 = 0
  · -- the last byte of the field
    have hfield : IsLengthField (done ++ [byte]) := lengthField_of_continued [] hcontinued hbyte (by omega)
    have hbegun : Begun p.packet.packetType (u ++ [byte]) [] := ⟨_, hfield, by rw [hu', List.append_nil]⟩
    simp only [hbyte, ne_eq, not_true_eq_false, if_false]
    split_ifs with hpublish hsize
    · -- a PUBLISH: its variable header is next
      refine ⟨by simp, htype.resolve_right fun hsub => ?_, hbegun⟩
      rw [hsub] at hpublish
      exact absurd hpublish (by decide)
    · -- a SUBACK whose codes fit
      refine ⟨by simp, ⟨[], hbegun⟩, .inr (.inl ⟨?_, rfl⟩)⟩
      constructor
      · exact htype.resolve_left fun h => hpublish h.1
      · rfl
      · rfl
      · rfl
      · dsimp only
        omega
      · dsimp only
        omega
      · simp
    · -- it is refused, but the length field ended, so it is not overlong
      refine midwayCall_error rfl ?_
      rw [hu']
      rintro ⟨type, ls, heq, -, hall⟩
      exact hall byte (by rw [← (List.cons.inj heq).2]; simp) hbyte
  · -- one more byte follows
    have hall : ∀ b ∈ done ++ [byte], b &&& 0x80 ≠ 0 := by
      intro b hb
      rcases List.mem_append.mp hb with hb | hb
      · exact hcontinued b hb
      · rw [List.mem_singleton.mp hb]
        exact hbyte
    simp only [hbyte, ne_eq, not_false_eq_true, if_true]
    split_ifs with hfour
    · -- the fourth byte: the error that leaves the parser inside the length field
      have hover : Overlong (u ++ [byte]) := by
        refine ⟨_, _, hu', ?_, hall⟩
        rw [List.length_append, hdonelen, List.length_singleton, hfour]
      exact ⟨fun _ => ⟨rfl, hfour⟩, fun h => absurd hover h⟩
    · simp only [MidwayCall, Midway, Vector.toList_setIfInBounds, htake]
      exact ⟨by simp, by omega, hu', hall, htype⟩

theorem midway_connack {p : Parser cfg} {u : List Byte} {byte : Byte} {rest : List Byte}
    (hp : p.parse = .varHeaderConnack1 ∨ p.parse = .varHeaderConnack2) (h : Midway u p) :
    MidwayCall u byte rest (p.call byte rest) := by
  rcases hp with hp | hp
  · simp only [Midway, hp] at h
    obtain ⟨⟨behind, hbegun⟩, htype⟩ := h
    simp only [Parser.call, hp, varHeaderConnack1]
    split_ifs with hflag
    · exact ⟨by simp, ⟨_, hbegun.append [byte]⟩, htype, hflag⟩
    · exact midwayCall_error rfl (hbegun.not_overlong byte)
  · simp only [Midway, hp] at h
    obtain ⟨⟨behind, hbegun⟩, htype, hsession⟩ := h
    simp only [Parser.call, hp, varHeaderConnack2]
    split_ifs with hcode
    · exact ⟨⟨hbegun.head _, .inr (.inr (.inr (.inl ⟨htype, hsession, hcode⟩)))⟩, fun hne => absurd rfl hne⟩
    · exact midwayCall_error rfl (hbegun.not_overlong byte)

theorem midway_packetId1 {p : Parser cfg} {u : List Byte} {byte : Byte} {rest : List Byte}
    (hp : p.parse = .varHeaderPacketId1) (h : Midway u p) : MidwayCall u byte rest (p.call byte rest) := by
  simp only [Midway, hp] at h
  obtain ⟨⟨behind, hbegun⟩, hid⟩ := h
  simp only [Parser.call, hp, varHeaderPacketId1]
  refine ⟨by simp, ⟨_, hbegun.append [byte]⟩, ?_⟩
  rcases hid with hack | ⟨⟨h1, h2, h3, h4, h5, h6, h7⟩, hpos⟩ | ⟨hpublish, hpacketId⟩
  · exact .inl hack
  · exact .inr (.inl ⟨⟨h1, h2, h3, h4, h5, h6, h7⟩, hpos⟩)
  · exact .inr (.inr ⟨hpublish.append [byte], hpacketId⟩)

theorem midway_packetId2 {p : Parser cfg} {u : List Byte} {byte : Byte} {rest : List Byte}
    (hp : p.parse = .varHeaderPacketId2) (h : Midway u p) : MidwayCall u byte rest (p.call byte rest) := by
  simp only [Midway, hp] at h
  obtain ⟨⟨behind, hbegun⟩, hid⟩ := h
  simp only [Parser.call, hp, varHeaderPacketId2]
  by_cases hzero : p.packet.packetId ||| byte.toUInt16 = 0
  · simp only [hzero, ne_eq, not_true_eq_false, if_false]
    exact midwayCall_error rfl (hbegun.not_overlong byte)
  simp only [hzero, ne_eq, not_false_eq_true, if_true]
  rcases hid with hack | ⟨⟨h1, h2, h3, h4, h5, h6, h7⟩, hpos⟩ | ⟨hpublish, hpacketId⟩
  · -- an acknowledgement is complete
    obtain ⟨hne, hne', -⟩ := hack.type
    simp only [hne, hne', if_false]
    exact ⟨⟨hbegun.head _, .inr (.inl ⟨hack, hzero⟩)⟩, fun h => absurd rfl h⟩
  · -- the codes of a SUBACK are next
    have hsuback : p.packet.packetType &&& 0xF0 = PacketType.SUBACK := by
      rw [h1]
      decide
    simp only [hsuback, if_true]
    exact ⟨by simp, ⟨_, hbegun.append [byte]⟩, ⟨h1, h2, h3, h4, h5, h6, h7⟩, hzero⟩
  · -- the payload of a PUBLISH is next, if there is one
    have hne : ¬ PacketType.PUBLISH = PacketType.SUBACK := by decide
    obtain ⟨htype, -, hrest⟩ := hpublish.append [byte]
    have hlt : cfg.sub p.packet.payload.total 2 < cfg.sizeMod := cfg.wrap_lt _
    simp only [htype.1, hne, if_false, if_true]
    split_ifs with htotal
    · exact ⟨⟨hbegun.head _, .inl ⟨⟨htype, hlt, hrest⟩, fun _ => hzero⟩⟩, fun h => absurd rfl h⟩
    · exact ⟨by simp, ⟨htype, hlt, hrest⟩, fun _ => hzero⟩

theorem midway_topicLength1 {p : Parser cfg} {u : List Byte} {byte : Byte} {rest : List Byte}
    (hp : p.parse = .varHeaderTopicLength1) (h : Midway u p) : MidwayCall u byte rest (p.call byte rest) := by
  simp only [Midway, hp] at h
  obtain ⟨htype, hbegun⟩ := h
  simp only [Parser.call, hp, varHeaderTopicLength1]
  exact ⟨by simp, htype, byte, hbegun.append [byte], rfl⟩

theorem midway_topicLength2 {p : Parser cfg} {u : List Byte} {byte : Byte} {rest : List Byte}
    (hp : p.parse = .varHeaderTopicLength2) (h : Midway u p) : MidwayCall u byte rest (p.call byte rest) := by
  simp only [Midway, hp] at h
  obtain ⟨htype, hi, hbegun, htopic⟩ := h
  simp only [Parser.call, hp, varHeaderTopicLength2]
  by_cases hfits : (p.packet.topicLength ||| byte.toUInt16).toNat ≤
      cfg.sub (cfg.sub p.packet.remainingLength 2) (if hasPacketId p.packet.packetType then 2 else 0)
  · simp only [hfits, if_true]
    refine ⟨by simp, ⟨htype, cfg.wrap_lt _, hi, byte, [], hbegun.append [byte], ?_⟩, cfg.maxTopicLength_pos⟩
    rw [htopic]
    rfl
  · simp only [hfits, if_false]
    exact midwayCall_error rfl (hbegun.not_overlong byte)

theorem midway_topic {p : Parser cfg} {u : List Byte} {byte : Byte} {rest : List Byte}
    (hp : p.parse = .varHeaderTopic) (h : Midway u p) : MidwayCall u byte rest (p.call byte rest) := by
  simp only [Midway, hp] at h
  obtain ⟨hpublish, hpos⟩ := h
  have hmore := hpublish.append [byte]
  obtain ⟨-, -, hi, lo, behind, hbegun, -⟩ := hmore
  simp only [Parser.call, hp, varHeaderTopic]
  split_ifs with hend hid htotal
  · exact ⟨by simp, ⟨_, hbegun⟩, .inr (.inr ⟨hpublish.append [byte], hid⟩)⟩
  · exact ⟨⟨hpublish.head _, .inl ⟨hpublish.append [byte], fun h => absurd h hid⟩⟩, fun h => absurd rfl h⟩
  · exact ⟨by simp, hpublish.append [byte], fun h => absurd h hid⟩
  · refine ⟨by simp, ?_⟩
    simp only [Midway]
    exact ⟨hpublish.append [byte], by omega⟩

theorem midway_suback {p : Parser cfg} {u : List Byte} {byte : Byte} {rest : List Byte}
    (hp : p.parse = .payloadSuback) (h : Midway u p) : MidwayCall u byte rest (p.call byte rest) := by
  simp only [Midway, hp] at h
  obtain ⟨⟨behind, hbegun⟩, hcodes, hid⟩ := h
  have hroom := hcodes.room
  have hpos := hcodes.bytePos
  have hlen : p.payloadBuffer.toList.length = cfg.payloadBufferSize := Vector.length_toList
  have htake := take_succ_set p.payloadBuffer.toList (by omega : p.bytePos < _) byte
  simp only [Parser.call, hp, payloadSuback]
  by_cases hcode : byte < 0x03 ∨ byte = 0x80
  · have hall : ∀ code ∈ (p.payloadBuffer.toList.set p.bytePos byte).take (p.bytePos + 1),
        isSubackCode code := by
      rw [htake]
      intro code hmem
      rcases List.mem_append.mp hmem with hmem | hmem
      · exact hcodes.codes code hmem
      · rw [List.mem_singleton.mp hmem]
        exact hcode
    simp only [hcode, if_true]
    split_ifs with hend
    · -- the last code: what is reported are all of them
      refine ⟨⟨hbegun.head _, .inr (.inr (.inl ⟨hcodes.type, hid, ?_⟩))⟩, fun h => absurd rfl h⟩
      simp only [report, payloadData, hcodes.data, hcodes.length, ← hend, Vector.toList_setIfInBounds]
      exact hall
    · -- one more is stored
      refine ⟨by simp, ?_⟩
      simp only [Midway]
      refine ⟨⟨_, hbegun.append [byte]⟩, ?_, hid⟩
      constructor
      · exact hcodes.type
      · exact hcodes.data
      · exact hcodes.length
      · exact hcodes.index
      · exact hroom
      · dsimp only
        omega
      · rw [Vector.toList_setIfInBounds]
        exact hall
  · simp only [hcode, if_false]
    exact midwayCall_error rfl (hbegun.not_overlong byte)

theorem midway_payloadPublish {p : Parser cfg} {u : List Byte} {byte : Byte} {rest : List Byte}
    (hp : p.parse = .payloadPublish) (h : Midway u p) : MidwayCall u byte rest (p.call byte rest) := by
  simp only [Midway, hp] at h
  obtain ⟨hpublish, hid⟩ := h
  rw [call_payloadPublish hp]
  simp only [MidwayCall, afterSlice]
  split_ifs with hend
  · exact ⟨⟨hpublish.head _, .inl ⟨hpublish.append _, hid⟩⟩, fun h => absurd rfl h⟩
  · refine ⟨⟨hpublish.head _, .inl ⟨hpublish.append _, hid⟩⟩, fun _ => ?_⟩
    simp only [Midway]
    exact ⟨hpublish.append _, hid⟩

/-- **One call.** Every state function keeps the invariant. -/
theorem Midway.call {p : Parser cfg} {u : List Byte} (h : Midway u p) (byte : Byte) (rest : List Byte) :
    MidwayCall u byte rest (p.call byte rest) := by
  cases hp : p.parse with
  | fixedHeader =>
    obtain rfl : u = [] := by simpa [Midway, hp] using h
    exact midway_fixedHeader hp
  | remainingLengthFixed => exact midway_remainingLengthFixed hp h
  | remainingLengthNone => exact midway_remainingLengthNone hp h
  | remainingLengthVariable => exact midway_remainingLengthVariable hp h
  | varHeaderConnack1 => exact midway_connack (.inl hp) h
  | varHeaderConnack2 => exact midway_connack (.inr hp) h
  | varHeaderPacketId1 => exact midway_packetId1 hp h
  | varHeaderPacketId2 => exact midway_packetId2 hp h
  | varHeaderTopicLength1 => exact midway_topicLength1 hp h
  | varHeaderTopicLength2 => exact midway_topicLength2 hp h
  | varHeaderTopic => exact midway_topic hp h
  | payloadSuback => exact midway_suback hp h
  | payloadPublish => exact midway_payloadPublish hp h

/-! ### Calls of `parse` -/

/-- A call of `parse` on a parser in the middle of a packet. -/
def MidwayParse (u input : List Byte) (r : ParserResult × ℕ × Parser cfg) : Prop :=
  match r.1 with
  | .awaitData => Midway (u ++ input) r.2.2 ∧ (input ≠ [] → r.2.2.parse ≠ .fixedHeader)
  | .packet => Told (u ++ input.take r.2.1) r.2.2 ∧
      (r.2.2.parse ≠ .fixedHeader → Midway (u ++ input.take r.2.1) r.2.2)
  | .protocolError =>
      (Overlong (u ++ input.take r.2.1) → r.2.2.parse = .remainingLengthVariable ∧ r.2.2.bytePos = 4) ∧
        (¬ Overlong (u ++ input.take r.2.1) → r.2.2.parse = .fixedHeader)

theorem Midway.parseInput {p : Parser cfg} {u : List Byte} (h : Midway u p) (input : List Byte) :
    MidwayParse u input (p.parseInput input) := by
  induction input generalizing p u with
  | nil => exact ⟨by rwa [List.append_nil], fun hne => absurd rfl hne⟩
  | cons byte rest ih =>
    have hcall := h.call byte rest
    have hone := call_read_of_ne p byte rest
    rw [Parser.parseInput]
    generalize p.call byte rest = c at hcall hone ⊢
    obtain ⟨result, n, q⟩ := c
    cases result with
    | awaitData =>
      obtain ⟨hne, hmidway⟩ := hcall
      have hrest := ih hmidway
      dsimp only
      cases rest with
      | nil => exact ⟨hmidway, fun _ => hne⟩
      | cons next rest =>
        generalize q.parseInput (next :: rest) = d at hrest ⊢
        obtain ⟨result', m, q'⟩ := d
        have happend : ∀ more : List Byte, u ++ [byte] ++ more = u ++ byte :: more := fun more => by simp
        cases result' with
        | awaitData => exact ⟨happend _ ▸ hrest.1, fun _ => hrest.2 (List.cons_ne_nil _ _)⟩
        | packet => simpa only [MidwayParse, happend, List.take_succ_cons] using hrest
        | protocolError => simpa only [MidwayParse, happend, List.take_succ_cons] using hrest
    | packet => exact hcall
    | protocolError =>
      obtain rfl : n = 1 := hone (by simp)
      exact hcall

/-- While a part of the payload is missing, no position in it wraps around. -/
theorem Midway.payload_unwrapped {u : List Byte} {p : Parser cfg} (h : Midway u p) (hok : p.Ok)
    (hp : p.parse = .payloadPublish) :
    p.packet.payload.total < cfg.sizeMod ∧
      cfg.wrap (p.packet.payload.index + p.packet.payload.length) =
        p.packet.payload.index + p.packet.payload.length ∧
      cfg.sub p.packet.payload.total (p.packet.payload.index + p.packet.payload.length) =
        p.packet.payload.total - (p.packet.payload.index + p.packet.payload.length) := by
  simp only [Midway, hp] at h
  have htotal := h.1.2.1
  have hmissing := hok.payload hp
  exact ⟨htotal, cfg.wrap_of_lt (by omega), cfg.sub_of_le htotal hmissing.le⟩

/-- The parsers that come from a reset by calls of `parse` without a protocol error, each with the bytes it read
of the packet at hand. -/
inductive Reached : List Byte → Parser cfg → Prop
  | reset (p : Parser cfg) : Reached [] p.reset
  | parse {u : List Byte} {p : Parser cfg} (h : Reached u p) {input : List Byte} {result : ParserResult} {n : ℕ}
      {q : Parser cfg} (hcall : p.parseInput input = (result, n, q)) (hresult : result ≠ .protocolError) :
      Reached (if q.parse = .fixedHeader then [] else u ++ input.take n) q

theorem Reached.sound {u : List Byte} {p : Parser cfg} (h : Reached u p) : p.Sound := by
  induction h with
  | reset p => exact reset_sound p
  | @parse _ _ _ input _ _ _ hcall _ ih =>
    have hsound := (ih.parseInput input).1
    rwa [hcall] at hsound

/-- **A whole run.** -/
theorem Reached.midway {u : List Byte} {p : Parser cfg} (h : Reached u p) : Midway u p := by
  induction h with
  | reset p => rfl
  | @parse u p hreached input result n q hcall hresult ih =>
    have hparse := ih.parseInput input
    rw [hcall] at hparse
    split_ifs with hfixed
    · simp only [Midway, hfixed]
    · cases result with
      | awaitData =>
        have hn : n = input.length := (walk_of_awaitData hreached.sound.toOk hcall 0).1
        rw [hn, List.take_length]
        exact hparse.1
      | packet => exact hparse.2 hfixed
      | protocolError => exact absurd rfl hresult

end Parser

end EspMqttClient
