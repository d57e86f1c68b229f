/-
  Where the parser takes a packet to end.

  `declared` is where a packet ends by its fixed header.  `Tracks` is the invariant that ties the state
  of the parser to it: how much is left of the packet.  It is kept by every state function
  (`Tracks.call`) as long as the lengths of a PUBLISH are `WellSized`, so a packet is complete where
  its header says (`walk_declared`).  `framed_iff` says that this is exactly the condition: with other
  lengths the subtractions of `_varHeaderTopicLength2` wrap around, or a topic of no bytes or of more
  than the array holds is read as one of as many bytes as the array holds.
-/
import EspMqttClient.Packets.Equiv.ParserRuns

namespace EspMqttClient

namespace Parser

variable {cfg : Config}

/-! ### Packet boundaries -/

/-- Where the packet at the front of a stream ends by its remaining length. -/
def declared : List Byte → Option ℕ
  | [] => none
  | _ :: body =>
    (lengthField 4 body).map fun ls => 1 + ls.length + (decodeRemainingLength ls).toNat

theorem declared_append {type : Byte} {ls : List Byte} (h : IsLengthField ls) (rest : List Byte) :
    declared (type :: (ls ++ rest)) = some (1 + ls.length + (decodeRemainingLength ls).toNat) := by
  rw [declared, lengthField_append h]
  rfl

/-- Where the first complete packet of some results ends. -/
def firstPacketEnd (results : List Result) : Option ℕ :=
  (results.find? (·.complete)).map (·.stop)

/-- Putting slices together does not move the end of a packet. -/
theorem firstPacketEnd_merge (results : List Result) :
    firstPacketEnd (merge results) = firstPacketEnd results := by
  have hglue : ∀ (r : Result) (rs : List Result),
      firstPacketEnd (slices.glue r rs) = firstPacketEnd (r :: rs) := by
    intro r rs
    rcases rs with _ | ⟨s, rest⟩
    · rfl
    · by_cases h : slices.next r s
      · obtain ⟨hr, -⟩ := Result.continuedBy_iff.mp h
        rw [Adjoining.glue, if_pos h]
        simp only [firstPacketEnd, List.find?_cons, hr]
        rcases hs : s.complete <;> simp [slices, Result.join, hs]
      · rw [Adjoining.glue, if_neg h]
  induction results with
  | nil => rfl
  | cons r rs ih =>
    rw [merge, Adjoining.coalesce_cons, hglue]
    rw [merge] at ih
    simp only [firstPacketEnd, List.find?_cons] at ih ⊢
    split <;> simp_all

theorem Fed.Alike.firstPacketEnd {f g : Fed cfg} (h : f.Alike g) :
    firstPacketEnd f.results = firstPacketEnd g.results := by
  rw [← firstPacketEnd_merge f.results, h.results, firstPacketEnd_merge]

/-! ### Lengths that fit -/

/-- How many bytes of packet id a PUBLISH has. -/
def idLength (type : Byte) : ℕ := if hasPacketId type then 2 else 0

/-- The lengths of a PUBLISH that the parser gets right: there is room for the topic length and the
packet id, and the topic either does not fit, which is noticed, or has between one byte and as many
as the array holds. -/
def WellSized (cfg : Config) (type : Byte) (remainingLength topicLength : ℕ) : Prop :=
  2 + idLength type ≤ remainingLength ∧
    (remainingLength - 2 - idLength type < topicLength ∨
      1 ≤ topicLength ∧ topicLength ≤ cfg.maxTopicLength)

/-- How many bytes the fields of a packet other than PUBLISH take. -/
def fieldsLength (type : Byte) : ℕ :=
  if type &&& 0xF0 = PacketType.SUBACK then 3
  else if type &&& 0xF0 = PacketType.PINGRESP then 0
  else 2

/-- A stream that begins with a packet whose remaining length is too small for its fields, or with a
PUBLISH whose topic has no bytes. -/
def Malformed (s : List Byte) : Prop :=
  (∃ type ls rest, s = type :: (ls ++ rest) ∧ IsLengthField ls ∧
    type &&& 0xF0 ≠ PacketType.PUBLISH ∧ (decodeRemainingLength ls).toNat < fieldsLength type) ∨
  ∃ type ls hi lo rest, s = type :: (ls ++ hi :: lo :: rest) ∧ IsLengthField ls ∧
    type &&& 0xF0 = PacketType.PUBLISH ∧
    ((decodeRemainingLength ls).toNat < 2 + idLength type ∨
      (decodeRemainingLength ls).toNat - 2 - idLength type < (joinBytes hi lo).toNat ∨
      (joinBytes hi lo).toNat = 0)

/-- However it is cut and whatever was parsed before, the first packet of the stream ends where its
header says, and if it is malformed there is a protocol error instead. -/
def Framed (cfg : Config) (s : List Byte) : Prop :=
  ∀ (p : Parser cfg), p.parse = .fixedHeader → ∀ buffers : List (List Byte), buffers.flatten = s →
    (∀ n, firstPacketEnd (feed 0 p buffers).results = some n → declared s = some n) ∧
      (Malformed s →
        (feed 0 p buffers).error = true ∧ firstPacketEnd (feed 0 p buffers).results = none)

/-- It is enough to look at the stream in one piece. -/
theorem framed_of_walk {s : List Byte}
    (h : ∀ p : Parser cfg, p.parse = .fixedHeader →
      (∀ n, firstPacketEnd (walk 0 0 p s).results = some n → declared s = some n) ∧
        (Malformed s → (walk 0 0 p s).error = true ∧ firstPacketEnd (walk 0 0 p s).results = none)) :
    Framed cfg s := by
  rintro p hp buffers rfl
  have halike := feed_walk buffers 0 (ok_of_fixedHeader hp)
  rw [halike.firstPacketEnd, halike.error]
  exact h p hp

/-! ### The invariant -/

/-- What the parser is in the middle of, `u` being the bytes it read of the stream `s`. -/
def Tracks (s u : List Byte) (p : Parser cfg) : Prop :=
  match p.parse with
  | .fixedHeader => u = []
  | .remainingLengthFixed => ¬ p.isPublish ∧ p.packet.packetType &&& 0xF0 ≠ PacketType.SUBACK ∧
      ∃ type, u = [type]
  | .remainingLengthNone => ∃ type, u = [type]
  | .remainingLengthVariable => p.bytePos < 4 ∧
      u = p.packet.packetType :: p.packet.remainingLengthRaw.toList.take p.bytePos ∧
      (∀ b ∈ p.packet.remainingLengthRaw.toList.take p.bytePos, b &&& 0x80 ≠ 0) ∧
      (startsPublish p.packet.packetType ∨ p.packet.packetType &&& 0xF0 = PacketType.SUBACK)
  | .varHeaderConnack1 => declared s = some (u.length + 2)
  | .varHeaderConnack2 => declared s = some (u.length + 1)
  | .varHeaderPacketId1 =>
      if p.isPublish then declared s = some (u.length + p.packet.payload.total) ∧
        2 ≤ p.packet.payload.total ∧ p.packet.payload.total < cfg.sizeMod
      else if p.packet.packetType &&& 0xF0 = PacketType.SUBACK then
        declared s = some (u.length + 2 + p.packet.payload.total) ∧ p.bytePos = 0 ∧
        0 < p.packet.payload.total
      else declared s = some (u.length + 2)
  | .varHeaderPacketId2 =>
      if p.isPublish then declared s = some (u.length - 1 + p.packet.payload.total) ∧ 1 ≤ u.length ∧
        2 ≤ p.packet.payload.total ∧ p.packet.payload.total < cfg.sizeMod
      else if p.packet.packetType &&& 0xF0 = PacketType.SUBACK then
        declared s = some (u.length + 1 + p.packet.payload.total) ∧ p.bytePos = 0 ∧
        0 < p.packet.payload.total
      else declared s = some (u.length + 1)
  | .varHeaderTopicLength1 => startsPublish p.packet.packetType ∧
      ∃ ls, u = p.packet.packetType :: ls ∧ IsLengthField ls ∧
        p.packet.remainingLength = (decodeRemainingLength ls).toNat
  | .varHeaderTopicLength2 => startsPublish p.packet.packetType ∧
      ∃ (ls : List Byte) (hi : Byte), u = p.packet.packetType :: (ls ++ [hi]) ∧ IsLengthField ls ∧
        p.packet.remainingLength = (decodeRemainingLength ls).toNat ∧
        p.packet.topicLength = hi.toUInt16 <<< 8
  | .varHeaderTopic => p.isPublish ∧
      declared s = some (u.length + (p.packet.topicLength.toNat - p.bytePos) + p.packet.payload.total) ∧
      p.bytePos < p.packet.topicLength.toNat ∧ p.packet.topicLength.toNat ≤ cfg.maxTopicLength ∧
      idLength p.packet.packetType ≤ p.packet.payload.total ∧ p.packet.payload.total < cfg.sizeMod
  | .payloadSuback => p.bytePos < p.packet.payload.total ∧
      declared s = some (u.length + (p.packet.payload.total - p.bytePos))
  | .payloadPublish => declared s = some (u.length +
      (p.packet.payload.total - (p.packet.payload.index + p.packet.payload.length)))

/-- The lengths of the PUBLISH that a stream begins with, if it does, are well sized. -/
def Fits (cfg : Config) (s : List Byte) : Prop :=
  ∀ type ls hi lo rest, s = type :: (ls ++ hi :: lo :: rest) → startsPublish type → IsLengthField ls →
    WellSized cfg type (decodeRemainingLength ls).toNat (joinBytes hi lo).toNat

/-- Continued bytes and one that is not are a length field. -/
theorem lengthField_of_continued : ∀ {n : ℕ} {done : List Byte} {b : Byte} (rest : List Byte),
    (∀ c ∈ done, c &&& 0x80 ≠ 0) → b &&& 0x80 = 0 → done.length < n →
      lengthField n (done ++ b :: rest) = some (done ++ [b])
  | n + 1, [], b, rest, _, hb, _ => by simp [lengthField, hb]
  | n + 1, c :: done, b, rest, hdone, hb, hn => by
    have ih := lengthField_of_continued (n := n) rest (fun d hd => hdone d (List.mem_cons_of_mem _ hd)) hb
      (by simpa using hn)
    rw [List.cons_append, lengthField, if_pos (hdone c List.mem_cons_self), ih]
    rfl

/-- What a call may do to a parser that tracks the stream. -/
def TracksCall (s u : List Byte) (byte : Byte) (rest : List Byte)
    (r : ParserResult × ℕ × Parser cfg) : Prop :=
  match r.1 with
  | .awaitData => Tracks s (u ++ [byte]) r.2.2
  | .packet =>
    if r.2.2.parse = .fixedHeader then declared s = some (u.length + r.2.1)
    else Tracks s (u ++ (byte :: rest).take r.2.1) r.2.2
  | .protocolError => True

theorem tracks_fixedHeader {p : Parser cfg} {s : List Byte} {byte : Byte} {rest : List Byte}
    (hp : p.parse = .fixedHeader) : TracksCall s [] byte rest (p.call byte rest) := by
  simp only [Parser.call, hp, fixedHeader]
  split_ifs with hpublish hflags hfixed hsuback hping
  · simp [TracksCall, Tracks, startsPublish, hpublish, hflags]
  · trivial
  · refine ⟨by simpa [isPublish] using hpublish, ?_, byte, rfl⟩
    dsimp only
    rcases hfixed with h | h | h | h | h | h <;> rw [h] <;> decide
  · subst hsuback
    simp [TracksCall, Tracks]
    decide
  · exact ⟨byte, rfl⟩
  · trivial

theorem tracks_remainingLengthFixed {p : Parser cfg} {s u : List Byte} {byte : Byte} {rest : List Byte}
    (hs : s = u ++ byte :: rest) (hp : p.parse = .remainingLengthFixed) (h : Tracks s u p) :
    TracksCall s u byte rest (p.call byte rest) := by
  simp only [Tracks, hp] at h
  obtain ⟨hpublish, hsuback, type, rfl⟩ := h
  simp only [Parser.call, hp, remainingLengthFixed]
  split_ifs with htwo hconnack
  all_goals try trivial
  all_goals
    obtain rfl : byte = 2 := UInt8.toNat_inj.mp htwo
    have hdeclared : declared s = some 4 := by
      rw [hs]
      exact declared_append (show IsLengthField [2] by decide) rest
  · simp only [TracksCall, Tracks]
    rw [if_neg (by exact hpublish), if_neg hsuback]
    exact hdeclared
  · exact hdeclared

theorem tracks_remainingLengthNone {p : Parser cfg} {s u : List Byte} {byte : Byte} {rest : List Byte}
    (hs : s = u ++ byte :: rest) (hp : p.parse = .remainingLengthNone) (h : Tracks s u p) :
    TracksCall s u byte rest (p.call byte rest) := by
  simp only [Tracks, hp] at h
  obtain ⟨type, rfl⟩ := h
  simp only [Parser.call, hp, remainingLengthNone]
  split_ifs with hzero
  · obtain rfl : byte = 0 := UInt8.toNat_inj.mp hzero
    simp only [TracksCall, if_true]
    rw [hs]
    exact declared_append (show IsLengthField [0] by decide) rest
  · trivial

theorem tracks_remainingLengthVariable {p : Parser cfg} {s u : List Byte} {byte : Byte} {rest : List Byte}
    (hs : s = u ++ byte :: rest) (hp : p.parse = .remainingLengthVariable) (h : Tracks s u p) :
    TracksCall s u byte rest (p.call byte rest) := by
  simp only [Tracks, hp] at h
  obtain ⟨hpos, hu, hcontinued, htype⟩ := h
  have hlen : p.packet.remainingLengthRaw.toList.length = 4 := Vector.length_toList
  have htake := take_succ_set p.packet.remainingLengthRaw.toList (by omega : p.bytePos < _) byte
  generalize hdone : p.packet.remainingLengthRaw.toList.take p.bytePos = done at *
  have hdonelen : done.length = p.bytePos := by rw [← hdone, List.length_take]; omega
  simp only [Parser.call, hp, remainingLengthVariable]
  by_cases hbyte : byte &&& 0x80 = 0
  · -- the last byte of the field
    have hfield : lengthField 4 (done ++ [byte]) = some (done ++ [byte]) :=
      lengthField_of_continued [] hcontinued hbyte (by omega)
    have hraw : decodeRemainingLength (p.packet.remainingLengthRaw.setIfInBounds p.bytePos byte).toList
        = decodeRemainingLength (done ++ [byte]) := by
      rw [← hdone]
      exact decode_lastByte byte hpos (hdone ▸ hfield)
    have hdeclared : declared s = some (1 + (done ++ [byte]).length
        + (decodeRemainingLength (done ++ [byte])).toNat) := by
      rw [hs, hu, List.cons_append, List.append_cons]
      exact declared_append hfield rest
    simp only [hbyte, ne_eq, not_true_eq_false, if_false, hraw]
    split_ifs with hpublish hsize
    · refine ⟨htype.resolve_right fun hsub => ?_, done ++ [byte], ?_, hfield, rfl⟩
      · rw [hpublish] at hsub
        exact absurd hsub (by decide)
      · rw [hu]; rfl
    · simp only [TracksCall, Tracks, isPublish, hpublish, if_false]
      rw [if_pos (htype.resolve_left fun h => hpublish h.1), hdeclared, hu]
      refine ⟨?_, trivial, by omega⟩
      simp only [List.length_append, List.length_cons, List.length_nil]
      congr 1
      omega
    · trivial
  · -- one more byte follows
    simp only [hbyte, ne_eq, not_false_eq_true, if_true]
    split_ifs with hfour
    · trivial
    · simp only [TracksCall, Tracks, Vector.toList_setIfInBounds, htake]
      refine ⟨by omega, by rw [hu]; rfl, ?_, htype⟩
      intro b hb
      rcases List.mem_append.mp hb with hb | hb
      · exact hcontinued b hb
      · rw [List.mem_singleton.mp hb]
        exact hbyte

theorem tracks_connack {p : Parser cfg} {s u : List Byte} {byte : Byte} {rest : List Byte}
    (hp : p.parse = .varHeaderConnack1 ∨ p.parse = .varHeaderConnack2) (h : Tracks s u p) :
    TracksCall s u byte rest (p.call byte rest) := by
  rcases hp with hp | hp
  · simp only [Tracks, hp] at h
    simp only [Parser.call, hp, varHeaderConnack1]
    split_ifs
    · simp only [TracksCall, Tracks, List.length_append, List.length_singleton]
      exact h
    · trivial
  · simp only [Tracks, hp] at h
    simp only [Parser.call, hp, varHeaderConnack2]
    split_ifs
    · exact h
    · trivial

theorem tracks_packetId1 {p : Parser cfg} {s u : List Byte} {byte : Byte} {rest : List Byte}
    (hp : p.parse = .varHeaderPacketId1) (h : Tracks s u p) :
    TracksCall s u byte rest (p.call byte rest) := by
  simp only [Tracks, hp] at h
  simp only [Parser.call, hp, varHeaderPacketId1, TracksCall, Tracks, List.length_append,
    List.length_singleton, Nat.add_sub_cancel]
  by_cases hpublish : p.isPublish
  · rw [if_pos hpublish] at h
    rw [if_pos (by exact hpublish)]
    exact ⟨h.1, by omega, h.2⟩
  · rw [if_neg hpublish] at h
    rw [if_neg (by exact hpublish)]
    exact h

theorem tracks_packetId2 {p : Parser cfg} {s u : List Byte} {byte : Byte} {rest : List Byte}
    (hp : p.parse = .varHeaderPacketId2) (hok : p.Ok) (h : Tracks s u p) :
    TracksCall s u byte rest (p.call byte rest) := by
  simp only [Tracks, hp] at h
  simp only [Parser.call, hp, varHeaderPacketId2]
  by_cases hpublish : p.isPublish
  · rw [if_pos hpublish] at h
    obtain ⟨hdeclared, hu, htotal, hlt⟩ := h
    obtain ⟨hindex, hlength⟩ := hok.start (by simp [hp]) (by simp [hp]) hpublish
    have hpub : p.packet.packetType &&& 0xF0 = PacketType.PUBLISH := hpublish
    have hsub : cfg.sub p.packet.payload.total 2 = p.packet.payload.total - 2 := cfg.sub_of_le hlt htotal
    simp only [hpub, show ¬ PacketType.PUBLISH = PacketType.SUBACK by decide, if_false, if_true, hsub]
    split_ifs with hid hzero
    · -- there is no payload
      simp only [TracksCall, if_true, hdeclared]
      congr 1
      omega
    · simp only [TracksCall, Tracks, hindex, hlength, hdeclared, List.length_append,
        List.length_singleton]
      congr 1
      omega
    · trivial
  · rw [if_neg hpublish] at h
    have hpub : ¬ p.packet.packetType &&& 0xF0 = PacketType.PUBLISH := hpublish
    split_ifs with hid hsuback
    · rw [if_pos hsuback] at h
      obtain ⟨hdeclared, hpos, htotal⟩ := h
      simp only [TracksCall, Tracks, hpos, hdeclared, List.length_append, List.length_singleton]
      exact ⟨htotal, rfl⟩
    · rw [if_neg hsuback] at h
      exact h
    · trivial

theorem tracks_topicLength1 {p : Parser cfg} {s u : List Byte} {byte : Byte} {rest : List Byte}
    (hp : p.parse = .varHeaderTopicLength1) (h : Tracks s u p) :
    TracksCall s u byte rest (p.call byte rest) := by
  simp only [Tracks, hp] at h
  obtain ⟨htype, ls, rfl, hls, hlength⟩ := h
  simp only [Parser.call, hp, varHeaderTopicLength1]
  exact ⟨htype, ls, byte, rfl, hls, hlength, rfl⟩

/-- With room for the topic length and the packet id nothing wraps around. -/
theorem topicRoom_of_le {type : Byte} {remainingLength : ℕ} (hlt : remainingLength < cfg.sizeMod)
    (h : 2 + idLength type ≤ remainingLength) :
    topicRoom cfg type remainingLength = remainingLength - 2 - idLength type := by
  have hid : idLength type = if hasPacketId type then 2 else 0 := rfl
  rw [topicRoom, cfg.sub_of_le hlt (by omega), ← hid, cfg.sub_of_le (by omega) (by omega)]

/-- A remaining length is a `size_t`. -/
theorem decode_lt_sizeMod (cfg : Config) {ls : List Byte} (h : IsLengthField ls) :
    (decodeRemainingLength ls).toNat < cfg.sizeMod := by
  have := (decode_lt h).2
  have := cfg.le_sizeMod
  omega

theorem tracks_topicLength2 {p : Parser cfg} {s u : List Byte} {byte : Byte} {rest : List Byte}
    (hs : s = u ++ byte :: rest) (hfits : Fits cfg s) (hp : p.parse = .varHeaderTopicLength2)
    (h : Tracks s u p) : TracksCall s u byte rest (p.call byte rest) := by
  simp only [Tracks, hp] at h
  obtain ⟨htype, ls, hi, rfl, hls, hlength, htopic⟩ := h
  have hstream : s = p.packet.packetType :: (ls ++ hi :: byte :: rest) := by simp [hs]
  obtain ⟨hroom, hwell⟩ := hfits _ _ _ _ _ hstream htype hls
  have hlt := decode_lt_sizeMod cfg hls
  have hjoin : hi.toUInt16 <<< 8 ||| byte.toUInt16 = joinBytes hi byte := rfl
  have hmax := topicRoom_of_le hlt hroom
  rw [topicRoom] at hmax
  simp only [Parser.call, hp, varHeaderTopicLength2, htopic, hlength, hjoin, hmax]
  by_cases haccept : (joinBytes hi byte).toNat
      ≤ (decodeRemainingLength ls).toNat - 2 - idLength p.packet.packetType
  · rw [if_pos haccept]
    obtain ⟨hone, hle⟩ := hwell.resolve_left (by omega)
    have htotal : cfg.sub (cfg.sub (decodeRemainingLength ls).toNat 2) (joinBytes hi byte).toNat
        = (decodeRemainingLength ls).toNat - 2 - (joinBytes hi byte).toNat := by
      rw [cfg.sub_of_le hlt (by omega), cfg.sub_of_le (by omega) (by omega)]
    simp only [TracksCall, Tracks, htotal]
    refine ⟨htype.1, ?_, hone, hle, by omega, by omega⟩
    rw [hstream, declared_append hls]
    simp only [List.length_append, List.length_cons, List.length_nil]
    congr 1
    omega
  · rw [if_neg haccept]
    trivial

theorem tracks_topic {p : Parser cfg} {s u : List Byte} {byte : Byte} {rest : List Byte}
    (hp : p.parse = .varHeaderTopic) (hok : p.Ok) (h : Tracks s u p) :
    TracksCall s u byte rest (p.call byte rest) := by
  simp only [Tracks, hp] at h
  obtain ⟨hpublish, hdeclared, hpos, hmax, hid, hlt⟩ := h
  obtain ⟨hindex, hlength⟩ := hok.start (by simp [hp]) (by simp [hp]) hpublish
  simp only [Parser.call, hp, varHeaderTopic]
  by_cases hend : p.bytePos + 1 = p.packet.topicLength.toNat
  · -- the topic is complete
    simp only [hend, true_or, if_true]
    split_ifs with hpacketId hzero
    · simp only [TracksCall, Tracks, List.length_append, List.length_singleton]
      rw [if_pos (by exact hpublish), hdeclared]
      rw [idLength, if_pos hpacketId] at hid
      exact ⟨by congr 1; omega, hid, hlt⟩
    · simp only [TracksCall, if_true, hdeclared]
      congr 1
      omega
    · simp only [TracksCall, Tracks, hindex, hlength, hdeclared, List.length_append,
        List.length_singleton]
      congr 1
      omega
  · have hmore : ¬ (p.bytePos + 1 = p.packet.topicLength.toNat ∨ p.bytePos + 1 = cfg.maxTopicLength) := by
      omega
    simp only [hmore, if_false, TracksCall, Tracks, List.length_append, List.length_singleton]
    refine ⟨hpublish, ?_, by omega, hmax, hid, hlt⟩
    rw [hdeclared]
    congr 1
    omega

theorem tracks_suback {p : Parser cfg} {s u : List Byte} {byte : Byte} {rest : List Byte}
    (hp : p.parse = .payloadSuback) (h : Tracks s u p) :
    TracksCall s u byte rest (p.call byte rest) := by
  simp only [Tracks, hp] at h
  obtain ⟨hpos, hdeclared⟩ := h
  simp only [Parser.call, hp, payloadSuback]
  split_ifs with hcode hend
  · simp only [TracksCall, if_true, hdeclared]
    congr 1
    omega
  · simp only [TracksCall, Tracks, hdeclared, List.length_append, List.length_singleton]
    refine ⟨by omega, ?_⟩
    congr 1
    omega
  · trivial

theorem tracks_payloadPublish {p : Parser cfg} {s u : List Byte} {byte : Byte} {rest : List Byte}
    (hp : p.parse = .payloadPublish) (hok : p.Ok) (h : Tracks s u p) :
    TracksCall s u byte rest (p.call byte rest) := by
  simp only [Tracks, hp] at h
  have hleft := hok.payload hp
  rw [call_payloadPublish hp]
  simp only [TracksCall, afterSlice]
  split_ifs with h1 h2 h2
  · rw [h]
    congr 1
    omega
  · exact absurd rfl h2
  · exact absurd h2 (by simp)
  · simp only [Tracks, List.length_append, List.length_take, List.length_cons]
    rw [h]
    congr 1
    omega

/-- **One call.** Every state function keeps track of the stream. -/
theorem Tracks.call {p : Parser cfg} {s u : List Byte} {byte : Byte} {rest : List Byte}
    (hs : s = u ++ byte :: rest) (hfits : Fits cfg s) (hok : p.Ok) (h : Tracks s u p) :
    TracksCall s u byte rest (p.call byte rest) := by
  cases hp : p.parse with
  | fixedHeader =>
    obtain rfl : u = [] := by simpa [Tracks, hp] using h
    exact tracks_fixedHeader hp
  | remainingLengthFixed => exact tracks_remainingLengthFixed hs hp h
  | remainingLengthNone => exact tracks_remainingLengthNone hs hp h
  | remainingLengthVariable => exact tracks_remainingLengthVariable hs hp h
  | varHeaderConnack1 => exact tracks_connack (.inl hp) h
  | varHeaderConnack2 => exact tracks_connack (.inr hp) h
  | varHeaderPacketId1 => exact tracks_packetId1 hp h
  | varHeaderPacketId2 => exact tracks_packetId2 hp hok h
  | varHeaderTopicLength1 => exact tracks_topicLength1 hp h
  | varHeaderTopicLength2 => exact tracks_topicLength2 hs hfits hp h
  | varHeaderTopic => exact tracks_topic hp hok h
  | payloadSuback => exact tracks_suback hp h
  | payloadPublish => exact tracks_payloadPublish hp hok h

/-- **A whole stream.** The first complete packet ends where its header says. -/
theorem walk_declared {s : List Byte} (hfits : Fits cfg s) : ∀ (k : ℕ) (u v : List Byte), v.length ≤ k →
    s = u ++ v → ∀ (p : Parser cfg), p.Ok → Tracks s u p →
      ∀ n, firstPacketEnd (walk u.length 0 p v).results = some n → declared s = some n := by
  intro k
  induction k with
  | zero =>
    intro u v hlen _ p _ _ n hn
    obtain rfl := List.length_eq_zero_iff.mp (Nat.le_zero.mp hlen)
    simp [walk, Fed.idle, firstPacketEnd] at hn
  | succ k ih =>
    intro u v hlen hs p hok htracks n hn
    rcases v with _ | ⟨byte, rest⟩
    · simp [walk, Fed.idle, firstPacketEnd] at hn
    have hcall := htracks.call hs hfits hok
    have hok' := hok.call byte rest
    have hread := hok.call_read byte rest
    have hone := call_read_of_ne p byte rest
    rw [walk_cons hok] at hn
    generalize p.call byte rest = c at *
    obtain ⟨result, m, q⟩ := c
    have hstep : ∀ (m : ℕ), 1 ≤ m → m ≤ rest.length + 1 → ∀ n,
        Tracks s (u ++ (byte :: rest).take m) q →
        firstPacketEnd (walk (u.length + m) 0 q ((byte :: rest).drop m)).results = some n →
        declared s = some n := by
      intro m h1 h2 n htr hn
      have hlen' : (u ++ (byte :: rest).take m).length = u.length + m := by
        simp only [List.length_append, List.length_take, List.length_cons]
        omega
      refine ih _ ((byte :: rest).drop m) ?_ ?_ q hok' htr n (by rw [hlen']; exact hn)
      · simp only [List.length_drop, List.length_cons] at hlen ⊢
        omega
      · rw [List.append_assoc, List.take_append_drop, hs]
    cases result with
    | awaitData =>
      obtain rfl : m = 1 := hone (by simp)
      exact hstep 1 le_rfl (by omega) n hcall hn
    | packet =>
      by_cases hcomplete : q.parse = .fixedHeader
      · have hend : declared s = some (u.length + m) := by simpa [TracksCall, hcomplete] using hcall
        have : u.length + m = n := by
          simpa [firstPacketEnd, Fed.cons, Parser.result, hcomplete] using hn
        rw [hend, this]
      · have htr : Tracks s (u ++ (byte :: rest).take m) q := by simpa [TracksCall, hcomplete] using hcall
        refine hstep m hread.1 hread.2 n htr ?_
        simpa [firstPacketEnd, Fed.cons, Parser.result, hcomplete] using hn
    | protocolError => simp [firstPacketEnd] at hn

/-! ### Malformed packets -/

/-- A first byte that begins no packet. -/
theorem walk_badFlags {p : Parser cfg} (hp : p.parse = .fixedHeader) {type : Byte}
    (hpublish : type &&& 0xF0 = PacketType.PUBLISH) (hflags : ¬ startsPublish type) (start : ℕ)
    (rest : List Byte) : ∃ n q, walk start 0 p (type :: rest) = ⟨[], n, true, q⟩ := by
  have hflags' : ¬ (type &&& 0x0F ≤ 0x05 ∨ type &&& 0x0F ≥ 0x0A) := fun h => hflags ⟨hpublish, h⟩
  rw [walk_byte (ok_of_fixedHeader hp) (by simp [hp])]
  simp only [Parser.call, hp, fixedHeader, hpublish, if_true, hflags', if_false]
  exact ⟨_, _, rfl⟩

/-- A remaining length that is too small for the fields of a packet other than PUBLISH. -/
theorem walk_fieldsTooSmall {p : Parser cfg} (hp : p.parse = .fixedHeader) {type : Byte}
    {ls : List Byte} (hls : IsLengthField ls) (hpublish : type &&& 0xF0 ≠ PacketType.PUBLISH)
    (hsmall : (decodeRemainingLength ls).toNat < fieldsLength type) (start : ℕ) (rest : List Byte) :
    ∃ n q, walk start 0 p (type :: (ls ++ rest)) = ⟨[], n, true, q⟩ := by
  have hok := (ok_of_fixedHeader hp).call type []
  rw [walk_byte (ok_of_fixedHeader hp) (by simp [hp])]
  simp only [Parser.call, hp, fixedHeader, hpublish, if_false] at hok ⊢
  split_ifs at hok ⊢ with hfixed hsuback hping
  · -- the length is one byte, and it is not 2
    have htwo : fieldsLength type = 2 := by
      rcases hfixed with h | h | h | h | h | h <;> rw [h] <;> decide
    rw [htwo] at hsmall
    rcases ls with _ | ⟨b, bs⟩
    · simpa using (length_lengthField hls).1
    have hb : ¬ b.toNat = 2 := by
      intro hb
      obtain rfl : b = 2 := UInt8.toNat_inj.mp hb
      rcases lengthField_cons hls with ⟨h, -⟩ | ⟨-, rfl⟩
      · exact absurd h (by decide)
      · exact absurd hsmall (by decide)
    dsimp only at hok ⊢
    rw [List.cons_append, walk_byte hok (by simp)]
    simp only [Parser.call, remainingLengthFixed, hb, if_false]
    exact ⟨_, _, rfl⟩
  · -- no room for the packet id and a return code
    have hthree : fieldsLength type = 3 := by rw [hsuback]; decide
    rw [hthree] at hsmall
    obtain ⟨q, raw, pos, last, hq, hok', hlast, hwalk, -, hdecode⟩ :=
      walk_remainingLength hok rfl rfl hls (start + 1) rest
    have hparse : q.parse = .remainingLengthVariable := by rw [hq]
    have hpub : ¬ q.packet.packetType &&& 0xF0 = PacketType.PUBLISH := by rw [hq]; exact hpublish
    have hdecode' : decodeRemainingLength (q.packet.remainingLengthRaw.setIfInBounds q.bytePos last).toList
        = decodeRemainingLength ls := by rw [hq]; exact hdecode
    have hsize : ¬ (0 < ((decodeRemainingLength ls).toNat : ℤ) - 2 ∧
        ((decodeRemainingLength ls).toNat : ℤ) - 2 < cfg.payloadBufferSize) := by omega
    dsimp only
    rw [hwalk, walk_byte hok' (by simp [hparse])]
    simp only [Parser.call, hparse, remainingLengthVariable, hlast, ne_eq, not_true_eq_false, if_false,
      hpub, hdecode', hsize]
    exact ⟨_, _, rfl⟩
  · have hzero : fieldsLength type = 0 := by rw [hping]; decide
    omega
  · exact ⟨_, _, rfl⟩

/-- A stream has one length field behind its first byte. -/
theorem header_inj {type type' hi hi' lo lo' : Byte} {ls ls' rest rest' : List Byte}
    (hls : IsLengthField ls) (hls' : IsLengthField ls')
    (h : type :: (ls ++ hi :: lo :: rest) = type' :: (ls' ++ hi' :: lo' :: rest')) :
    type = type' ∧ ls = ls' ∧ hi = hi' ∧ lo = lo' := by
  obtain ⟨rfl, hbody⟩ := List.cons.inj h
  have h1 := lengthField_append hls (hi :: lo :: rest)
  rw [hbody, lengthField_append hls'] at h1
  obtain rfl := Option.some.inj h1
  have h2 := List.append_cancel_left hbody
  simp only [List.cons.injEq] at h2
  exact ⟨rfl, rfl, h2.1, h2.2.1⟩

/-! ### The condition -/

/-- A stream that does not begin with the header of a PUBLISH is framed. -/
theorem framed_of_no_publish {s : List Byte}
    (hs : ∀ type ls hi lo rest, s = type :: (ls ++ hi :: lo :: rest) → IsLengthField ls →
      ¬ startsPublish type) : Framed cfg s := by
  apply framed_of_walk
  intro p hp
  have hfits : Fits cfg s := fun type ls hi lo rest heq htype hls => absurd htype (hs _ _ _ _ _ heq hls)
  refine ⟨walk_declared hfits _ [] s le_rfl rfl p (ok_of_fixedHeader hp) (by simp [Tracks, hp]), ?_⟩
  rintro (⟨type, ls, rest, rfl, hls, hpublish, hsmall⟩ | ⟨type, ls, hi, lo, rest, rfl, hls, hpublish, -⟩)
  · obtain ⟨n, q, hwalk⟩ := walk_fieldsTooSmall hp hls hpublish hsmall 0 rest
    rw [hwalk]
    exact ⟨rfl, rfl⟩
  · obtain ⟨n, q, hwalk⟩ := walk_badFlags hp hpublish (hs _ _ _ _ _ rfl hls) 0 (ls ++ hi :: lo :: rest)
    rw [hwalk]
    exact ⟨rfl, rfl⟩

variable {type : Byte} {ls : List Byte} {hi lo : Byte}

/-- Well sized lengths are enough. -/
theorem framed_of_wellSized (htype : startsPublish type) (hls : IsLengthField ls)
    (h : WellSized cfg type (decodeRemainingLength ls).toNat (joinBytes hi lo).toNat) (rest : List Byte) :
    Framed cfg (type :: (ls ++ hi :: lo :: rest)) := by
  apply framed_of_walk
  intro p hp
  have hfits : Fits cfg (type :: (ls ++ hi :: lo :: rest)) := by
    intro type' ls' hi' lo' rest' heq _ hls'
    obtain ⟨rfl, rfl, rfl, rfl⟩ := header_inj hls hls' heq
    exact h
  refine ⟨walk_declared hfits _ [] _ le_rfl rfl p (ok_of_fixedHeader hp) (by simp [Tracks, hp]), ?_⟩
  rintro (⟨type', ls', rest', heq, -, hpublish, -⟩ |
    ⟨type', ls', hi', lo', rest', heq, hls', -, hmalformed⟩)
  · obtain ⟨rfl, -⟩ := List.cons.inj heq
    exact absurd htype.1 hpublish
  · obtain ⟨rfl, rfl, rfl, rfl⟩ := header_inj hls hls' heq
    obtain ⟨hroom, hwell⟩ := h
    have hfull : topicRoom cfg type (decodeRemainingLength ls).toNat < (joinBytes hi lo).toNat := by
      rw [topicRoom_of_le (decode_lt_sizeMod cfg hls) hroom]
      omega
    obtain ⟨q, hwalk⟩ := walk_topicLength_error hp htype hls 0 hi lo hfull rest
    rw [hwalk]
    exact ⟨rfl, rfl⟩

/-- A malformed header whose topic length is accepted is not framed: nothing is wrong until more bytes
than the packet has are read. -/
theorem not_framed_of_accepted (htype : startsPublish type) (hls : IsLengthField ls)
    (hroom : (joinBytes hi lo).toNat ≤ topicRoom cfg type (decodeRemainingLength ls).toNat)
    (hmalformed : (decodeRemainingLength ls).toNat < 2 + idLength type ∨ (joinBytes hi lo).toNat = 0) :
    ¬ Framed cfg (type :: (ls ++ [hi, lo])) := by
  intro h
  obtain ⟨-, herror⟩ := h (new cfg) rfl [type :: (ls ++ [hi, lo])] (by simp)
  have hmal : Malformed (type :: (ls ++ [hi, lo])) :=
    .inr ⟨type, ls, hi, lo, [], rfl, hls, htype.1, hmalformed.imp id .inr⟩
  have halike := feed_walk [type :: (ls ++ [hi, lo])] 0 (ok_of_fixedHeader (p := new cfg) rfl)
  have hawait := walk_topicLength_await (p := new cfg) rfl htype hls 0 hi lo hroom
  have herror' := (herror hmal).1
  rw [halike.error, List.flatten_singleton, hawait] at herror'
  exact absurd herror' (by decide)

/-- Without room for the topic length and the packet id every topic length is accepted: the room
wraps around. -/
theorem le_topicRoom_of_lt {remainingLength : ℕ} (h : remainingLength < 2 + idLength type)
    (topicLength : UInt16) : topicLength.toNat ≤ topicRoom cfg type remainingLength := by
  have hsize := cfg.le_sizeMod
  have ht := topicLength.toNat_lt
  have hid : (if hasPacketId type then 2 else 0) = idLength type := rfl
  have hidle : idLength type ≤ 2 := by rw [idLength]; split_ifs <;> omega
  rw [topicRoom, hid]
  by_cases htwo : remainingLength < 2
  · rw [cfg.sub_of_lt htwo (by omega), cfg.sub_of_le (by omega) (by omega)]
    omega
  · rw [cfg.sub_of_le (a := remainingLength) (by omega) (by omega), cfg.sub_of_lt (by omega) (by omega)]
    omega

/-- A topic of more bytes than the array holds ends the packet early. -/
theorem not_framed_of_longTopic (htype : startsPublish type) (hls : IsLengthField ls)
    (hroom : 2 + idLength type ≤ (decodeRemainingLength ls).toNat)
    (hfits : (joinBytes hi lo).toNat ≤ (decodeRemainingLength ls).toNat - 2 - idLength type)
    (hlong : cfg.maxTopicLength < (joinBytes hi lo).toNat) :
    ∃ rest, ¬ Framed cfg (type :: (ls ++ hi :: lo :: rest)) := by
  have hlt := decode_lt_sizeMod cfg hls
  -- as many bytes of topic as the array holds, a packet id, and a payload without what is missing
  let H : PublishHeader cfg := {
    type
    length := ls
    hi
    lo
    topic := List.replicate cfg.maxTopicLength 97
    packetId := if hasPacketId type then [0, 1] else []
    startsPublish := htype
    isLengthField := hls
    accepted := by rw [topicRoom_of_le hlt hroom]; exact hfits
    topic_length := by rw [List.length_replicate, topicRead, if_neg (by omega)]
    packetId_eq := by
      split_ifs
      · exact ⟨0, 1, rfl, by decide⟩
      · rfl }
  have hid : H.packetId.length = idLength type := by
    simp only [H, idLength]
    split_ifs <;> rfl
  have htotal : H.total = (decodeRemainingLength ls).toNat - 2 - (joinBytes hi lo).toNat - idLength type := by
    have hsub : cfg.sub (cfg.sub H.remainingLength 2) (joinBytes H.hi H.lo).toNat
        = (decodeRemainingLength ls).toNat - 2 - (joinBytes hi lo).toNat := by
      rw [cfg.sub_of_le (a := H.remainingLength) hlt (by simp only [H, PublishHeader.remainingLength]; omega),
        cfg.sub_of_le (by simp only [H, PublishHeader.remainingLength]; omega)
          (by simp only [H, PublishHeader.remainingLength]; omega)]
      rfl
    rw [PublishHeader.total, hsub, idLength]
    rw [idLength] at hroom hfits
    show (if hasPacketId type then _ else _) = _
    split_ifs with h
    · rw [if_pos h] at hroom hfits
      rw [cfg.sub_of_le (by omega) (by omega)]
    · rfl
  have hbytes : H.bytes.length = 1 + ls.length + 2 + cfg.maxTopicLength + idLength type := by
    rw [← hid]
    simp [PublishHeader.bytes, H]
    omega
  refine ⟨H.topic ++ H.packetId ++ List.replicate H.total 0, fun h => ?_⟩
  have hstream : type :: (ls ++ hi :: lo :: (H.topic ++ H.packetId ++ List.replicate H.total 0))
      = H.bytes ++ (List.replicate H.total 0 ++ []) := by
    simp [PublishHeader.bytes, H]
  obtain ⟨q, -, -, hwalk⟩ := walk_publish H (p := new cfg) rfl
    (List.length_replicate (n := H.total) (a := (0 : Byte))) 0 []
  obtain ⟨hend, -⟩ := h (new cfg) rfl [_] (List.flatten_singleton)
  have halike := feed_walk [H.bytes ++ (List.replicate H.total 0 ++ [])] 0 (ok_of_fixedHeader (p := new cfg) rfl)
  have hdeclared := hend (H.bytes.length + H.total) (by
    rw [hstream, halike.firstPacketEnd, List.flatten_singleton, hwalk]
    simp [firstPacketEnd, Fed.cons])
  rw [declared_append hls] at hdeclared
  have := Option.some.inj hdeclared
  omega

/-- **Exactly the well sized packets are framed.** A stream that does not begin with the header of a
PUBLISH is framed; one that does is framed, whatever follows, if and only if its lengths are well
sized. -/
theorem framed_iff (cfg : Config) :
    (∀ s : List Byte, (∀ type ls hi lo rest, s = type :: (ls ++ hi :: lo :: rest) →
      IsLengthField ls → ¬ startsPublish type) → Framed cfg s) ∧
    ∀ (type : Byte) (ls : List Byte) (hi lo : Byte), startsPublish type → IsLengthField ls →
      ((∀ rest, Framed cfg (type :: (ls ++ hi :: lo :: rest))) ↔
        WellSized cfg type (decodeRemainingLength ls).toNat (joinBytes hi lo).toNat) := by
  refine ⟨fun s hs => framed_of_no_publish hs, fun type ls hi lo htype hls => ⟨fun h => ?_, fun h rest =>
    framed_of_wellSized htype hls h rest⟩⟩
  by_contra hwell
  by_cases hroom : 2 + idLength type ≤ (decodeRemainingLength ls).toNat
  · have hfits : (joinBytes hi lo).toNat ≤ (decodeRemainingLength ls).toNat - 2 - idLength type :=
      Nat.le_of_not_lt fun hlt => hwell ⟨hroom, .inl hlt⟩
    by_cases hzero : (joinBytes hi lo).toNat = 0
    · refine not_framed_of_accepted htype hls ?_ (.inr hzero) (h [])
      rw [hzero]
      exact Nat.zero_le _
    · have hlong : cfg.maxTopicLength < (joinBytes hi lo).toNat :=
        Nat.lt_of_not_le fun hle => hwell ⟨hroom, .inr ⟨by omega, hle⟩⟩
      obtain ⟨rest, hrest⟩ := not_framed_of_longTopic htype hls hroom hfits hlong
      exact hrest (h rest)
  · exact not_framed_of_accepted htype hls (le_topicRoom_of_lt (by omega) _) (.inl (by omega)) (h [])

/-- A PUBLISH of no bytes at all swallows the PINGRESP behind it. -/
theorem not_framed_empty_publish : ¬ ∀ s : List Byte, Framed .linux s := by
  intro h
  obtain ⟨-, herror⟩ := h [0x30, 0x00, 0xD0, 0x00] (new .linux) rfl [[0x30, 0x00, 0xD0, 0x00]] rfl
  have hmalformed : Malformed [0x30, 0x00, 0xD0, 0x00] :=
    .inr ⟨0x30, [0x00], 0xD0, 0x00, [], rfl, by decide, by decide, .inl (by decide)⟩
  exact absurd (herror hmalformed).1 (by decide)

end Parser

end EspMqttClient
