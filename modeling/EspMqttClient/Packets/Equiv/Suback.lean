/-
  The parser on a whole SUBACK.

  The remaining length says how many return codes there are.  Fewer than `payloadBufferSize` are
  read one after the other (`walk_codes`), so in whatever buffers the SUBACK comes it is returned as
  one packet (`Suback.feed_bytes`); with more of them it is a protocol error, also if they would
  just fit (`Suback.feed_bytes_error`).
-/
import EspMqttClient.Packets.Equiv.Midway
import EspMqttClient.Packets.Equiv.RoundTrip

namespace EspMqttClient

namespace Parser

variable {cfg : Config}

/-- A legal SUBACK: its packet id is not 0, and its remaining length leaves room for the return codes, of
which there is one at least. -/
structure Suback where
  length : List Byte
  packetId : UInt16
  codes : List Byte
  isLengthField : IsLengthField length
  length_eq : decodeRemainingLength length = (2 + codes.length : ℕ)
  packetId_ne : packetId ≠ 0
  codes_ne : codes ≠ []
  legal : ∀ code ∈ codes, isSubackCode code

namespace Suback

def bytes (s : Suback) : List Byte := PacketType.SUBACK :: (s.length ++ (bigEndian s.packetId ++ s.codes))

/-- What a caller of `getPacket` is to read. -/
structure Reports (s : Suback) (r : Report) : Prop where
  type : r.packetType = PacketType.SUBACK
  packetId : r.packetId = s.packetId
  total : r.total = s.codes.length
  payload : r.payload = s.codes

/-! ### Field by field -/

/-- The parser at the last byte of the remaining length. -/
theorem walk_length (s : Suback) {p : Parser cfg} (hp : p.parse = .fixedHeader) (start : ℕ) (rest : List Byte) :
    ∃ (q : Parser cfg) (last : Byte), q.Ok ∧ q.parse = .remainingLengthVariable ∧
      q.packet.packetType = PacketType.SUBACK ∧ q.packet.packetId = 0 ∧ last &&& 0x80 = 0 ∧
      decodeRemainingLength (q.packet.remainingLengthRaw.setIfInBounds q.bytePos last).toList =
        (2 + s.codes.length : ℕ) ∧
      walk start 0 p (PacketType.SUBACK :: (s.length ++ rest)) = walk (start + s.length.length) 0 q
        (last :: rest) := by
  have h := ok_of_fixedHeader hp
  have hsuback := h.call PacketType.SUBACK []
  rw [walk_byte h (by simp [hp])]
  simp only [Parser.call, hp] at hsuback ⊢
  have hfixed : p.fixedHeader PacketType.SUBACK = (.awaitData, { p with
      bytePos := 0
      parse := .remainingLengthVariable
      packet := { p.packet.reset with packetType := PacketType.SUBACK } }) := rfl
  rw [hfixed] at hsuback ⊢
  -- whatever its length, the field is read up to its last byte
  obtain ⟨q, raw, pos, last, hq, hok, hlast, hwalk, hone, hdecode⟩ :=
    walk_remainingLength hsuback rfl rfl s.isLengthField (start + 1) rest
  refine ⟨q, last, hok, ?_, ?_, ?_, hlast, ?_, ?_⟩
  · rw [hq]
  · rw [hq]
  · rw [hq]
    rfl
  · rw [hq]
    exact hdecode.trans s.length_eq
  · have hstart : start + 1 + s.length.length - 1 = start + s.length.length := by omega
    dsimp only
    rw [hwalk, hstart]

end Suback

/-- **The return codes**: each goes to the place of the array where `bytePos` is, the last one completes
the packet. -/
theorem walk_codes {codes : List Byte} (hne : codes ≠ []) (hlegal : ∀ code ∈ codes, isSubackCode code)
    {p : Parser cfg} (h : p.Ok) (hp : p.parse = .payloadSuback)
    (htotal : p.bytePos + codes.length = p.packet.payload.total)
    (hroom : p.packet.payload.total ≤ cfg.payloadBufferSize) (start : ℕ) :
    ∃ (q : Parser cfg) (buffer : Vector Byte cfg.payloadBufferSize),
      q = { p with bytePos := p.packet.payload.total, payloadBuffer := buffer, parse := .fixedHeader } ∧
      buffer.toList.take p.packet.payload.total = p.payloadBuffer.toList.take p.bytePos ++ codes ∧
      walk start 0 p codes = (Fed.idle (start + codes.length) q).cons (q.result (start + codes.length)) := by
  induction codes generalizing p start with
  | nil => exact absurd rfl hne
  | cons code codes ih =>
    have hlen : p.payloadBuffer.toList.length = cfg.payloadBufferSize := Vector.length_toList
    rw [List.length_cons] at htotal
    -- the new code is behind the ones that are there already
    have htake := take_succ_set p.payloadBuffer.toList (by omega : p.bytePos < _) code
    have hcode : code < 0x03 ∨ code = 0x80 := hlegal code List.mem_cons_self
    have hok := h.call code []
    rw [walk_byte h (by simp [hp])]
    simp only [Parser.call, hp, payloadSuback, hcode, if_true] at hok ⊢
    cases codes with
    | nil =>
      -- the last code: `bytePos` has reached the total
      rw [List.length_nil] at htotal
      simp only [← htotal, if_true, walk, List.length_singleton, Nat.zero_add]
      exact ⟨_, _, rfl, by rw [Vector.toList_setIfInBounds, htake], rfl⟩
    | cons next codes =>
      rw [List.length_cons] at htotal
      simp only [show ¬ p.bytePos + 1 = p.packet.payload.total by omega, if_false] at hok ⊢
      obtain ⟨q, buffer, hq, hbuffer, hwalk⟩ := ih (List.cons_ne_nil _ _)
        (fun c hc => hlegal c (List.mem_cons_of_mem _ hc)) hok rfl
        (by simp only [List.length_cons]; omega) hroom (start + 1)
      refine ⟨q, buffer, hq, ?_, ?_⟩
      · dsimp only at hbuffer
        rw [hbuffer, Vector.toList_setIfInBounds, htake, List.append_assoc, List.singleton_append]
      · rw [hwalk, List.length_cons (a := code), Nat.add_assoc, Nat.add_comm 1]

namespace Suback

/-! ### The whole packet -/

/-- With too many codes for the array the parser stops behind the remaining length. -/
theorem walk_error (s : Suback) {p : Parser cfg} (hp : p.parse = .fixedHeader)
    (hroom : cfg.payloadBufferSize ≤ s.codes.length) (start : ℕ) :
    ∃ q : Parser cfg, walk start 0 p s.bytes = ⟨[], start + s.length.length + 1, true, q⟩ := by
  obtain ⟨q, last, hok, hparse, htype, -, hlast, hdecode, hwalk⟩ :=
    s.walk_length hp start (bigEndian s.packetId ++ s.codes)
  rw [bytes, hwalk, walk_byte hok (by simp [hparse])]
  have hpublish : PacketType.SUBACK &&& 0xF0 ≠ PacketType.PUBLISH := by decide
  have hsize : ¬ (0 < ((2 + s.codes.length : ℕ) : ℤ) - 2 ∧
      ((2 + s.codes.length : ℕ) : ℤ) - 2 < cfg.payloadBufferSize) := by
    omega
  simp only [Parser.call, hparse, remainingLengthVariable, hlast, ne_eq, not_true_eq_false, if_false,
    htype, hpublish,
    hdecode, Int.toNat_natCast, hsize]
  exact ⟨_, rfl⟩

/-- With fewer codes there is one result behind the last of them. -/
theorem walk_bytes (s : Suback) {p : Parser cfg} (hp : p.parse = .fixedHeader)
    (hroom : s.codes.length < cfg.payloadBufferSize) (start : ℕ) :
    ∃ (q : Parser cfg) (r : Result), walk start 0 p s.bytes =
        ⟨[r], start + s.bytes.length, false, q⟩ ∧ q.parse = .fixedHeader ∧ s.Reports r.report ∧
          r.complete ∧ r.stop = start + s.bytes.length := by
  obtain ⟨q, last, hok, hparse, htype, hid, hlast, hdecode, hwalk⟩ :=
    s.walk_length hp start (bigEndian s.packetId ++ s.codes)
  have hpos : 0 < s.codes.length := List.length_pos_iff.mpr s.codes_ne
  have hor : (s.packetId >>> 8).toUInt8.toUInt16 <<< 8 ||| s.packetId.toUInt8.toUInt16 = s.packetId :=
    bigEndian_or s.packetId
  have hpublish : PacketType.SUBACK &&& 0xF0 ≠ PacketType.PUBLISH := by decide
  have hsuback : PacketType.SUBACK &&& 0xF0 = PacketType.SUBACK := by decide
  have hsize : 0 < ((2 + s.codes.length : ℕ) : ℤ) - 2 ∧
      ((2 + s.codes.length : ℕ) : ℤ) - 2 < cfg.payloadBufferSize := by
    omega
  have htoNat : (((2 + s.codes.length : ℕ) : ℤ) - 2).toNat = s.codes.length := by omega
  -- one state function after the other
  have h₁ := hok.call last []
  rw [bytes, hwalk, walk_byte hok (by simp [hparse])]
  simp only [Parser.call, hparse, remainingLengthVariable, hlast, ne_eq, not_true_eq_false, if_false,
    htype, hpublish,
    hdecode, Int.toNat_natCast, hsize, and_self, if_true, htoNat] at h₁ ⊢
  have h₂ := h₁.call (s.packetId >>> 8).toUInt8 []
  rw [bigEndian, List.cons_append, walk_byte h₁ (by simp)]
  simp only [Parser.call, varHeaderPacketId1, hid, UInt16.zero_or] at h₂ ⊢
  have h₃ := h₂.call s.packetId.toUInt8 []
  rw [List.cons_append, List.nil_append, walk_byte h₂ (by simp)]
  simp only [Parser.call, varHeaderPacketId2, hor, ne_eq, s.packetId_ne, not_false_eq_true, if_true,
    hsuback] at h₃ ⊢
  -- then the codes, from position 0 on
  obtain ⟨q', buffer, hq', hbuffer, hcodes⟩ := walk_codes s.codes_ne s.legal h₃ rfl (by simp) hroom.le
    (start + s.length.length + 1 + 1 + 1)
  have hlength : start + s.length.length + 1 + 1 + 1 + s.codes.length =
      start + (PacketType.SUBACK :: (s.length ++ (bigEndian s.packetId ++ s.codes))).length := by
    simp only [List.length_cons, List.length_append, length_bigEndian]
    omega
  rw [hlength] at hcodes
  dsimp only at hq' hbuffer
  refine ⟨q', _, hcodes, ?_, ?_, ?_, ?_⟩
  · subst hq'
    rfl
  · subst hq'
    refine ⟨rfl, rfl, rfl, ?_⟩
    show buffer.toList.take s.codes.length = s.codes
    rw [hbuffer, List.take_zero, List.nil_append]
  · subst hq'
    rfl
  · rfl

end Suback

/-! ### In whatever buffers -/

/-- A packet that is returned before it is complete is a PUBLISH. -/
theorem Sound.parseInput_incomplete {p q : Parser cfg} (h : p.Sound) {input : List Byte} {n : ℕ}
    (hcall : p.parseInput input = (.packet, n, q)) (hq : q.parse ≠ .fixedHeader) : q.isPublish := by
  have hsound := (h.parseInput input).1
  obtain ⟨p', byte, rest, m, hlast⟩ := exists_call_of_packet hcall
  rw [hcall] at hsound
  exact (hsound.publish (parse_of_incomplete hlast hq).2).1

/-- So it is of every result of feeding a buffer. -/
theorem Sound.feedBuffer {p : Parser cfg} (h : p.Sound) (fuel start : ℕ) (input : List Byte) :
    (Parser.feedBuffer fuel start p input).parser.Sound ∧
      ∀ r ∈ (Parser.feedBuffer fuel start p input).results, r.complete = false →
        r.report.packetType &&& 0xF0 = PacketType.PUBLISH := by
  induction fuel generalizing start p input with
  | zero => exact ⟨h, fun r hr => absurd hr List.not_mem_nil⟩
  | succ fuel ih =>
    cases input with
    | nil => exact ⟨h, fun r hr => absurd hr List.not_mem_nil⟩
    | cons byte rest =>
      have hsound := (h.parseInput (byte :: rest)).1
      rw [Parser.feedBuffer]
      generalize hcall : p.parseInput (byte :: rest) = c at hsound
      obtain ⟨result, n, q⟩ := c
      cases result with
      | awaitData => exact ih hsound _ _
      | packet =>
        obtain ⟨hsound', hresults⟩ := ih hsound (start + n) ((byte :: rest).drop n)
        refine ⟨hsound', fun r hr hincomplete => ?_⟩
        rcases List.mem_cons.mp hr with rfl | hr
        · exact h.parseInput_incomplete hcall (of_decide_eq_false hincomplete)
        · exact hresults r hr hincomplete
      | protocolError => exact ⟨hsound, fun r hr => absurd hr List.not_mem_nil⟩

theorem Sound.feed {p : Parser cfg} (h : p.Sound) (start : ℕ) (buffers : List (List Byte)) :
    ∀ r ∈ (Parser.feed start p buffers).results, r.complete = false →
      r.report.packetType &&& 0xF0 = PacketType.PUBLISH := by
  induction buffers generalizing start p with
  | nil => exact fun r hr => absurd hr List.not_mem_nil
  | cons buffer buffers ih =>
    obtain ⟨hsound, hfirst⟩ := h.feedBuffer buffer.length start buffer
    rw [Parser.feed, Fed.andThen]
    split_ifs
    · exact hfirst
    · intro r hr
      rcases List.mem_append.mp hr with hr | hr
      · exact hfirst r hr
      · exact ih hsound _ r hr

namespace Suback

/-- A SUBACK with few enough codes is read to its end and returned. -/
theorem feed_bytes (s : Suback) {p : Parser cfg} (hsound : p.Sound) (hp : p.parse = .fixedHeader)
    (hroom : s.codes.length < cfg.payloadBufferSize) {buffers : List (List Byte)}
    (hflat : buffers.flatten = s.bytes) :
    let fed := feed 0 p buffers
    fed.error = false ∧ fed.consumed = s.bytes.length ∧
      ∃ r, fed.results = [r] ∧ r.complete ∧ r.stop = s.bytes.length ∧ s.Reports r.report := by
  intro fed
  obtain ⟨q, r, hwalk, -, hreports, hcomplete, hstop⟩ := s.walk_bytes hp hroom 0
  have halike : fed.Alike (walk 0 0 p buffers.flatten) := feed_walk buffers 0 hsound.toOk
  rw [hflat, hwalk, Nat.zero_add] at halike
  refine ⟨halike.error, halike.consumed, ?_⟩
  have hmerge : merge fed.results = [r] := halike.results
  obtain ⟨init, last, hresults, hinit, -⟩ := exists_last_of_merge hmerge
  obtain ⟨-, hall⟩ := tile_of_merge hmerge
  -- a slice would be one of a PUBLISH
  have hnil : init = [] := by
    rw [List.eq_nil_iff_forall_not_mem]
    intro slice hslice
    have hmem : slice ∈ fed.results := by
      rw [hresults]
      exact List.mem_append_left _ hslice
    have hpublish := hsound.feed 0 buffers slice hmem (hinit slice hslice)
    rw [hall slice hmem] at hpublish
    dsimp only at hpublish
    rw [hreports.type] at hpublish
    exact absurd hpublish (by decide)
  rw [hnil, List.nil_append] at hresults
  obtain rfl : last = r := by
    have hone : merge [last] = [last] := rfl
    rw [hresults, hone] at hmerge
    exact (List.cons.inj hmerge).1
  exact ⟨last, hresults, hcomplete, by rw [hstop, Nat.zero_add], hreports⟩

/-- One with too many is a protocol error. -/
theorem feed_bytes_error (s : Suback) {p : Parser cfg} (hp : p.parse = .fixedHeader)
    (hroom : cfg.payloadBufferSize ≤ s.codes.length) {buffers : List (List Byte)}
    (hflat : buffers.flatten = s.bytes) :
    (feed 0 p buffers).error = true := by
  have halike := feed_walk buffers 0 (ok_of_fixedHeader hp)
  obtain ⟨q, hwalk⟩ := s.walk_error hp hroom 0
  rw [halike.error, hflat, hwalk]

end Suback

end Parser

end EspMqttClient
