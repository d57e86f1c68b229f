/-
  The remaining length on its whole range.

  Four pieces of code agree on the numbers up to 268435455: the table of `remainingLengthLength`, the
  loop of `encodeRemainingLength`, the loop of `decodeRemainingLength`, and the parser, which reads the
  field one byte at a time.  `RemainingLengthExact` says so of one number, `remainingLength_exact` of
  them all.
-/
import EspMqttClient.Packets.Equiv.Accesses

namespace EspMqttClient

/-! ### Encoding -/

/-- All bytes but the last say that the number goes on, and there is no zero too many at its end. -/
theorem encode_canonical : ∀ {n v : ℕ}, n < 5 → v < 128 ^ (n + 1) →
    ∃ init last, encodeRemainingLength v = init ++ [last] ∧ (∀ b ∈ init, b &&& 0x80 ≠ 0) ∧
      last &&& 0x80 = 0 ∧ (last = 0 → v = 0) := by
  intro n
  induction n with
  | zero =>
    intro v _ hv
    have hv : v < 128 := by simpa using hv
    obtain ⟨hlast, hvalue⟩ := last_byte hv
    refine ⟨[], _, encode_of_lt hv, by simp, hlast, fun hzero => ?_⟩
    rw [hzero] at hvalue
    exact hvalue.symm
  | succ n ih =>
    intro v hn hv
    by_cases hsmall : v < 128
    · obtain ⟨hlast, hvalue⟩ := last_byte hsmall
      refine ⟨[], _, encode_of_lt hsmall, by simp, hlast, fun hzero => ?_⟩
      rw [hzero] at hvalue
      exact hvalue.symm
    · have hdiv : v / 128 < 128 ^ (n + 1) := by
        rw [Nat.div_lt_iff_lt_mul (by decide), ← Nat.pow_succ]
        exact hv
      have hmax : v < 128 ^ 5 := Nat.lt_of_lt_of_le hv (Nat.pow_le_pow_right (by decide) (by omega))
      obtain ⟨init, last, heq, hinit, hlast, hzero⟩ := ih (by omega) hdiv
      obtain ⟨hfirst, -⟩ := continued_byte (Nat.mod_lt v (by decide : 128 > 0))
      refine ⟨(UInt8.ofNat (v % 128) ||| 128) :: init, last, ?_, ?_, hlast, fun h => ?_⟩
      · rw [encode_of_le (Nat.not_lt.mp hsmall) hmax, heq]
        rfl
      · intro b hb
        rcases List.mem_cons.mp hb with rfl | hb
        · exact hfirst
        · exact hinit b hb
      · -- what is left of a number of more than one digit is not zero
        have := hzero h
        omega

namespace Parser

variable {cfg : Config}

/-! ### Reading -/

/-- Alike to something that gave no result. -/
theorem results_eq_nil {f g : Fed cfg} (h : f.Alike g) (hg : g.results = []) : f.results = [] := by
  have hmerge := h.results
  rw [hg] at hmerge
  exact merge_eq_nil hmerge

/-- The first bytes of a remaining length that goes on, behind the first byte of a PUBLISH. -/
theorem feed_continued {p : Parser cfg} (hp : p.parse = .fixedHeader) {type : Byte} (htype : startsPublish type)
    {init : List Byte} (hinit : ∀ b ∈ init, b &&& 0x80 ≠ 0) (hlen : init.length < 4)
    {buffers : List (List Byte)} (hflat : buffers.flatten = type :: init) :
    let fed := feed 0 p buffers
    fed.results = [] ∧ fed.error = false ∧ fed.consumed = init.length + 1 ∧
      fed.parser.parse = .remainingLengthVariable := by
  intro fed
  have halike : fed.Alike (walk 0 0 p buffers.flatten) := feed_walk buffers 0 (ok_of_fixedHeader hp)
  obtain ⟨q, raw, rfl, -, hwalk, -⟩ := walk_continued [] init (startPublish_ok p type) (0 + 1) rfl
    (by simpa [startPublish] using hlen) hinit
  rw [hflat, walk_startPublish hp htype, ← List.append_nil init, hwalk, walk] at halike
  refine ⟨results_eq_nil halike rfl, halike.error, ?_, halike.parser.parse⟩
  rw [halike.consumed, Nat.zero_add, Nat.add_comm 1]
  rfl

/-- A whole remaining length, and whatever comes behind it. -/
theorem feed_behindLength {p : Parser cfg} (hp : p.parse = .fixedHeader) {type : Byte}
    (htype : startsPublish type) {ls : List Byte} (hls : IsLengthField ls) {rest : List Byte}
    {buffers : List (List Byte)} (hflat : buffers.flatten = type :: (ls ++ rest)) :
    ∃ q : Parser cfg, BehindFixedHeader q type (decodeRemainingLength ls).toNat ∧
      (feed 0 p buffers).Alike (feed (ls.length + 1) q [rest]) := by
  obtain ⟨q, hq, hwalk⟩ := walk_publishFixedHeader hp htype hls 0 rest
  have halike : (feed 0 p buffers).Alike (walk 0 0 p buffers.flatten) :=
    feed_walk buffers 0 (ok_of_fixedHeader hp)
  rw [hflat, hwalk, Nat.zero_add, Nat.add_comm 1] at halike
  have hrest := feed_walk [rest] (ls.length + 1) hq.ok
  rw [List.flatten_cons, List.flatten_nil, List.append_nil] at hrest
  exact ⟨q, hq, halike.trans hrest.symm⟩

end Parser

/-! ### All forms of a number -/

/-- What the four pieces of code make of a remaining length. -/
structure RemainingLengthExact (n : ℕ) : Prop where
  /-- As many bytes are written as were announced. -/
  length : (encodeRemainingLength n).length = remainingLengthLength n
  size : 1 ≤ remainingLengthLength n ∧ remainingLengthLength n ≤ 4
  /-- All bytes but the last have the continuation bit, and the last is zero for `n = 0` only. -/
  canonical : ∃ init last, encodeRemainingLength n = init ++ [last] ∧ (∀ b ∈ init, b &&& 0x80 ≠ 0) ∧
    last &&& 0x80 = 0 ∧ (last = 0 → n = 0)
  /-- Whatever is behind them in memory, it is not read, and no 32-bit number overflows. -/
  decoded : ∀ memory : List (Option Byte),
    decodeBytes ((encodeRemainingLength n).map some ++ memory) = some (n : ℤ)
  /-- With some bytes missing the parser waits for the next one. -/
  waits : ∀ (cfg : Config) (p : Parser cfg) (type : Byte) (k : ℕ) (buffers : List (List Byte)),
    p.parse = .fixedHeader → Parser.startsPublish type → k < (encodeRemainingLength n).length →
    buffers.flatten = type :: (encodeRemainingLength n).take k →
    let fed := Parser.feed 0 p buffers
    fed.results = [] ∧ fed.error = false ∧ fed.consumed = k + 1 ∧
      fed.parser.parse = .remainingLengthVariable
  /-- With the last byte it has the number and goes on to the topic. -/
  read : ∀ (cfg : Config) (p : Parser cfg) (type : Byte) (buffers : List (List Byte)),
    p.parse = .fixedHeader → Parser.startsPublish type → buffers.flatten = type :: encodeRemainingLength n →
    let fed := Parser.feed 0 p buffers
    fed.results = [] ∧ fed.error = false ∧ fed.consumed = (encodeRemainingLength n).length + 1 ∧
      fed.parser.parse = .varHeaderTopicLength1 ∧ fed.parser.packet.packetType = type ∧
      fed.parser.packet.remainingLength = n
  /-- So it does when more bytes come in the same buffer. -/
  behind : ∀ (cfg : Config) (p : Parser cfg) (type : Byte) (rest : List Byte) (buffers : List (List Byte)),
    p.parse = .fixedHeader → Parser.startsPublish type →
    buffers.flatten = type :: (encodeRemainingLength n ++ rest) →
    ∃ q : Parser cfg, q.parse = .varHeaderTopicLength1 ∧ q.packet.packetType = type ∧
      q.packet.remainingLength = n ∧
      (Parser.feed 0 p buffers).Alike (Parser.feed ((encodeRemainingLength n).length + 1) q [rest])

/-- **The remaining length is exact** on its whole range. -/
theorem remainingLength_exact {n : ℕ} (hn : n ≤ 268435455) : RemainingLengthExact n := by
  have hfield := lengthField_encode hn
  have hlength := length_encode hn
  have hcanonical := encode_canonical (n := 3) (v := n) (by decide) (by omega)
  have hnumber : (decodeRemainingLength (encodeRemainingLength n)).toNat = n := by
    rw [decode_encode hn, Int.toNat_natCast]
  constructor
  case length => exact hlength
  case size => exact hlength ▸ length_lengthField hfield
  case canonical => exact hcanonical
  case decoded =>
    intro memory
    rw [decodeBytes_eq hfield, decode_encode hn]
  case waits =>
    intro cfg p type k buffers hp htype hk hflat
    have hmax := (length_lengthField hfield).2
    obtain ⟨init, last, heq, hinit, -, -⟩ := hcanonical
    have htake : (encodeRemainingLength n).take k = init.take k := by
      rw [heq] at hk ⊢
      rw [List.length_append, List.length_singleton] at hk
      exact List.take_append_of_le_length (by omega)
    have hcount : ((encodeRemainingLength n).take k).length = k := List.length_take_of_le hk.le
    have hcontinued : ∀ b ∈ (encodeRemainingLength n).take k, b &&& 0x80 ≠ 0 := by
      rw [htake]
      exact fun b hb => hinit b (List.mem_of_mem_take hb)
    have hfed := Parser.feed_continued hp htype hcontinued (by omega) hflat
    rwa [hcount] at hfed
  case read =>
    intro cfg p type buffers hp htype hflat
    rw [← List.append_nil (encodeRemainingLength n)] at hflat
    obtain ⟨q, hq, halike⟩ := Parser.feed_behindLength hp htype hfield hflat
    rw [hnumber] at hq
    refine ⟨Parser.results_eq_nil halike rfl, halike.error, halike.consumed,
      halike.parser.parse.trans hq.parse, ?_, ?_⟩
    · exact (congrArg (·.packetType) halike.parser.packet).trans hq.packetType
    · exact (congrArg (·.remainingLength) halike.parser.packet).trans hq.remainingLength
  case behind =>
    intro cfg p type rest buffers hp htype hflat
    obtain ⟨q, hq, halike⟩ := Parser.feed_behindLength hp htype hfield hflat
    rw [hnumber] at hq
    exact ⟨q, hq.parse, hq.packetType, hq.remainingLength, halike⟩

/-- The number that the tests take from the specification. -/
theorem remainingLength_exact_two_bytes : 321 ≤ 268435455 ∧ RemainingLengthExact 321 :=
  ⟨by decide, remainingLength_exact (by decide)⟩

example : encodeRemainingLength 321 = [193, 2] := by decide

end EspMqttClient
