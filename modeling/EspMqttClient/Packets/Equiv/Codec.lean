/-
  The remaining length and the 16-bit numbers, there and back.

  `lengthField` cuts a remaining length off the front of a stream, by the continuation bits.  The
  field that `encodeRemainingLength` writes is one of these (`lengthField_encode`), it has the length
  `remainingLengthLength` announces (`length_encode`), and `decodeRemainingLength` gives the number
  back whatever follows in memory (`decode_encode`, `decode_append`).
-/
import EspMqttClient.Packets.Codec
import Mathlib.Tactic.Ring
import Mathlib.Tactic.SplitIfs

namespace EspMqttClient

/-! ### Length fields -/

/-- The bytes up to the first one without the continuation bit, at most `n` of them. -/
def lengthField : ℕ → List Byte → Option (List Byte)
  | 0, _ => none
  | _ + 1, [] => none
  | n + 1, b :: bs => if b &&& 0x80 ≠ 0 then (lengthField n bs).map (b :: ·) else some [b]

/-- A complete remaining length. -/
def IsLengthField (ls : List Byte) : Prop := lengthField 4 ls = some ls

instance (ls : List Byte) : Decidable (IsLengthField ls) := inferInstanceAs (Decidable (_ = _))

/-- A complete field is recognised whatever follows. -/
theorem lengthField_append : ∀ {n : ℕ} {xs ls : List Byte}, lengthField n xs = some ls →
    ∀ ys, lengthField n (xs ++ ys) = some ls
  | _ + 1, b :: bs, ls, h, ys => by
    simp only [lengthField, List.cons_append] at h ⊢
    split_ifs at h ⊢ with hb
    · obtain ⟨ls', hls', rfl⟩ := Option.map_eq_some_iff.mp h
      rw [lengthField_append hls' ys]
      rfl
    · exact h

/-- A field that continues leaves a shorter field. -/
theorem lengthField_cons {n : ℕ} {b : Byte} {bs : List Byte}
    (h : lengthField (n + 1) (b :: bs) = some (b :: bs)) :
    (b &&& 0x80 ≠ 0 ∧ lengthField n bs = some bs) ∨ (b &&& 0x80 = 0 ∧ bs = []) := by
  rw [lengthField] at h
  split_ifs at h with hb
  · obtain ⟨ls, hls, heq⟩ := Option.map_eq_some_iff.mp h
    obtain rfl : ls = bs := by simpa using heq
    exact .inl ⟨hb, hls⟩
  · exact .inr ⟨by simpa using hb, by simpa using h.symm⟩

theorem length_lengthField : ∀ {n : ℕ} {ls : List Byte}, lengthField n ls = some ls →
    1 ≤ ls.length ∧ ls.length ≤ n
  | n + 1, b :: bs, h => by
    rcases lengthField_cons h with ⟨-, h⟩ | ⟨-, rfl⟩
    · have := length_lengthField h
      simp only [List.length_cons]
      omega
    · simp

/-! ### Decoding -/

/-- The loop reads the field and nothing behind it. -/
theorem decodeLoop_append : ∀ {n : ℕ} {ls : List Byte}, lengthField n ls = some ls →
    ∀ (multiplier acc : ℕ) (rest : List Byte),
      decodeRemainingLengthLoop multiplier acc (ls ++ rest) = decodeRemainingLengthLoop multiplier acc ls
  | n + 1, b :: bs, h, multiplier, acc, rest => by
    simp only [List.cons_append, decodeRemainingLengthLoop]
    rcases lengthField_cons h with ⟨hb, h⟩ | ⟨hb, rfl⟩
    · simp only [hb, ne_eq, not_false_eq_true, if_true, decodeLoop_append h]
    · simp only [hb, ne_eq, not_true_eq_false, if_false]

theorem decode_append {ls : List Byte} (h : IsLengthField ls) (rest : List Byte) :
    decodeRemainingLength (ls ++ rest) = decodeRemainingLength ls :=
  decodeLoop_append h 1 0 rest

theorem and_127_lt (b : Byte) : (b &&& 127).toNat < 128 := by
  rw [UInt8.toNat_and]
  exact Nat.lt_of_le_of_lt Nat.and_le_right (by decide)

/-- A field of up to four bytes is never malformed. -/
theorem decodeLoop_eq : ∀ {n : ℕ} {ls : List Byte}, lengthField n ls = some ls →
    ∀ (multiplier acc : ℕ), multiplier * 128 ^ n ≤ 128 ^ 4 →
      ∃ v < 128 ^ n, decodeRemainingLengthLoop multiplier acc ls = (acc + multiplier * v : ℕ)
  | n + 1, b :: bs, h, multiplier, acc, hm => by
    have hb7 := and_127_lt b
    have hpos : 0 < 128 ^ n := Nat.pow_pos (by decide)
    have hmul : multiplier * 128 * 128 ^ n ≤ 128 ^ 4 := by
      rwa [Nat.pow_succ', ← Nat.mul_assoc] at hm
    have hle : ¬ multiplier > 128 * 128 * 128 := by
      have : multiplier * 128 ≤ 128 ^ 4 :=
        Nat.le_trans (Nat.le_mul_of_pos_right _ hpos) hmul
      omega
    simp only [decodeRemainingLengthLoop, hle, if_false]
    rcases lengthField_cons h with ⟨hb, h⟩ | ⟨hb, rfl⟩
    · obtain ⟨v, hv, heq⟩ := decodeLoop_eq h (multiplier * 128) (acc + (b &&& 127).toNat * multiplier) hmul
      refine ⟨(b &&& 127).toNat + 128 * v, by rw [Nat.pow_succ]; omega, ?_⟩
      rw [if_pos hb, heq]
      congr 1
      ring
    · refine ⟨(b &&& 127).toNat, by rw [Nat.pow_succ]; omega, ?_⟩
      rw [if_neg (by simpa using hb)]
      congr 1
      ring

/-- A remaining length is a number below 2^28. -/
theorem decode_lt {ls : List Byte} (h : IsLengthField ls) :
    0 ≤ decodeRemainingLength ls ∧ (decodeRemainingLength ls).toNat < 268435456 := by
  obtain ⟨v, hv, heq⟩ := decodeLoop_eq h 1 0 (by decide)
  rw [decodeRemainingLength, heq]
  omega

/-! ### Encoding -/

theorem continued_byte {k : ℕ} (hk : k < 128) :
    ((UInt8.ofNat k ||| 128) &&& 0x80 ≠ 0) ∧ ((UInt8.ofNat k ||| 128) &&& 127).toNat = k := by
  have h : ∀ k : Fin 128, ((UInt8.ofNat k ||| 128) &&& 0x80 ≠ 0) ∧
      ((UInt8.ofNat k ||| 128) &&& 127).toNat = k := by decide
  exact h ⟨k, hk⟩

theorem last_byte {k : ℕ} (hk : k < 128) :
    UInt8.ofNat k &&& 0x80 = 0 ∧ (UInt8.ofNat k &&& 127).toNat = k := by
  have h : ∀ k : Fin 128, UInt8.ofNat k &&& 0x80 = 0 ∧ (UInt8.ofNat k &&& 127).toNat = k := by decide
  exact h ⟨k, hk⟩

theorem encode_of_lt {v : ℕ} (hv : v < 128) : encodeRemainingLength v = [UInt8.ofNat v] := by
  rw [encodeRemainingLength, encodeRemainingLengthLoop, if_neg (by omega), Nat.mod_eq_of_lt hv]

/-- A number of at most `fuel` digits needs no more rounds. -/
theorem encodeLoop_succ : ∀ {fuel v : ℕ}, v < 128 ^ (fuel + 1) →
    encodeRemainingLengthLoop (fuel + 2) v = encodeRemainingLengthLoop (fuel + 1) v := by
  intro fuel
  induction fuel with
  | zero =>
    intro v hv
    have hdiv : ¬ 0 < v / 128 := by
      rw [Nat.pow_succ, Nat.pow_zero] at hv
      omega
    simp only [encodeRemainingLengthLoop, hdiv, if_false]
  | succ fuel ih =>
    intro v hv
    have hdiv : v / 128 < 128 ^ (fuel + 1) := by
      rw [Nat.div_lt_iff_lt_mul (by decide), ← Nat.pow_succ]
      exact hv
    rw [encodeRemainingLengthLoop.eq_2, encodeRemainingLengthLoop.eq_2 v (fuel + 1), ih hdiv]

theorem encode_of_le {v : ℕ} (hv : 128 ≤ v) (hmax : v < 128 ^ 5) :
    encodeRemainingLength v = (UInt8.ofNat (v % 128) ||| 128) :: encodeRemainingLength (v / 128) := by
  have hdiv : v / 128 < 128 ^ 4 := by omega
  rw [encodeRemainingLength, encodeRemainingLengthLoop, if_pos (by omega), encodeRemainingLength,
    encodeLoop_succ hdiv]

/-- What is encoded is a length field and decodes to the number. -/
theorem encode_spec : ∀ {n v : ℕ}, n < 5 → v < 128 ^ (n + 1) →
    lengthField (n + 1) (encodeRemainingLength v) = some (encodeRemainingLength v) ∧
      ∀ multiplier acc, multiplier * 128 ^ (n + 1) ≤ 128 ^ 4 →
        decodeRemainingLengthLoop multiplier acc (encodeRemainingLength v)
          = (acc + multiplier * v : ℕ) := by
  intro n
  induction n with
  | zero =>
    intro v _ hv
    have hv : v < 128 := by simpa using hv
    obtain ⟨h1, h2⟩ := last_byte hv
    rw [encode_of_lt hv]
    refine ⟨by simp [lengthField, h1], fun multiplier acc hm => ?_⟩
    have hle : ¬ multiplier > 128 * 128 * 128 := by omega
    simp only [decodeRemainingLengthLoop, hle, if_false, h1, ne_eq, not_true_eq_false, h2]
    congr 1
    ring
  | succ n ih =>
    intro v hn hv
    by_cases hsmall : v < 128
    · obtain ⟨h1, h2⟩ := last_byte hsmall
      rw [encode_of_lt hsmall]
      refine ⟨by simp [lengthField, h1], fun multiplier acc hm => ?_⟩
      have hle : ¬ multiplier > 128 * 128 * 128 := by
        have : multiplier * 128 ^ 1 ≤ multiplier * 128 ^ (n + 1 + 1) :=
          Nat.mul_le_mul_left _ (Nat.pow_le_pow_right (by decide) (by omega))
        omega
      simp only [decodeRemainingLengthLoop, hle, if_false, h1, ne_eq, not_true_eq_false, h2]
      congr 1
      ring
    · have hdiv : v / 128 < 128 ^ (n + 1) := by
        rw [Nat.div_lt_iff_lt_mul (by decide), ← Nat.pow_succ]
        exact hv
      have hmax : v < 128 ^ 5 := Nat.lt_of_lt_of_le hv (Nat.pow_le_pow_right (by decide) (by omega))
      obtain ⟨hfield, hdecode⟩ := ih (by omega) hdiv
      obtain ⟨h1, h2⟩ := continued_byte (Nat.mod_lt v (by decide : 128 > 0))
      rw [encode_of_le (Nat.not_lt.mp hsmall) hmax]
      refine ⟨by rw [lengthField, if_pos h1, hfield]; rfl, fun multiplier acc hm => ?_⟩
      have hmul : multiplier * 128 * 128 ^ (n + 1) ≤ 128 ^ 4 := by
        rwa [Nat.pow_succ', ← Nat.mul_assoc] at hm
      have hle : ¬ multiplier > 128 * 128 * 128 := by
        have : multiplier * 128 * 1 ≤ multiplier * 128 * 128 ^ (n + 1) :=
          Nat.mul_le_mul_left _ (Nat.pow_pos (by decide))
        omega
      simp only [decodeRemainingLengthLoop, hle, if_false, h1, ne_eq, not_false_eq_true, if_true, h2]
      rw [hdecode _ _ hmul]
      congr 1
      rw [Nat.mul_assoc, Nat.add_assoc, Nat.mul_comm (v % 128), ← Nat.mul_add, Nat.add_comm (v % 128),
        Nat.div_add_mod]

theorem lengthField_encode {v : ℕ} (hv : v ≤ 268435455) : IsLengthField (encodeRemainingLength v) :=
  (encode_spec (n := 3) (by decide) (by omega)).1

/-- `decodeRemainingLength` is the inverse of `encodeRemainingLength`. -/
theorem decode_encode {v : ℕ} (hv : v ≤ 268435455) :
    decodeRemainingLength (encodeRemainingLength v) = v := by
  have := (encode_spec (n := 3) (v := v) (by decide) (by omega)).2 1 0 (by decide)
  rw [decodeRemainingLength, this]
  simp

/-- `remainingLengthLength` is the number of bytes `encodeRemainingLength` writes. -/
theorem length_encode {v : ℕ} (hv : v ≤ 268435455) :
    (encodeRemainingLength v).length = remainingLengthLength v := by
  unfold remainingLengthLength
  split_ifs with h1 h2 h3 h4
  · rw [encode_of_lt h1]; rfl
  · rw [encode_of_le (by omega) (by omega), encode_of_lt (by omega)]; rfl
  · rw [encode_of_le (by omega) (by omega), encode_of_le (by omega) (by omega),
      encode_of_lt (by omega)]
    rfl
  · omega
  · rw [encode_of_le (by omega) (by omega), encode_of_le (by omega) (by omega),
      encode_of_le (by omega) (by omega), encode_of_lt (by omega)]
    rfl

/-! ### 16-bit numbers -/

@[simp] theorem length_bigEndian (n : UInt16) : (bigEndian n).length = 2 := rfl

/-- The parser puts a 16-bit number together again. -/
theorem bigEndian_or (n : UInt16) :
    ((n >>> 8).toUInt8.toUInt16 <<< 8) ||| n.toUInt8.toUInt16 = n := by
  have h := n.toNat_lt
  have h8 : UInt16.toNat 8 % 16 = 8 := by decide
  apply UInt16.toNat_inj.mp
  simp only [UInt16.toNat_or, UInt16.toNat_shiftLeft, UInt8.toNat_toUInt16, UInt16.toNat_toUInt8,
    UInt16.toNat_shiftRight]
  rw [h8, Nat.shiftLeft_eq, Nat.shiftRight_eq_div_pow]
  have hhigh : n.toNat / 2 ^ 8 % 2 ^ 8 * 2 ^ 8 % 2 ^ 16 = 2 ^ 8 * (n.toNat / 2 ^ 8) := by omega
  rw [hhigh, ← Nat.two_pow_add_eq_or_of_lt (by omega)]
  omega

/-! ### Strings -/

/-- `strlen` stops inside the memory if there is a NUL. -/
theorem CString.length_ofMemory_lt_iff (memory : List Byte) :
    (CString.ofMemory memory).length < memory.length ↔ 0 ∈ memory := by
  have hprefix : memory.takeWhile (· ≠ 0) <+: memory := List.takeWhile_prefix _
  constructor
  · intro hlt
    by_contra hnone
    have hall : memory.takeWhile (· ≠ 0) = memory :=
      List.takeWhile_eq_self_iff.mpr fun b hb => decide_eq_true fun hzero => hnone (hzero ▸ hb)
    exact absurd (congrArg List.length hall) hlt.ne
  · intro hmem
    refine lt_of_le_of_ne hprefix.length_le fun hlength => ?_
    have hall : memory.takeWhile (· ≠ 0) = memory := hprefix.eq_of_length hlength
    exact of_decide_eq_true (List.takeWhile_eq_self_iff.mp hall 0 hmem) rfl

end EspMqttClient
