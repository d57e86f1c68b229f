/-
  The pieces of a packet are those of the grammar.

  A number, a string and a remaining length as `Packet` writes them are decoded as what they were
  (`decodes_bigEndian`, `decodes_stringBytes`, `decodes_encode`), so a packet that is written behind
  its own length is decoded by its body (`message_apply`).
-/
import EspMqttClient.Packets.Equiv.PacketBytes
import EspMqttClient.Packets.Grammar

namespace EspMqttClient

namespace Grammar

open Decoder

/-! ### Fields -/

theorem decodes_bigEndian (n : UInt16) : number.Decodes (bigEndian n) n.toNat := by
  intro s
  have hhi : (n >>> 8).toUInt8.toNat = n.toNat / 256 := by
    rw [UInt16.toNat_toUInt8, UInt16.toNat_shiftRight]
    have hlt := n.toNat_lt
    show (n.toNat >>> 8) % 256 = _
    rw [Nat.shiftRight_eq_div_pow]
    omega
  have hlo : n.toUInt8.toNat = n.toNat % 256 := UInt16.toNat_toUInt8 n
  show some (256 * (n >>> 8).toUInt8.toNat + n.toUInt8.toNat, s) = _
  rw [hhi, hlo, Nat.div_add_mod]

theorem decodes_string {bytes : List Byte} (h : bytes.length ≤ 65535) :
    string.Decodes (bigEndian (UInt16.ofNat bytes.length) ++ bytes) bytes := by
  have hlength : (UInt16.ofNat bytes.length).toNat = bytes.length :=
    UInt16.toNat_ofNat_of_lt (by show bytes.length < 65536; omega)
  have hbytes := decodes_exactly bytes
  rw [← hlength] at hbytes
  exact (decodes_bigEndian _).bind hbytes

theorem decodes_stringBytes {s : CString} (h : s.length ≤ 65535) :
    string.Decodes (Packet.stringBytes s) s.bytes :=
  decodes_string h

/-- The last byte of a remaining length. -/
theorem remainingLength_last (n : ℕ) {v : ℕ} (hv : v < 128) :
    (remainingLength (n + 1)).Decodes [UInt8.ofNat v] v := by
  have hbyte : ∀ k : Fin 128, UInt8.ofNat k < 0x80 ∧ (UInt8.ofNat k).toNat = k := by decide
  obtain ⟨hlt, hval⟩ := hbyte ⟨v, hv⟩
  dsimp only at hlt hval
  rw [remainingLength]
  intro s
  rw [(decodes_item _).apply, if_pos hlt, hval]
  rfl

/-- Another byte of a remaining length. -/
theorem remainingLength_more {n k v : ℕ} (hk : k < 128) {ls : List Byte} (h : (remainingLength n).Decodes ls v) :
    (remainingLength (n + 1)).Decodes ((UInt8.ofNat k ||| 128) :: ls) (k + 128 * v) := by
  have hbyte : ∀ k : Fin 128, ¬ (UInt8.ofNat k ||| 128) < 0x80 ∧
      (UInt8.ofNat k ||| 128).toNat - 128 = k := by decide
  obtain ⟨hlt, hval⟩ := hbyte ⟨k, hk⟩
  dsimp only at hlt hval
  rw [remainingLength]
  intro s
  rw [← List.singleton_append, List.append_assoc, (decodes_item _).apply, if_neg hlt, h.apply, hval]
  rfl

theorem decodes_encodeLoop {n : ℕ} : ∀ {v : ℕ}, v < 128 ^ (n + 1) → n < 5 →
    (remainingLength (n + 1)).Decodes (encodeRemainingLength v) v := by
  induction n with
  | zero =>
    intro v hv _
    rw [encode_of_lt (by omega)]
    exact remainingLength_last 0 (by omega)
  | succ n ih =>
    intro v hv hn
    by_cases hlt : v < 128
    · rw [encode_of_lt hlt]
      exact remainingLength_last _ hlt
    · have hle : 128 ^ (n + 1 + 1) ≤ 128 ^ 5 := Nat.pow_le_pow_right (by decide) (by omega)
      have hdiv : v / 128 < 128 ^ (n + 1) := by
        rw [Nat.pow_succ] at hv
        exact Nat.div_lt_of_lt_mul (by rwa [Nat.mul_comm])
      have hmore := remainingLength_more (Nat.mod_lt v (by decide : 128 > 0)) (ih hdiv (by omega))
      rw [Nat.mod_add_div] at hmore
      rw [encode_of_le (by omega) (by omega)]
      exact hmore

theorem decodes_encode {v : ℕ} (h : v ≤ 268435455) : (remainingLength 4).Decodes (encodeRemainingLength v) v :=
  decodes_encodeLoop (by omega) (by decide)

/-! ### Packets -/

/-- A packet behind its first byte and its length. -/
theorem message_apply (first : Byte) {behind : List Byte} (h : behind.length ≤ 268435455) :
    message (first :: (encodeRemainingLength behind.length ++ behind)) = body first behind := by
  rw [message, ← List.singleton_append, (decodes_item first).apply, (decodes_encode h).apply, left_apply,
    ensure_apply rfl]

end Grammar

end EspMqttClient
