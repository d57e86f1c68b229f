/-
  What reading a packet and marking it as a duplicate change.

  `available` moves the payload window of a packet with a payload callback (`chunkedAvailable_cases`), and
  otherwise a packet stays as it is: `Alike`.  As long as the buffer has room for a window, every packet
  that is built can be read from its first to its last byte (`Sendable`).
-/
import EspMqttClient.Packets.Equiv.Built

namespace EspMqttClient

namespace Packet

variable {cfg : Config}

/-! ### Packets that differ in a payload window -/

/-- The same packet, but perhaps another stretch of its payload in the buffer. -/
structure Alike (p q : Packet) : Prop where
  packetId : q.packetId = p.packetId
  size : q.size = p.size
  payloadIndex : q.payloadIndex = p.payloadIndex
  getPayload : q.getPayload = p.getPayload
  length : q.data.length = p.data.length
  header : q.data.take p.payloadIndex = p.data.take p.payloadIndex
  buffered : p.getPayload = none → q = p

theorem Alike.refl (p : Packet) : p.Alike p := ⟨rfl, rfl, rfl, rfl, rfl, rfl, fun _ => rfl⟩

theorem Alike.formed {p q : Packet} (h : p.Alike q) (hp : p.Formed) : q.Formed where
  buffered hnone := by
    rw [h.buffered (h.getPayload ▸ hnone)]
    exact hp.buffered (h.getPayload ▸ hnone)
  chunked hsome := h.payloadIndex ▸ hp.chunked (h.getPayload ▸ hsome)

/-- The window is behind the first byte. -/
theorem Alike.head {p q : Packet} (h : p.Alike q) (hp : p.Formed) : q.data.head? = p.data.head? := by
  cases hget : p.getPayload with
  | none => rw [h.buffered hget]
  | some cb =>
    have hpos := hp.chunked (by rw [hget]; rfl)
    have hhead : ∀ l : List Byte, l.head? = (l.take p.payloadIndex).head? := by
      obtain ⟨n, hn⟩ := Nat.exists_eq_succ_of_ne_zero (Nat.pos_iff_ne_zero.mp hpos)
      rintro (_ | ⟨a, l⟩)
      · simp
      · rw [hn]; rfl
    rw [hhead, h.header, ← hhead]

theorem Alike.packetType {p q : Packet} (h : p.Alike q) (hp : p.Formed) : q.packetType = p.packetType := by
  rw [packetType_eq, packetType_eq, h.head hp]

/-- A packet with a payload callback whose buffer has room for the header and for as much of the payload as
a write takes. -/
structure Roomy (cfg : Config) (p : Packet) : Prop where
  header : 1 < p.payloadIndex
  payload : p.payloadIndex < p.size
  fits : p.payloadIndex + min cfg.txBufferSize (p.size - p.payloadIndex) ≤ p.data.length
  start : p.payloadIndex ≤ p.payloadStartIndex
  start_le : p.payloadStartIndex ≤ p.payloadEndIndex + 1
  end_le : p.payloadEndIndex + 1 ≤ p.payloadStartIndex + min cfg.txBufferSize (p.size - p.payloadStartIndex)

/-- A packet that can be sent from its first to its last byte. -/
structure Sendable (cfg : Config) (p : Packet) : Prop extends Formed p where
  roomy : p.getPayload.isSome → p.Roomy cfg

/-- The packet with a stretch of its payload in the buffer. -/
def fillWindow (p : Packet) (copied : List Byte) (start : ℕ) : Packet :=
  { p with
    data := ((⟨p.data, p.payloadIndex⟩ : Buffer Byte).put copied).data
    payloadStartIndex := start
    payloadEndIndex := start + copied.length - 1 }

theorem fillWindow_alike {p : Packet} (hsome : p.getPayload.isSome) (copied : List Byte) (start : ℕ) :
    p.Alike (p.fillWindow copied start) where
  packetId := rfl
  size := rfl
  payloadIndex := rfl
  getPayload := rfl
  length := Buffer.length_data_put _ _
  header := Buffer.take_data_put ⟨p.data, p.payloadIndex⟩ copied le_rfl
  buffered h := by rw [h] at hsome; cases hsome

theorem Roomy.fillWindow {p : Packet} (h : p.Roomy cfg) {copied : List Byte} {start : ℕ}
    (hstart : p.payloadIndex ≤ start) (hcopied : copied.length ≤ min cfg.txBufferSize (p.size - start)) :
    (p.fillWindow copied start).Roomy cfg where
  header := h.header
  payload := h.payload
  fits := (Buffer.length_data_put ⟨p.data, p.payloadIndex⟩ copied).ge.trans' h.fits
  start := hstart
  start_le := by
    show start ≤ start + copied.length - 1 + 1
    omega
  end_le := by
    have := h.header
    show start + copied.length - 1 + 1 ≤ start + min cfg.txBufferSize (p.size - start)
    omega

/-- `available` of a chunked packet asks for the beginning of the payload, for more of it, or for
nothing. -/
theorem chunkedAvailable_cases (cfg : Config) (call : ℕ) (cb : PayloadCallback) (p : Packet) (index : ℕ) :
    ∃ q, p.chunkedAvailable cfg call cb index = (q.payloadEndIndex + 1 - index, q) ∧
      ((index < p.payloadIndex ∧ ∃ copied : List Byte, q = p.fillWindow copied p.payloadIndex ∧
          copied.length ≤ min cfg.txBufferSize (p.size - p.payloadStartIndex)) ∨
        (index < p.payloadIndex ∧ q = p ∧ (p.size ≤ p.payloadIndex ∨ p.payloadEndIndex = 0)) ∨
        (p.payloadIndex ≤ index ∧ ∃ copied : List Byte, q = p.fillWindow copied index ∧
          copied.length ≤ min cfg.txBufferSize (p.size - index)) ∨
        (p.payloadIndex ≤ index ∧ q = p ∧ p.payloadStartIndex ≤ index ∧ index ≤ p.payloadEndIndex)) := by
  rw [chunkedAvailable]
  dsimp only
  refine ⟨_, rfl, ?_⟩
  split_ifs with h1 h2 h3
  · exact .inl ⟨h1, _, rfl, cb.length_le _ _ _⟩
  · refine .inr (.inl ⟨h1, rfl, ?_⟩)
    omega
  · exact .inr (.inr (.inl ⟨by omega, _, rfl, cb.length_le _ _ _⟩))
  · exact .inr (.inr (.inr ⟨by omega, rfl, by omega, by omega⟩))

/-- Of a packet that is sent from its buffer all that is left is available. -/
theorem available_buffered {p : Packet} (h : p.getPayload = none) (call index : ℕ) :
    p.available cfg call index = (p.size - index, p) := by
  rw [available, h]
  split_ifs with hle
  · rw [Nat.sub_eq_zero_of_le hle]
  · rfl

theorem available_alike (call : ℕ) (p : Packet) (index : ℕ) : p.Alike (p.available cfg call index).2 := by
  rw [available]
  split_ifs
  · exact .refl p
  · cases hget : p.getPayload with
    | none => exact .refl p
    | some cb =>
      have hsome : p.getPayload.isSome := by rw [hget]; rfl
      obtain ⟨q, hq, ⟨-, copied, rfl, -⟩ | ⟨-, rfl, -⟩ | ⟨-, copied, rfl, -⟩ | ⟨-, rfl, -⟩⟩ :=
        chunkedAvailable_cases cfg call cb p index <;> simp only [hq]
      · exact fillWindow_alike hsome _ _
      · exact .refl _
      · exact fillWindow_alike hsome _ _
      · exact .refl _

theorem Sendable.available {p : Packet} (h : p.Sendable cfg) (call index : ℕ) :
    (p.available cfg call index).2.Sendable cfg where
  toFormed := (available_alike call p index).formed h.toFormed
  roomy hsome := by
    have hroomy := h.roomy ((available_alike call p index).getPayload ▸ hsome)
    rw [Packet.available]
    split_ifs
    · exact hroomy
    · cases hget : p.getPayload with
      | none => exact hroomy
      | some cb =>
        obtain ⟨q, hq, ⟨-, copied, rfl, hcopied⟩ | ⟨-, rfl, -⟩ | ⟨hle, copied, rfl, hcopied⟩ | ⟨-, rfl, -⟩⟩ :=
          chunkedAvailable_cases cfg call cb p index <;> simp only [hq]
        · have := hroomy.start
          exact hroomy.fillWindow le_rfl (by omega)
        · exact hroomy
        · exact hroomy.fillWindow hle hcopied
        · exact hroomy

/-! ### The DUP flag -/

theorem dup_type (byte : Byte) : (byte ||| 0x08) &&& 0xF0 = byte &&& 0xF0 := by
  apply UInt8.toBitVec_inj.mp
  simp only [UInt8.toBitVec_and, UInt8.toBitVec_or, BitVec.and_or_distrib_right]
  simp

theorem setDup_eq (p : Packet) :
    p.setDup = p ∨ p.setDup = { p with data := p.data.modifyHead (· ||| 0x08) } := by
  rw [setDup]
  split_ifs
  · exact .inl rfl
  · exact .inl rfl
  · exact .inl rfl
  · exact .inr rfl

@[simp] theorem packetId_setDup (p : Packet) : p.setDup.packetId = p.packetId := by
  rcases setDup_eq p with h | h <;> rw [h]

@[simp] theorem size_setDup (p : Packet) : p.setDup.size = p.size := by
  rcases setDup_eq p with h | h <;> rw [h]

@[simp] theorem getPayload_setDup (p : Packet) : p.setDup.getPayload = p.getPayload := by
  rcases setDup_eq p with h | h <;> rw [h]

theorem packetType_setDup (p : Packet) : p.setDup.packetType = p.packetType := by
  rcases setDup_eq p with h | h <;> rw [h]
  rw [packetType, packetType]
  cases p.data with
  | nil => rfl
  | cons byte rest => exact dup_type byte

theorem Formed.setDup {p : Packet} (h : p.Formed) : p.setDup.Formed := by
  rcases setDup_eq p with hdup | hdup <;> rw [hdup]
  · exact h
  · exact ⟨fun hnone => by simpa using h.buffered hnone, h.chunked⟩

/-! ### What becomes of a packet in the queue -/

/-- A packet that was read and marked as a duplicate any number of times. -/
inductive Reads (cfg : Config) (p : Packet) : Packet → Prop
  | refl : Reads cfg p p
  | available {q} (call index : ℕ) (h : Reads cfg p q) : Reads cfg p (q.available cfg call index).2
  | setDup {q} (h : Reads cfg p q) : Reads cfg p q.setDup

theorem reads_of_available {p q : Packet} {call index n : ℕ} (h : p.available cfg call index = (n, q)) :
    Reads cfg p q := by
  have hreads : Reads cfg p (p.available cfg call index).2 := .available _ _ .refl
  rwa [h] at hreads

theorem Reads.trans {p q r : Packet} (h : Reads cfg p q) (h' : Reads cfg q r) : Reads cfg p r := by
  induction h' with
  | refl => exact h
  | available call index _ ih => exact .available call index ih
  | setDup _ ih => exact .setDup ih

theorem Reads.formed {p q : Packet} (h : Reads cfg p q) (hp : p.Formed) : q.Formed := by
  induction h with
  | refl => exact hp
  | available call index _ ih => exact (available_alike call _ index).formed ih
  | setDup _ ih => exact ih.setDup

theorem Reads.packetType {p q : Packet} (h : Reads cfg p q) (hp : p.Formed) :
    q.packetType = p.packetType := by
  induction h with
  | refl => rfl
  | available call index hq ih => exact ((available_alike call _ index).packetType (hq.formed hp)).trans ih
  | setDup _ ih => exact (packetType_setDup _).trans ih

theorem Reads.packetId {p q : Packet} (h : Reads cfg p q) : q.packetId = p.packetId := by
  induction h with
  | refl => rfl
  | available call index _ ih => exact (available_alike call _ index).packetId.trans ih
  | setDup _ ih => exact (packetId_setDup _).trans ih

theorem Reads.size {p q : Packet} (h : Reads cfg p q) : q.size = p.size := by
  induction h with
  | refl => rfl
  | available call index _ ih => exact (available_alike call _ index).size.trans ih
  | setDup _ ih => exact (size_setDup _).trans ih

theorem Reads.getPayload {p q : Packet} (h : Reads cfg p q) : q.getPayload = p.getPayload := by
  induction h with
  | refl => rfl
  | available call index _ ih => exact (available_alike call _ index).getPayload.trans ih
  | setDup _ ih => exact (getPayload_setDup _).trans ih

theorem Reads.removable {p q : Packet} (h : Reads cfg p q) (hp : p.Formed) : q.removable = p.removable := by
  rw [Packet.removable, Packet.removable, h.packetId, h.packetType hp]

end Packet

end EspMqttClient
