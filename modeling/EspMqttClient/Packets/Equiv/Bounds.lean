/-
  No position in a packet overflows.

  A packet is shorter than what a `size_t` can count, and so is the stretch of it that can be read (`Bounded`).
  That is true of all packets that are built, and reading one keeps it so.
-/
import EspMqttClient.Packets.Equiv.Window

namespace EspMqttClient

namespace Packet

variable {cfg : Config}

/-- The positions of the packet, and those of its payload window, can be counted. -/
structure Bounded (cfg : Config) (p : Packet) : Prop where
  size : p.size < cfg.sizeMod
  header : p.payloadIndex + 1 < cfg.sizeMod
  start : p.payloadIndex ≤ p.payloadStartIndex
  end_lt : p.payloadEndIndex < max p.size (p.payloadIndex + 1)

/-! ### Reading -/

theorem Bounded.fillWindow {p : Packet} (h : p.Bounded cfg) {copied : List Byte} {start : ℕ}
    (hstart : p.payloadIndex ≤ start) (hcopied : start + copied.length ≤ max p.size start)
    (hlt : start < max p.size (p.payloadIndex + 1)) : (p.fillWindow copied start).Bounded cfg where
  size := h.size
  header := h.header
  start := hstart
  end_lt := by
    show start + copied.length - 1 < max p.size (p.payloadIndex + 1)
    omega

theorem Bounded.available {p : Packet} (h : p.Bounded cfg) (call index : ℕ) :
    (p.available cfg call index).2.Bounded cfg := by
  rw [Packet.available]
  split_ifs with hsize
  · exact h
  · cases hget : p.getPayload with
    | none => exact h
    | some cb =>
      obtain ⟨q, hq, ⟨-, copied, rfl, hcopied⟩ | ⟨-, rfl, -⟩ | ⟨hle, copied, rfl, hcopied⟩ | ⟨-, rfl, -⟩⟩ :=
        chunkedAvailable_cases cfg call cb p index <;> simp only [hq]
      · have := h.start
        exact h.fillWindow le_rfl (by omega) (by omega)
      · exact h
      · exact h.fillWindow hle (by omega) (by omega)
      · exact h

/-- What is available ends in front of the last position there is. -/
theorem Bounded.available_lt {p q : Packet} {call index n : ℕ} (h : p.Bounded cfg)
    (heq : p.available cfg call index = (n, q)) (hne : n ≠ 0) : index + n < cfg.sizeMod := by
  have hq := h.available call index
  rw [heq] at hq
  rw [Packet.available] at heq
  split_ifs at heq with hsize
  · exact absurd (Prod.mk.inj heq).1.symm hne
  · cases hget : p.getPayload with
    | none =>
      rw [hget] at heq
      obtain ⟨rfl, rfl⟩ := Prod.mk.inj heq
      have := h.size
      omega
    | some cb =>
      simp only [hget] at heq
      obtain ⟨q', hq', -⟩ := chunkedAvailable_cases cfg call cb p index
      obtain ⟨rfl, rfl⟩ := Prod.mk.inj (hq'.symm.trans heq)
      obtain ⟨h1, h2, -, h3⟩ := hq
      dsimp only at h1 h2 h3 hne ⊢
      omega

theorem Bounded.setDup {p : Packet} (h : p.Bounded cfg) : p.setDup.Bounded cfg := by
  rcases setDup_eq p with hdup | hdup <;> rw [hdup]
  · exact h
  · exact ⟨h.size, h.header, h.start, h.end_lt⟩

theorem Bounded.reads {p q : Packet} (h : p.Bounded cfg) (hreads : Reads cfg p q) : q.Bounded cfg := by
  induction hreads with
  | refl => exact h
  | available call index _ ih => exact ih.available call index
  | setDup _ ih => exact ih.setDup

/-! ### The constructors -/

theorem length_allocate_lt {alloc : Alloc} {remainingLength : ℕ} {check : Bool} {b : Buffer Byte}
    (h : allocate cfg alloc remainingLength check = some b) : b.data.length < cfg.sizeMod := by
  rw [allocate_eq h, Buffer.length_data_fill]
  exact cfg.wrap_lt _

/-- A packet that is sent from its buffer. -/
theorem bounded_ofBuffer {packetId : UInt16} {b : Buffer Byte} {packet : Packet}
    (h : (init packetId none).ofBuffer b = (.SUCCESS, packet)) (hlt : b.data.length < cfg.sizeMod) :
    packet.Bounded cfg := by
  obtain rfl := (Prod.mk.inj h).2
  refine ⟨hlt, ?_, le_rfl, ?_⟩
  · have hone : 0 + 1 < cfg.sizeMod := Nat.lt_of_lt_of_le (by decide) cfg.le_sizeMod
    exact hone
  · show 0 < max b.data.length (0 + 1)
    omega

theorem length_fillConnect (b : Buffer Byte) (args : ConnectArgs) :
    (fillConnect cfg b args).data.length = b.data.length := by
  rw [fillConnect]
  split <;> simp only [putRemainingLength, Buffer.length_data_put]

theorem length_fillPublishHeader (b : Buffer Byte) (packetId : UInt16) (topic : CString) (remainingLength : ℕ)
    (qos : Byte) (retain : Bool) :
    (fillPublishHeader b packetId topic remainingLength qos retain).data.length = b.data.length := by
  rw [fillPublishHeader]
  split_ifs <;> simp only [putRemainingLength, Buffer.length_data_put, Buffer.length_data_rewind]

theorem length_foldl_put {α : Type} (f : Buffer Byte → α → Buffer Byte)
    (hf : ∀ b a, (f b a).data.length = b.data.length) (list : List α) (b : Buffer Byte) :
    (list.foldl f b).data.length = b.data.length := by
  induction list generalizing b with
  | nil => rfl
  | cons a list ih => rw [List.foldl_cons, ih, hf]

theorem connect_bounded {alloc : Alloc} {args : ConnectArgs} {packet : Packet}
    (h : connect cfg alloc args = (.SUCCESS, packet)) : packet.Bounded cfg := by
  rw [connect] at h
  split_ifs at h with hclient
  · cases h
  cases halloc : allocate cfg alloc (connectLength cfg args) false with
  | none => simp [halloc] at h
  | some b =>
    rw [halloc] at h
    apply bounded_ofBuffer h
    rw [length_fillConnect]
    exact length_allocate_lt halloc

theorem publish_bounded {alloc : Alloc} {packetId : UInt16} {topic : CString} {payload : List Byte}
    {qos : Byte} {retain : Bool} {packet : Packet}
    (h : publish cfg alloc packetId topic payload qos retain = (.SUCCESS, packet)) : packet.Bounded cfg := by
  rw [publish] at h
  dsimp only at h
  cases halloc : allocate cfg alloc (publishLength cfg packetId topic payload.length qos).1 true with
  | none => simp [halloc] at h
  | some b =>
    simp only [halloc] at h
    apply bounded_ofBuffer h
    rw [Buffer.length_data_put, length_fillPublishHeader]
    exact length_allocate_lt halloc

theorem length_encodeRemainingLength_le (n : ℕ) : (encodeRemainingLength n).length ≤ 5 := by
  have hloop : ∀ fuel n : ℕ, (encodeRemainingLengthLoop fuel n).length ≤ fuel := by
    intro fuel
    induction fuel with
    | zero => exact fun n => le_rfl
    | succ fuel ih =>
      intro n
      rw [encodeRemainingLengthLoop]
      split_ifs
      · exact Nat.succ_le_succ (ih _)
      · exact Nat.succ_le_succ (Nat.zero_le _)
  exact hloop 5 n

theorem length_encodeString_le (s : CString) : (encodeString s).length ≤ 65537 := by
  rw [encodeString]
  split_ifs with hlong
  · exact Nat.zero_le _
  · have hlen : s.bytes.length ≤ 65535 := Nat.not_lt.mp hlong
    simp only [List.length_append, bigEndian, List.length_cons, List.length_nil]
    omega

/-- A header has its limits, whatever the topic. -/
theorem pos_fillPublishHeader_le (n : ℕ) (packetId : UInt16) (topic : CString) (remainingLength : ℕ)
    (qos : Byte) (retain : Bool) :
    (fillPublishHeader (.fill n 0) packetId topic remainingLength qos retain).pos ≤ 65545 := by
  have hlength := length_encodeRemainingLength_le (remainingLength % 2 ^ 32)
  have htopic := length_encodeString_le topic
  have hid : (bigEndian packetId).length = 2 := rfl
  rw [fillPublishHeader, putRemainingLength]
  split_ifs <;> simp only [Buffer.pos_put, Buffer.pos_fill, Buffer.rewind, List.length_singleton] <;> omega

theorem publishChunked_bounded {alloc : Alloc} {packetId : UInt16} {topic : CString}
    {callback : PayloadCallback} {payloadLength : ℕ} {qos : Byte} {retain : Bool} {packet : Packet}
    (h : publishChunked cfg alloc packetId topic callback payloadLength qos retain = (.SUCCESS, packet)) :
    packet.Bounded cfg := by
  have hmod := cfg.le_sizeMod
  rw [publishChunked] at h
  dsimp only at h
  cases halloc : allocate cfg alloc (chunkedLength cfg
    (publishLength cfg packetId topic payloadLength qos).1 payloadLength) true with
  | none => simp [halloc] at h
  | some b =>
    simp only [halloc] at h
    have hpos := pos_fillPublishHeader_le b.data.length packetId topic
      (publishLength cfg packetId topic payloadLength qos).1 qos retain
    have hfill : Buffer.fill b.data.length 0 = b := by
      rw [allocate_eq halloc, Buffer.length_data_fill]
    rw [hfill] at hpos
    obtain rfl := (Prod.mk.inj h).2
    refine ⟨cfg.wrap_lt _, ?_, le_rfl, ?_⟩
    · dsimp only
      omega
    · dsimp only
      omega

theorem subscribe_bounded {alloc : Alloc} {packetId : UInt16} {list : List (CString × Byte)} {packet : Packet}
    (h : subscribe cfg alloc packetId list = (.SUCCESS, packet)) : packet.Bounded cfg := by
  rw [subscribe] at h
  cases halloc : allocate cfg alloc (cfg.wrap (2 + (list.map fun item => 2 + item.1.length + 1).sum)) true with
  | none =>
    rw [halloc] at h
    cases h
  | some b =>
    simp only [halloc] at h
    apply bounded_ofBuffer h
    rw [length_foldl_put _ fun b item => by simp only [Buffer.length_data_put]]
    simp only [putRemainingLength, Buffer.length_data_put]
    exact length_allocate_lt halloc

theorem unsubscribe_bounded {alloc : Alloc} {packetId : UInt16} {list : List CString} {packet : Packet}
    (h : unsubscribe cfg alloc packetId list = (.SUCCESS, packet)) : packet.Bounded cfg := by
  rw [unsubscribe] at h
  cases halloc : allocate cfg alloc (cfg.wrap (2 + (list.map fun topic => 2 + topic.length).sum)) true with
  | none =>
    rw [halloc] at h
    cases h
  | some b =>
    simp only [halloc] at h
    apply bounded_ofBuffer h
    rw [length_foldl_put _ fun b topic => Buffer.length_data_put _ _]
    simp only [putRemainingLength, Buffer.length_data_put]
    exact length_allocate_lt halloc

theorem ack_bounded {alloc : Alloc} {type : MQTTPacketType} {packetId : UInt16} {packet : Packet}
    (h : ack cfg alloc type packetId = (.SUCCESS, packet)) : packet.Bounded cfg := by
  rw [ack] at h
  cases halloc : allocate cfg alloc 2 true with
  | none => simp [halloc] at h
  | some b =>
    simp only [halloc] at h
    apply bounded_ofBuffer h
    simp only [putRemainingLength, Buffer.length_data_put]
    exact length_allocate_lt halloc

theorem control_bounded {alloc : Alloc} {type : MQTTPacketType} {packet : Packet}
    (h : control cfg alloc type = (.SUCCESS, packet)) : packet.Bounded cfg := by
  rw [control] at h
  cases halloc : allocate cfg alloc 0 true with
  | none => simp [halloc] at h
  | some b =>
    simp only [halloc] at h
    apply bounded_ofBuffer h
    rw [Buffer.length_data_put]
    exact length_allocate_lt halloc

end Packet

end EspMqttClient
