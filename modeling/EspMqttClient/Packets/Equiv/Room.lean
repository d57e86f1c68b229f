/-
  The room that the payload callback is given.

  The buffer of a PUBLISH with a payload callback is allocated for the header and for as much of the payload as
  a read buffer holds, while the callback is given as much room as a write buffer holds (`room`), behind a header
  whose length field may be longer than the one that was counted.  `keepsRoom_iff` says when that fits.
-/
import EspMqttClient.Packets.Equiv.Bounds
import EspMqttClient.Packets.Equiv.Chunked

namespace EspMqttClient

namespace Packet

variable {cfg : Config}

/-! ### What the payload callback is given -/

/-- The room that `available(index)` gives the payload callback, if it calls it. -/
def room (cfg : Config) (p : Packet) (index : ℕ) : Option ℕ :=
  if p.size ≤ index ∨ p.getPayload.isNone then none
  else if index < p.payloadIndex then
    if p.payloadIndex < p.size ∧ p.payloadEndIndex ≠ 0 then
      some (min cfg.txBufferSize (p.size - p.payloadStartIndex))
    else none
  else if index > p.payloadEndIndex ∨ p.payloadStartIndex > index then
    some (min cfg.txBufferSize (p.size - index))
  else none

/-- The packet with what the payload callback copies when `available(index)` calls it. -/
def refill (cfg : Config) (call : ℕ) (callback : PayloadCallback) (p : Packet) (index : ℕ) : Packet :=
  match p.room cfg index with
  | none => p
  | some maxSize => p.fillWindow (callback.copy call maxSize index) (max p.payloadIndex index)

theorem refill_of_none {p : Packet} {call index : ℕ} {callback : PayloadCallback}
    (h : p.room cfg index = none) : p.refill cfg call callback index = p := by
  rw [refill, h]

theorem refill_of_some {p : Packet} {call index maxSize : ℕ} {callback : PayloadCallback}
    (h : p.room cfg index = some maxSize) :
    p.refill cfg call callback index =
      p.fillWindow (callback.copy call maxSize index) (max p.payloadIndex index) := by
  rw [refill, h]

/-- `available` calls the payload callback with this room, or it does not call it. -/
theorem available_room {p : Packet} {callback : PayloadCallback} (h : p.getPayload = some callback)
    (call index : ℕ) : p.available cfg call index =
      if p.size ≤ index then (0, p)
      else ((p.refill cfg call callback index).payloadEndIndex + 1 - index,
        p.refill cfg call callback index) := by
  rw [available, refill, room, h]
  rcases Nat.lt_or_ge index p.size with hlt | hle
  · rw [if_neg (by omega), if_neg (by omega), if_neg (by simpa using hlt)]
    dsimp only
    rw [chunkedAvailable]
    dsimp only
    split_ifs with hheader hempty hbeyond
    · rw [max_eq_left hheader.le]
      rfl
    · rfl
    · rw [max_eq_right (Nat.not_lt.mp hheader)]
      rfl
    · rfl
  · rw [if_pos hle, if_pos hle]

/-- Behind the end the payload callback is not called. -/
theorem room_of_size_le {p : Packet} {index : ℕ} (h : p.size ≤ index) : p.room cfg index = none :=
  if_pos (.inl h)

theorem available_snd {p : Packet} {callback : PayloadCallback} (h : p.getPayload = some callback)
    (call index : ℕ) : (p.available cfg call index).2 = p.refill cfg call callback index := by
  rw [available_room h]
  split_ifs with hle
  · exact (refill_of_none (room_of_size_le hle)).symm
  · rfl

/-- The payload callback is given at most a write buffer and at most what is left of the payload. -/
theorem room_le {p : Packet} {index maxSize : ℕ} (hstart : p.payloadIndex ≤ p.payloadStartIndex)
    (h : p.room cfg index = some maxSize) :
    maxSize ≤ min cfg.txBufferSize (p.size - max p.payloadIndex index) := by
  rw [room] at h
  split_ifs at h with _ hheader _ _
  · obtain rfl := Option.some.inj h
    omega
  · obtain rfl := Option.some.inj h
    omega

/-! ### While the packet is read -/

theorem Reads.payloadIndex {p q : Packet} (h : Reads cfg p q) : q.payloadIndex = p.payloadIndex := by
  induction h with
  | refl => rfl
  | available call index _ ih => exact (available_alike call _ index).payloadIndex.trans ih
  | setDup _ ih =>
    rcases setDup_eq _ with hdup | hdup <;> rw [hdup]
    · exact ih
    · exact ih

theorem Reads.length {p q : Packet} (h : Reads cfg p q) : q.data.length = p.data.length := by
  induction h with
  | refl => rfl
  | available call index _ ih => exact (available_alike call _ index).length.trans ih
  | setDup _ ih =>
    rcases setDup_eq _ with hdup | hdup <;> rw [hdup]
    · exact ih
    · exact List.length_modifyHead.trans ih

/-- The window never starts in the header. -/
theorem Reads.le_start {p q : Packet} {callback : PayloadCallback} (h : Reads cfg p q)
    (hcallback : p.getPayload = some callback) (hstart : p.payloadIndex ≤ p.payloadStartIndex) :
    q.payloadIndex ≤ q.payloadStartIndex := by
  induction h with
  | refl => exact hstart
  | available call index h ih =>
    rw [available_snd (h.getPayload.trans hcallback), refill]
    split
    · exact ih
    · exact Nat.le_max_left _ _
  | setDup _ ih =>
    rcases setDup_eq _ with hdup | hdup <;> rw [hdup]
    · exact ih
    · exact ih

/-! ### The packet that is built -/

/-- The header and the room that the callback is given are in the buffer, however the packet is read. -/
def KeepsRoom (cfg : Config) (packetId : UInt16) (topic : CString) (qos : Byte) (retain : Bool)
    (payloadLength : ℕ) : Prop :=
  ∀ (callback : PayloadCallback) (alloc : Alloc) (packet : Packet),
    publishChunked cfg alloc packetId topic callback payloadLength qos retain = (.SUCCESS, packet) →
    packet.payloadIndex ≤ packet.data.length ∧
    ∀ (q : Packet) (index maxSize : ℕ), Reads cfg packet q → q.room cfg index = some maxSize →
      q.payloadIndex + maxSize ≤ q.data.length

section

variable {alloc : Alloc} {packetId : UInt16} {topic : CString} {qos : Byte} {retain : Bool}
  {payloadLength : ℕ}

/-- `_fillPublishHeader` returns the length of the header, whether it fits or not. -/
theorem pos_fillPublishHeader (packetId : UInt16) (retain : Bool) {b : Buffer Byte} (hb : b.pos = 0)
    (hqos : qos ≤ 2) (htopic : topic.length ≤ 65535)
    (hmax : publishRemainingLength topic payloadLength qos ≤ 268435455) :
    (fillPublishHeader b packetId topic (publishRemainingLength topic payloadLength qos) qos retain).pos =
      (publishHeaderBytes packetId topic payloadLength qos retain).length := by
  rw [fillPublishHeader, put_publishByte _ hqos, putRemainingLength_eq _ hmax, encodeString_of_le htopic]
  simp only [publishHeaderBytes, List.length_cons, List.length_append, length_idBytes]
  rcases eq_or_ne qos 0 with rfl | hne
  · rw [if_neg (by decide), if_pos rfl]
    simp only [Buffer.pos_put, hb, List.length_singleton]
    omega
  · rw [if_pos (UInt8.pos_iff_ne_zero.mpr hne), if_neg hne]
    simp only [Buffer.pos_put, hb, bigEndian, List.length_cons, List.length_nil]
    omega

/-- The sizes of a PUBLISH with a payload callback. -/
theorem publishChunked_sizes {callback : PayloadCallback} {packet : Packet} (hqos : qos ≤ 2)
    (htopic : topic.length ≤ 65535) (hmax : publishRemainingLength topic payloadLength qos ≤ 268435455)
    (h : publishChunked cfg alloc packetId topic callback payloadLength qos retain = (.SUCCESS, packet)) :
    packet.getPayload = some callback ∧
      packet.data.length = chunkedBufferLength cfg topic payloadLength qos ∧
      packet.size = packet.payloadIndex + payloadLength ∧
      packet.payloadIndex = (publishHeaderBytes packetId topic payloadLength qos retain).length ∧
      packet.payloadStartIndex = packet.payloadIndex ∧ packet.payloadEndIndex = packet.payloadIndex := by
  have hsize := cfg.le_sizeMod
  have hheader := length_publishHeaderBytes packetId topic payloadLength qos retain
  have henc := (length_lengthField (lengthField_encode hmax)).2
  have hle : payloadLength ≤ publishRemainingLength topic payloadLength qos := by
    rw [publishRemainingLength]
    omega
  have hreduced : chunkedLength cfg (publishRemainingLength topic payloadLength qos) payloadLength ≤
      268435455 := by
    rw [chunkedLength, cfg.sub_of_le (by omega) hle, cfg.wrap_of_lt (by omega)]
    omega
  rw [publishChunked, publishLength_eq hmax] at h
  dsimp only at h
  cases halloc : allocate cfg alloc
    (chunkedLength cfg (publishRemainingLength topic payloadLength qos) payloadLength) true with
  | none => simp [halloc] at h
  | some b =>
    have hlength := (allocate_spec halloc hreduced).length
    have hpos := pos_fillPublishHeader packetId retain (allocate_spec halloc hreduced).pos hqos htopic hmax
    simp only [halloc, Prod.mk.injEq, true_and] at h
    obtain rfl := h
    refine ⟨rfl, ?_, ?_, hpos, rfl, rfl⟩
    · exact (length_fillPublishHeader _ _ _ _ _ _).trans hlength
    · show cfg.wrap _ = _
      rw [hpos, cfg.wrap_of_lt (by omega)]

/-- **The payload callback is never given more room than was allocated** exactly when the header and a write
buffer full of payload fit in what was allocated for the header and a read buffer full of payload. -/
theorem keepsRoom_iff (cfg : Config) {packetId : UInt16} (topic : CString) {qos : Byte} (retain : Bool)
    (payloadLength : ℕ) (hqos : qos ≤ 2) (htopic : topic.length ≤ 65535)
    (hmax : publishRemainingLength topic payloadLength qos ≤ 268435455) :
    KeepsRoom cfg packetId topic qos retain payloadLength ↔
      (publishHeaderBytes packetId topic payloadLength qos retain).length +
        min cfg.txBufferSize payloadLength ≤ chunkedBufferLength cfg topic payloadLength qos := by
  constructor
  · intro h
    obtain ⟨packet, hpacket⟩ := exists_publishChunked cfg packetId topic (.oneByte []) payloadLength qos retain
    obtain ⟨hcallback, hlength, hsize, hheader, hstart, hend⟩ :=
      publishChunked_sizes hqos htopic hmax hpacket
    obtain ⟨hfits, hroom⟩ := h _ _ packet hpacket
    have htwo := two_lt_publishHeaderBytes packetId topic payloadLength qos retain
    rw [hlength, hheader] at hfits
    rcases Nat.eq_zero_or_pos payloadLength with rfl | hpos
    · rwa [Nat.min_zero]
    · -- the first call asks for the beginning of the payload
      have hfirst : packet.room cfg 0 = some (min cfg.txBufferSize payloadLength) := by
        rw [room, if_neg (by rw [hcallback]; simp; omega), if_pos (by omega), if_pos (by omega), hstart, hsize,
          Nat.add_sub_cancel_left]
      have hwithin := hroom packet 0 _ .refl hfirst
      rwa [hlength, hheader] at hwithin
  · intro hroom callback alloc packet hpacket
    obtain ⟨hcallback, hlength, hsize, hheader, hstart, -⟩ := publishChunked_sizes hqos htopic hmax hpacket
    refine ⟨by omega, fun q index maxSize hreads hmaxSize => ?_⟩
    have hle := room_le (hreads.le_start hcallback hstart.ge) hmaxSize
    rw [hreads.size, hreads.payloadIndex, hsize] at hle
    rw [hreads.payloadIndex, hreads.length]
    omega

end

/-- With a payload that fits in both buffers there is room. -/
theorem keepsRoom_iff_small :
    KeepsRoom .linux 1 ⟨[0x74], by decide⟩ 1 false 8 ↔
      (publishHeaderBytes 1 ⟨[0x74], by decide⟩ 8 1 false).length + min Config.linux.txBufferSize 8 ≤
        chunkedBufferLength .linux ⟨[0x74], by decide⟩ 8 1 := by
  apply keepsRoom_iff <;> decide +kernel

/-- With the default buffers the length field of a payload of 20000 bytes takes a byte from the payload. -/
theorem not_keepsRoom_long :
    ¬ KeepsRoom .linux 1 ⟨[0x74], by decide⟩ 0 false 20000 := by
  intro h
  obtain ⟨packet, hpacket⟩ := exists_publishChunked .linux 1 ⟨[0x74], by decide⟩ (.oneByte []) 20000 0 false
  obtain ⟨hcallback, hlength, hsize, hheader, hstart, hend⟩ :=
    publishChunked_sizes (by decide) (by decide) (by decide) hpacket
  have hseven : (publishHeaderBytes 1 ⟨[0x74], by decide⟩ 20000 0 false).length = 7 := by decide +kernel
  have hbuffer : chunkedBufferLength .linux ⟨[0x74], by decide⟩ 20000 0 = 1446 := by decide +kernel
  have hfirst : packet.room .linux 0 = some 1440 := by
    rw [room, if_neg (by rw [hcallback]; simp; omega), if_pos (by omega), if_pos (by omega), hstart, hsize,
      Nat.add_sub_cancel_left]
    rfl
  have hwithin := (h _ _ packet hpacket).2 packet 0 _ .refl hfirst
  omega

end Packet

end EspMqttClient
