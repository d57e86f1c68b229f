/-
  What a PUBLISH with a payload callback offers to the transport.

  Each time `available(index)` is called, `data(index)` has to have that many bytes to show, and
  they have to be bytes of the header or bytes that the callback copied for that position
  (`Offer.Honest`).  `Carries.serves` carries that through one call, and `offersWithin_of_room` through a whole
  transmission of a packet that has a payload and room in its buffer; no other packet keeps to it with every
  callback (`room_of_offersWithin`).
-/
import EspMqttClient.Packets.Equiv.Room

namespace EspMqttClient

/-- A payload callback that has something to copy whenever it is given room. -/
def PayloadCallback.Delivers (callback : PayloadCallback) : Prop :=
  ∀ call maxSize index : ℕ, 0 < maxSize → callback.copy call maxSize index ≠ []

/-- A payload callback that has nothing to copy any more, from some call on. -/
def PayloadCallback.RunsDry (callback : PayloadCallback) : Prop :=
  ∃ last : ℕ, ∀ call ≥ last, ∀ maxSize index : ℕ, callback.copy call maxSize index = []

/-- A payload callback that fills the room that it is given. -/
def PayloadCallback.filling : PayloadCallback where
  copy _ maxSize _ := List.replicate maxSize 0
  length_le _ maxSize _ := (List.length_replicate (n := maxSize)).le

theorem PayloadCallback.filling_delivers : PayloadCallback.filling.Delivers := by
  intro call maxSize index hpos hnil
  have hlength := congrArg List.length hnil
  rw [PayloadCallback.filling, List.length_replicate, List.length_nil] at hlength
  omega

namespace Packet

variable {cfg : Config}

/-- What the payload callback copied last, and the position that it is for. -/
structure Delivery where
  start : ℕ
  bytes : List Byte

/-- What the transport is offered: from this position on as many bytes as are available, and the bytes. -/
structure Offer where
  index : ℕ
  available : ℕ
  bytes : List Byte
  delivery : Delivery

/-- The last delivery once `available(index)` was called. -/
def delivered (cfg : Config) (call : ℕ) (callback : PayloadCallback) (p : Packet) (last : Delivery)
    (index : ℕ) : Delivery :=
  match p.room cfg index with
  | none => last
  | some maxSize => ⟨max p.payloadIndex index, callback.copy call maxSize index⟩

/-- The offers of a transmission (`transmit`). -/
def offers (cfg : Config) (callback : PayloadCallback) :
    (call : ℕ) → Packet → (last : Delivery) → (index : ℕ) → (writes : List ℕ) → List Offer
  | _, _, _, _, [] => []
  | call, p, last, index, write :: writes =>
    let delivery := p.delivered cfg call callback last index
    let (available, p) := p.available cfg call index
    ⟨index, available, (p.dataAt index).take available, delivery⟩ ::
      offers cfg callback (call + 1) p delivery (index + min write available) writes

/-- No byte behind the end is offered, each byte is one of the header or one that was delivered for its
position, and nothing is offered only when nothing was delivered for the position or it is the end. -/
structure Offer.Honest (header : List Byte) (size : ℕ) (offer : Offer) : Prop where
  within : offer.available ≤ size - offer.index
  length : offer.bytes.length = offer.available
  bytes : ∀ k < offer.available,
    (offer.index + k < header.length ∧ offer.bytes[k]? = header[offer.index + k]?) ∨
    (header.length ≤ offer.index + k ∧ offer.delivery.start ≤ offer.index + k ∧
      offer.bytes[k]? = offer.delivery.bytes[offer.index + k - offer.delivery.start]?)
  waits : offer.available = 0 → offer.index < size → offer.delivery = ⟨offer.index, []⟩

/-- However the packet was read before, when it is sent every offer is honest, and its end is not passed. -/
def OffersWithin (cfg : Config) (packetId : UInt16) (topic : CString) (qos : Byte) (retain : Bool)
    (payloadLength : ℕ) (callback : PayloadCallback) : Prop :=
  ∀ (alloc : Alloc) (packet : Packet),
    publishChunked cfg alloc packetId topic callback payloadLength qos retain = (.SUCCESS, packet) →
    ∀ (p : Packet) (call : ℕ) (last : Delivery) (writes : List ℕ), Reads cfg packet p →
      (∀ offer ∈ p.offers cfg callback call last 0 writes,
        offer.Honest (p.data.take p.payloadIndex) p.size) ∧
      (p.transmit cfg call 0 writes).index ≤ p.size

/-! ### One call -/

section

variable {header : List Byte} {payloadLength : ℕ} {callback : PayloadCallback} {p : Packet}

/-- Behind the header the window is the last delivery, it reaches at least up to the position, and it ends
before the packet does. -/
structure Follows (header : List Byte) (last : Delivery) (index : ℕ) (p : Packet) : Prop where
  le_size : index ≤ p.size
  shows : header.length ≤ index → p.Shows header last.bytes last.start
  start_le : header.length ≤ index → last.start ≤ index
  le_stop : header.length ≤ index → index ≤ last.start + last.bytes.length
  stop_le : header.length ≤ index → last.start + last.bytes.length ≤ p.size

/-- A window that the position is in, or in front of with the header between, is offered honestly. -/
theorem Carries.honest (h : p.Carries cfg header payloadLength callback) {index start : ℕ} {copied : List Byte}
    (hshows : p.Shows header copied start)
    (hstart : index < header.length ∧ start = header.length ∨ header.length ≤ index ∧ start ≤ index)
    (hstop : start + copied.length ≤ p.size)
    (hindex : index < start + copied.length ∨ start = index ∧ copied = []) :
    Offer.Honest header p.size ⟨index, start + copied.length - index,
      (p.dataAt index).take (start + copied.length - index), ⟨start, copied⟩⟩ := by
  have hbytes : (p.dataAt index).take (start + copied.length - index) =
      if index < header.length then (header ++ copied).drop index else copied.drop (index - start) := by
    split_ifs with hlt
    · obtain rfl : start = header.length := by omega
      rw [h.dataAt_header hshows hlt le_rfl, List.take_of_length_le (by simp)]
    · have hle : (copied.drop (index - start)).length ≤ start + copied.length - index := by
        rw [List.length_drop]
        omega
      rw [h.dataAt_window hshows (by omega) le_rfl, List.take_of_length_le hle]
  constructor
  · dsimp only
    omega
  · dsimp only
    rw [hbytes]
    split_ifs <;> simp only [List.length_drop, List.length_append] <;> omega
  · intro k hk
    dsimp only at hk ⊢
    rw [hbytes]
    rcases Nat.lt_or_ge index header.length with hlt | hge
    · obtain rfl : start = header.length := by omega
      rw [if_pos hlt, List.getElem?_drop]
      rcases Nat.lt_or_ge (index + k) header.length with hheader | hbehind
      · exact .inl ⟨hheader, List.getElem?_append_left hheader⟩
      · exact .inr ⟨hbehind, hbehind, List.getElem?_append_right hbehind⟩
    · rw [if_neg (by omega), List.getElem?_drop]
      refine .inr ⟨by omega, by omega, ?_⟩
      congr 1
      omega
  · intro hnone hlt
    dsimp only at hnone hlt ⊢
    rcases hindex with hindex | ⟨rfl, rfl⟩
    · omega
    · rfl

/-- What one call of `available` comes to. -/
structure Serves (cfg : Config) (header : List Byte) (payloadLength : ℕ) (callback : PayloadCallback)
    (call index : ℕ) (last : Delivery) (p : Packet) : Prop where
  carries : (p.available cfg call index).2.Carries cfg header payloadLength callback
  honest : Offer.Honest header p.size ⟨index, (p.available cfg call index).1,
    ((p.available cfg call index).2.dataAt index).take (p.available cfg call index).1,
    p.delivered cfg call callback last index⟩
  follows : ∀ n ≤ (p.available cfg call index).1,
    (p.available cfg call index).2.Follows header (p.delivered cfg call callback last index) (index + n)
  advances : callback.Delivers → index < p.size → 0 < (p.available cfg call index).1

/-- The callback is called: the window begins where the payload is read, or where it begins. -/
theorem Carries.serves_refilled (h : p.Carries cfg header payloadLength callback) (hheader : 1 < header.length)
    {call index maxSize : ℕ} (last : Delivery) (hlt : index < p.size) (hpayload : 0 < payloadLength)
    (hroom : p.room cfg index = some maxSize) (hmax : 0 < maxSize) :
    p.Serves cfg header payloadLength callback call index last := by
  have hpayloadIndex := h.payloadIndex
  have hsize := h.size
  have hle := room_le (h.payloadIndex.trans_le h.le_start) hroom
  have hcopied := callback.length_le call maxSize index
  have hdelivered : p.delivered cfg call callback last index =
      ⟨max header.length index, callback.copy call maxSize index⟩ := by
    rw [delivered, hroom, hpayloadIndex]
  set copied := callback.copy call maxSize index with hcopied_def
  have hcarries := h.fillWindow hheader copied (Nat.le_max_left header.length index) (by omega)
  have hshows := h.shows hheader copied (Nat.le_max_left header.length index) (by omega)
  have hstops := hshows.stops
  have havailable : p.available cfg call index = (max header.length index + copied.length - index,
      p.fillWindow copied (max header.length index)) := by
    rw [available_room h.getPayload, if_neg (by omega), refill_of_some hroom, hpayloadIndex, ← hcopied_def,
      hstops]
  refine ⟨?_, ?_, fun n hn => ?_, fun hdelivers _ => ?_⟩
  · rwa [havailable]
  · rw [havailable, hdelivered]
    refine hcarries.honest hshows (by omega) ?_ ?_
    · show max header.length index + copied.length ≤ p.size
      omega
    · rcases Nat.eq_zero_or_pos copied.length with hnil | hpos
      · rcases Nat.lt_or_ge index header.length with hindex | hindex
        · left
          omega
        · exact .inr ⟨max_eq_right hindex, List.length_eq_zero_iff.mp hnil⟩
      · left
        omega
  · rw [havailable] at hn ⊢
    rw [hdelivered]
    refine ⟨?_, fun _ => hshows, fun hindex => ?_, fun _ => ?_, fun _ => ?_⟩
    · show index + n ≤ p.size
      dsimp only at hn
      omega
    · dsimp only at hn ⊢
      omega
    · dsimp only at hn ⊢
      omega
    · show max header.length index + copied.length ≤ p.size
      omega
  · have hne := List.length_pos_iff.mpr (hdelivers call maxSize index hmax)
    rw [← hcopied_def] at hne
    rw [havailable]
    dsimp only
    omega

/-- **One call** of `available`. -/
theorem Carries.serves (h : p.Carries cfg header payloadLength callback) (hheader : 1 < header.length)
    (hpayload : 0 < payloadLength) {index : ℕ} {last : Delivery} (hfollows : p.Follows header last index)
    (call : ℕ) : p.Serves cfg header payloadLength callback call index last := by
  obtain ⟨hle, hshows, hstart, hstop, hend⟩ := hfollows
  have hpayloadIndex := h.payloadIndex
  have hsize := h.size
  have hbuffer := cfg.txBufferSize_pos
  have hmax := h.maxSize_pos
  have hsome : p.getPayload.isNone = false := by rw [h.getPayload]; rfl
  rcases Nat.lt_or_ge index p.size with hlt | hge
  · rcases Nat.lt_or_ge index header.length with hindex | hindex
    · refine h.serves_refilled hheader last hlt hpayload ?_ hmax
      rw [Packet.room, if_neg (by rw [hsome]; simp; omega), if_pos (by omega), if_pos ⟨by omega, h.end_ne⟩]
    by_cases hbeyond : index > p.payloadEndIndex ∨ p.payloadStartIndex > index
    · have hleft : 0 < min cfg.txBufferSize (p.size - index) := by omega
      refine h.serves_refilled hheader last hlt hpayload ?_ hleft
      rw [Packet.room, if_neg (by rw [hsome]; simp; omega), if_neg (by omega), if_pos hbeyond]
    · -- the window has what is asked for
      have hstops := (hshows hindex).stops
      have hroom : p.room cfg index = none := by
        rw [Packet.room, if_neg (by rw [hsome]; simp; omega), if_neg (by omega), if_neg hbeyond]
      have hdelivered : p.delivered cfg call callback last index = last := by
        rw [delivered, hroom]
      have havailable : p.available cfg call index = (last.start + last.bytes.length - index, p) := by
        rw [available_room h.getPayload, if_neg (by omega), refill_of_none hroom, hstops]
      have hinside : index < last.start + last.bytes.length := by omega
      refine ⟨?_, ?_, fun n hn => ?_, fun _ _ => ?_⟩
      · rwa [havailable]
      · rw [havailable, hdelivered]
        exact h.honest (hshows hindex) (.inr ⟨hindex, hstart hindex⟩) (hend hindex) (.inl hinside)
      · rw [havailable] at hn ⊢
        rw [hdelivered]
        have hstop' := hend hindex
        have hstart' := hstart hindex
        dsimp only at hn
        refine ⟨?_, fun _ => hshows hindex, fun _ => ?_, fun _ => ?_, fun _ => hstop'⟩
        · dsimp only
          omega
        · omega
        · omega
      · rw [havailable]
        dsimp only
        omega
  · -- the end is reached
    have hroom := @room_of_size_le cfg p index hge
    have hdelivered : p.delivered cfg call callback last index = last := by
      rw [delivered, hroom]
    have havailable : p.available cfg call index = (0, p) := by
      rw [available, if_pos hge]
    refine ⟨?_, ?_, fun n hn => ?_, fun _ hlt => absurd hlt (Nat.not_lt.mpr hge)⟩
    · rwa [havailable]
    · rw [havailable]
      exact ⟨Nat.zero_le _, by simp, fun i hlt => absurd hlt (Nat.not_lt_zero i),
        fun _ hlt => absurd hlt (Nat.not_lt.mpr hge)⟩
    · rw [havailable] at hn ⊢
      obtain rfl := Nat.le_zero.mp hn
      rw [hdelivered]
      exact ⟨hle, hshows, hstart, hstop, hend⟩

/-! ### A transmission -/

/-- Where one call leaves off the next one follows. -/
theorem Serves.follows_write {last : Delivery} {call index : ℕ}
    (h : p.Serves cfg header payloadLength callback call index last) (write : ℕ) :
    (p.available cfg call index).2.Follows header (p.delivered cfg call callback last index)
      (index + min write (p.available cfg call index).1) :=
  h.follows _ (Nat.min_le_right _ _)

/-- **A transmission**: every offer is honest, and the end is not passed. -/
theorem Carries.offers (writes : List ℕ) (h : p.Carries cfg header payloadLength callback)
    (hheader : 1 < header.length) (hpayload : 0 < payloadLength) {last : Delivery} {index : ℕ}
    (hfollows : p.Follows header last index) (call : ℕ) :
    (∀ offer ∈ p.offers cfg callback call last index writes, offer.Honest header p.size) ∧
      (p.transmit cfg call index writes).index ≤ p.size := by
  induction writes generalizing call p last index with
  | nil => exact ⟨nofun, hfollows.le_size⟩
  | cons write writes ih =>
    have hserves := h.serves hheader hpayload hfollows call
    have hsize : (p.available cfg call index).2.size = p.size := (available_alike call p index).size
    obtain ⟨hoffers, hle⟩ := ih hserves.carries (hserves.follows_write write) (call + 1)
    rw [hsize] at hoffers hle
    rw [transmit_cons write writes rfl]
    refine ⟨?_, hle⟩
    rw [Packet.offers, List.forall_mem_cons]
    exact ⟨hserves.honest, hoffers⟩

/-- At the beginning there is nothing to follow. -/
theorem Carries.follows_zero (hheader : 1 < header.length) (last : Delivery) :
    p.Follows header last 0 := by
  refine ⟨Nat.zero_le _, fun h => ?_, fun h => ?_, fun h => ?_, fun h => ?_⟩ <;> omega

/-- Reading and marking a packet keep what it carries, but for the DUP flag in the header. -/
theorem Carries.reads {q : Packet} (h : p.Carries cfg header payloadLength callback)
    (hheader : 1 < header.length) (hpayload : 0 < payloadLength) (hreads : Reads cfg p q) :
    q.Carries cfg (q.data.take q.payloadIndex) payloadLength callback ∧
      (q.data.take q.payloadIndex).length = header.length := by
  have hcarries : ∃ header' : List Byte, q.Carries cfg header' payloadLength callback ∧
      header'.length = header.length := by
    induction hreads with
    | refl => exact ⟨header, h, rfl⟩
    | available call index _ ih =>
      obtain ⟨header', hcarries, hlength⟩ := ih
      exact ⟨header', hcarries.transmit [0] (by omega) hpayload call index, hlength⟩
    | setDup _ ih =>
      obtain ⟨header', hcarries, hlength⟩ := ih
      rcases setDup_eq _ with hdup | hdup <;> rw [hdup]
      · exact ⟨header', hcarries, hlength⟩
      · exact ⟨_, hcarries.modifyHead _, List.length_modifyHead.trans hlength⟩
  obtain ⟨header', hcarries, hlength⟩ := hcarries
  have htake := hcarries.begins
  rw [← hcarries.payloadIndex] at htake
  rw [htake]
  exact ⟨hcarries, hlength⟩

end

/-! ### The packet that is built -/

section

variable {packetId : UInt16} {topic : CString} {qos : Byte} {retain : Bool} {payloadLength : ℕ}

/-- The first offer. -/
theorem honest_first {callback : PayloadCallback} {p : Packet} {header : List Byte}
    {call index size write : ℕ} {last : Delivery} {writes : List ℕ}
    (h : ∀ offer ∈ p.offers cfg callback call last index (write :: writes), offer.Honest header size) :
    Offer.Honest header size ⟨index, (p.available cfg call index).1,
      ((p.available cfg call index).2.dataAt index).take (p.available cfg call index).1,
      p.delivered cfg call callback last index⟩ :=
  h _ List.mem_cons_self

/-- Without payload a byte behind the end is offered. -/
theorem available_empty {alloc : Alloc} {callback : PayloadCallback} {packet : Packet} (hqos : qos ≤ 2)
    (htopic : topic.length ≤ 65535) (hmax : publishRemainingLength topic 0 qos ≤ 268435455)
    (h : publishChunked cfg alloc packetId topic callback 0 qos retain = (.SUCCESS, packet)) (call : ℕ) :
    (packet.available cfg call 0).1 = packet.size + 1 := by
  obtain ⟨hcallback, -, hsize, hheader, -, hend⟩ := publishChunked_sizes hqos htopic hmax h
  have htwo := two_lt_publishHeaderBytes packetId topic 0 qos retain
  have hroom : packet.room cfg 0 = none := by
    rw [room, if_neg (by rw [hcallback]; simp; omega), if_pos (by omega), if_neg (by omega)]
  rw [available_room hcallback, if_neg (by omega), refill_of_none hroom]
  dsimp only
  omega

theorem not_offersWithin_of_empty (hqos : qos ≤ 2) (htopic : topic.length ≤ 65535)
    (hmax : publishRemainingLength topic 0 qos ≤ 268435455) (callback : PayloadCallback) :
    ¬ OffersWithin cfg packetId topic qos retain 0 callback := by
  intro h
  obtain ⟨packet, hpacket⟩ := exists_publishChunked cfg packetId topic callback 0 qos retain
  obtain ⟨hhonest, -⟩ := h _ packet hpacket packet 0 ⟨0, []⟩ [0] .refl
  have hwithin : (packet.available cfg 0 0).1 ≤ packet.size - 0 := (honest_first hhonest).within
  have havailable := available_empty hqos htopic hmax hpacket 0
  omega

/-- Without room a callback that fills it is offered beyond the buffer. -/
theorem room_of_offersWithin (hqos : qos ≤ 2) (htopic : topic.length ≤ 65535)
    (hmax : publishRemainingLength topic payloadLength qos ≤ 268435455)
    (h : OffersWithin cfg packetId topic qos retain payloadLength .filling) :
    0 < payloadLength ∧ (publishHeaderBytes packetId topic payloadLength qos retain).length +
      min cfg.txBufferSize payloadLength ≤ chunkedBufferLength cfg topic payloadLength qos := by
  have htwo := two_lt_publishHeaderBytes packetId topic payloadLength qos retain
  rcases Nat.eq_zero_or_pos payloadLength with rfl | hpayload
  · exact absurd h (not_offersWithin_of_empty hqos htopic hmax _)
  refine ⟨hpayload, ?_⟩
  obtain ⟨packet, hpacket⟩ := exists_publishChunked cfg packetId topic .filling payloadLength qos retain
  obtain ⟨hcallback, hlength, hsize, hheader, hstart, hend⟩ := publishChunked_sizes hqos htopic hmax hpacket
  obtain ⟨hhonest, -⟩ := h _ packet hpacket packet 0 ⟨0, []⟩ [0] .refl
  have hoffered : (((packet.available cfg 0 0).2.dataAt 0).take (packet.available cfg 0 0).1).length =
      (packet.available cfg 0 0).1 := (honest_first hhonest).length
  have hroom : packet.room cfg 0 = some (min cfg.txBufferSize payloadLength) := by
    rw [room, if_neg (by rw [hcallback]; simp; omega), if_pos (by omega), if_pos (by omega), hstart, hsize,
      Nat.add_sub_cancel_left]
  have hdata := (@available_alike cfg 0 packet 0).length
  have havailable : (packet.available cfg 0 0).1 =
      packet.payloadIndex + min cfg.txBufferSize payloadLength := by
    rw [available_room hcallback, if_neg (by omega), refill_of_some hroom]
    simp only [fillWindow, PayloadCallback.filling, List.length_replicate]
    omega
  have hle : ((packet.available cfg 0 0).2.dataAt 0).length ≤ packet.data.length := by
    rw [← hdata, dataAt, (available_alike 0 packet 0).getPayload, hcallback]
    dsimp only
    split_ifs <;> rw [List.length_drop] <;> exact Nat.sub_le _ _
  rw [List.length_take, havailable] at hoffered
  omega

/-- **A PUBLISH with a payload callback never offers bytes beyond its end**, nor bytes that are not its own, if
it has a payload and its buffer has room for what the callback may copy. -/
theorem offersWithin_of_room (hqos : qos ≤ 2) (htopic : topic.length ≤ 65535)
    (hmax : publishRemainingLength topic payloadLength qos ≤ 268435455) (hpayload : 0 < payloadLength)
    (hroom : (publishHeaderBytes packetId topic payloadLength qos retain).length +
      min cfg.txBufferSize payloadLength ≤ chunkedBufferLength cfg topic payloadLength qos)
    (callback : PayloadCallback) : OffersWithin cfg packetId topic qos retain payloadLength callback := by
  intro alloc packet hpacket p call last writes hreads
  have htwo := two_lt_publishHeaderBytes packetId topic payloadLength qos retain
  obtain ⟨hcarries, -⟩ := publishChunked_spec hqos htopic hmax hpayload hroom hpacket
  obtain ⟨hread, hlength⟩ := hcarries.reads (by omega) hpayload hreads
  exact hread.offers writes (by omega) hpayload (Carries.follows_zero (by omega) last) call

end

end Packet

end EspMqttClient
