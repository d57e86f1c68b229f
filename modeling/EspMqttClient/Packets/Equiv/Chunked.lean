/-
  A PUBLISH with a payload callback against one with its payload.

  `transmit` reads a packet the way `_sendPacket` does, some bytes at a time.  The payload callback is asked
  for the bytes from `index` on, and `index` is a position of the packet: 0, or a place in the header, when
  the header is being read, and a place behind the header when more of the payload is.  It is the position
  in the payload only when the reading is at 0.  `publishChunked_iff` says for which writes that is enough.
-/
import EspMqttClient.Packets.Equiv.Window

namespace EspMqttClient

/-- A payload callback that copies from `payload`, from the position that it is asked for. -/
def PayloadCallback.CopiesFrom (callback : PayloadCallback) (payload : List Byte) : Prop :=
  ∀ call maxSize index : ℕ, 0 < maxSize → index < payload.length →
    ∃ n, 0 < n ∧ callback.copy call maxSize index = (payload.drop index).take n

/-- A payload callback that copies a byte at a time. -/
def PayloadCallback.oneByte (payload : List Byte) : PayloadCallback where
  copy _ maxSize index := if maxSize = 0 then [] else [payload.getD index 0]
  length_le _ maxSize _ := by
    split_ifs
    · exact Nat.zero_le _
    · exact Nat.one_le_iff_ne_zero.mpr ‹_›

theorem PayloadCallback.oneByte_copiesFrom (payload : List Byte) :
    (oneByte payload).CopiesFrom payload := by
  intro call maxSize index hmax hindex
  refine ⟨1, Nat.one_pos, ?_⟩
  rw [oneByte]
  dsimp only
  rw [if_neg (by omega), List.drop_eq_getElem_cons hindex, List.getD_eq_getElem?_getD,
    List.getElem?_eq_getElem hindex]
  rfl

namespace Packet

variable {cfg : Config}

/-! ### Reading a packet -/

/-- What a transmission comes to: the bytes that were read, the position reached and the packet. -/
structure Transmission where
  bytes : List Byte
  index : ℕ
  packet : Packet

/-- Read a packet from `index` on: each time ask what is available, and take as much of it as the
transport does. -/
def transmit (cfg : Config) : (call : ℕ) → Packet → (index : ℕ) → (writes : List ℕ) → Transmission
  | _, p, index, [] => ⟨[], index, p⟩
  | call, p, index, write :: writes =>
    let (available, p) := p.available cfg call index
    let n := min write available
    let rest := transmit cfg (call + 1) p (index + n) writes
    { rest with bytes := (p.dataAt index).take n ++ rest.bytes }

/-- The bytes that were read are those of `buffered`, and at the end they are all of them. -/
def Transmission.Matches (sent : Transmission) (buffered : Packet) : Prop :=
  sent.bytes = buffered.data.take sent.index ∧ sent.packet.size = buffered.size

/-- What a PUBLISH with a payload callback is read as is what a PUBLISH with that payload is read as, when it
is sent first and when it is sent again. -/
def PublishesAlike (cfg : Config) (packetId : UInt16) (topic : CString) (qos : Byte) (retain : Bool)
    (payloadLength : ℕ) (writes : List ℕ) : Prop :=
  ∀ (payload : List Byte) (callback : PayloadCallback),
    payload.length = payloadLength → callback.CopiesFrom payload →
    ∀ (alloc alloc' : Alloc) (buffered chunked : Packet),
      publish cfg alloc packetId topic payload qos retain = (.SUCCESS, buffered) →
      publishChunked cfg alloc' packetId topic callback payloadLength qos retain = (.SUCCESS, chunked) →
      (∀ call, (chunked.transmit cfg call 0 writes).Matches buffered) ∧
      ∀ call earlier call',
        ((chunked.transmit cfg call 0 earlier).packet.setDup.transmit cfg call' 0 writes).Matches
          buffered.setDup

/-- The header goes out with one write and so does the payload, alone or with the header; or no byte of the
payload is asked for. -/
def Unsplit (headerLength payloadLength : ℕ) (writes : List ℕ) : Prop :=
  writes.sum ≤ headerLength ∨
  match writes.filter (0 < ·) with
  | [] => True
  | first :: rest =>
    headerLength ≤ first ∧
      (payloadLength = 1 ∨ rest = [] ∨ first = headerLength ∧ rest.length = 1)

/-- The size of the buffer of a PUBLISH with a payload callback. -/
def chunkedBufferLength (cfg : Config) (topic : CString) (payloadLength : ℕ) (qos : Byte) : ℕ :=
  let remainingLength :=
    chunkedLength cfg (publishRemainingLength topic payloadLength qos) payloadLength
  1 + (encodeRemainingLength remainingLength).length + remainingLength

/-! ### The packet while it is read -/

/-- A packet with this header, this many bytes of payload and this callback. -/
structure Carries (cfg : Config) (header : List Byte) (payloadLength : ℕ) (callback : PayloadCallback)
    (p : Packet) : Prop where
  getPayload : p.getPayload = some callback
  payloadIndex : p.payloadIndex = header.length
  size : p.size = header.length + payloadLength
  begins : p.data.take header.length = header
  room : header.length + min cfg.txBufferSize payloadLength ≤ p.data.length
  le_start : header.length ≤ p.payloadStartIndex
  start_lt : p.payloadStartIndex < p.size
  end_ne : p.payloadEndIndex ≠ 0

/-- The window holds `copied`, from `start` on. -/
structure Shows (header copied : List Byte) (start : ℕ) (p : Packet) : Prop where
  data : p.data.take (header.length + copied.length) = header ++ copied
  starts : p.payloadStartIndex = start
  stops : p.payloadEndIndex + 1 = start + copied.length

section

variable {header : List Byte} {payloadLength : ℕ} {callback : PayloadCallback} {p : Packet}

/-- The callback is asked for at least a byte. -/
theorem Carries.maxSize_pos (h : p.Carries cfg header payloadLength callback) :
    0 < min cfg.txBufferSize (p.size - p.payloadStartIndex) := by
  have := cfg.txBufferSize_pos
  have := h.start_lt
  omega

theorem Carries.fillWindow (h : p.Carries cfg header payloadLength callback) (hheader : 1 < header.length)
    (copied : List Byte) {start : ℕ} (hstart : header.length ≤ start) (hlt : start < p.size) :
    (p.fillWindow copied start).Carries cfg header payloadLength callback where
  getPayload := h.getPayload
  payloadIndex := h.payloadIndex
  size := h.size
  begins := by
    have htake := Buffer.take_data_put ⟨p.data, p.payloadIndex⟩ copied (k := header.length)
      h.payloadIndex.ge
    exact htake.trans h.begins
  room := by
    show _ ≤ (Buffer.put ⟨p.data, p.payloadIndex⟩ copied).data.length
    rw [Buffer.length_data_put]
    exact h.room
  le_start := hstart
  start_lt := hlt
  end_ne := by
    show start + copied.length - 1 ≠ 0
    omega

/-- What the callback copies is in the window, because the buffer has room for it. -/
theorem Carries.shows (h : p.Carries cfg header payloadLength callback) (hheader : 1 < header.length)
    (copied : List Byte) {start : ℕ} (hstart : header.length ≤ start)
    (hcopied : copied.length ≤ min cfg.txBufferSize payloadLength) :
    (p.fillWindow copied start).Shows header copied start where
  data := by
    have hroom := h.room
    have hput := Buffer.written_put ⟨p.data, p.payloadIndex⟩ copied (by
      show p.payloadIndex + copied.length ≤ p.data.length
      rw [h.payloadIndex]
      omega)
    rw [Buffer.written, Buffer.pos_put, Buffer.written] at hput
    simp only [h.payloadIndex, h.begins] at hput
    show (Buffer.put ⟨p.data, p.payloadIndex⟩ copied).data.take _ = _
    rw [h.payloadIndex]
    exact hput
  starts := rfl
  stops := by
    show start + copied.length - 1 + 1 = start + copied.length
    omega

/-- In the header the payload is asked for, from the position in the header. -/
theorem Carries.available_header (h : p.Carries cfg header payloadLength callback)
    (hheader : 1 < header.length) (hpayload : 0 < payloadLength) (call : ℕ) {index : ℕ}
    (hindex : index < header.length) :
    ∃ maxSize copied, 0 < maxSize ∧ copied = callback.copy call maxSize index ∧
      p.available cfg call index = (header.length + copied.length - index, p.fillWindow copied header.length) ∧
      (p.fillWindow copied header.length).Carries cfg header payloadLength callback ∧
      (p.fillWindow copied header.length).Shows header copied header.length := by
  have hsize := h.size
  have hmax := h.maxSize_pos
  have hstart := h.le_start
  refine ⟨_, _, hmax, rfl, ?_, h.fillWindow hheader _ le_rfl (by omega), ?_⟩
  · rw [available, if_neg (by omega), h.getPayload]
    dsimp only
    rw [chunkedAvailable]
    dsimp only
    rw [h.payloadIndex, if_pos hindex, if_pos ⟨by omega, h.end_ne⟩]
    congr 1
    · dsimp only
      omega
    · rw [Packet.fillWindow, h.payloadIndex]
  · have hle := callback.length_le call (min cfg.txBufferSize (p.size - p.payloadStartIndex)) index
    exact h.shows hheader _ le_rfl (by omega)

/-- Where the window holds the payload it is not asked for. -/
theorem Carries.available_window (h : p.Carries cfg header payloadLength callback) {copied : List Byte}
    {start index : ℕ} (hshows : p.Shows header copied start) (call : ℕ) (hstart : start ≤ index)
    (hindex : index < start + copied.length) (hlt : index < p.size) :
    p.available cfg call index = (start + copied.length - index, p) := by
  have hstarts := hshows.starts
  have hstops := hshows.stops
  have hle := h.le_start
  have hpayload := h.payloadIndex
  rw [available, if_neg (by omega), h.getPayload]
  dsimp only
  rw [chunkedAvailable]
  dsimp only
  rw [if_neg (by omega), if_neg (by omega), hstops]

/-- Where the window does not hold the payload it is asked for, from the position in the packet. -/
theorem Carries.available_beyond (h : p.Carries cfg header payloadLength callback)
    (hheader : 1 < header.length) (call : ℕ) {index : ℕ} (hindex : header.length ≤ index)
    (hlt : index < p.size) (hbeyond : p.payloadEndIndex < index ∨ index < p.payloadStartIndex) :
    ∃ maxSize copied, 0 < maxSize ∧ copied = callback.copy call maxSize index ∧
      p.available cfg call index = (index + copied.length - index, p.fillWindow copied index) ∧
      (p.fillWindow copied index).Carries cfg header payloadLength callback ∧
      (p.fillWindow copied index).Shows header copied index := by
  have hsize := h.size
  have hbuffer := cfg.txBufferSize_pos
  have hpayload := h.payloadIndex
  refine ⟨min cfg.txBufferSize (p.size - index), _, by omega, rfl, ?_, h.fillWindow hheader _ hindex hlt, ?_⟩
  · rw [available, if_neg (by omega), h.getPayload]
    dsimp only
    rw [chunkedAvailable]
    dsimp only
    rw [if_neg (by omega), if_pos hbeyond]
    congr 1
    dsimp only
    omega
  · have hle := callback.length_le call (min cfg.txBufferSize (p.size - index)) index
    exact h.shows hheader _ hindex (by omega)

/-! ### The bytes that are read -/

/-- Bytes of the header, and of the window behind it. -/
theorem Carries.dataAt_header (h : p.Carries cfg header payloadLength callback) {copied : List Byte}
    {start index n : ℕ} (hshows : p.Shows header copied start) (hindex : index < header.length)
    (hn : n ≤ header.length + copied.length - index) :
    (p.dataAt index).take n = ((header ++ copied).drop index).take n := by
  rw [dataAt, h.getPayload]
  dsimp only
  rw [if_pos (by rwa [h.payloadIndex]), ← hshows.data, List.drop_take, List.take_take,
    Nat.min_eq_left (by omega)]

/-- Bytes of the window. -/
theorem Carries.dataAt_window (h : p.Carries cfg header payloadLength callback) {copied : List Byte}
    {start index n : ℕ} (hshows : p.Shows header copied start) (hindex : start ≤ index)
    (hn : n ≤ start + copied.length - index) :
    (p.dataAt index).take n = (copied.drop (index - start)).take n := by
  have hle := h.le_start
  have hstarts := hshows.starts
  have hdrop : copied.drop (index - start) = (header ++ copied).drop (index - start + header.length) := by
    rw [Nat.add_comm, ← List.drop_drop, List.drop_left]
  rw [dataAt, h.getPayload]
  dsimp only
  rw [h.payloadIndex, if_neg (by omega), hstarts, hdrop, ← hshows.data, List.drop_take, List.take_take,
    Nat.min_eq_left (by omega)]

/-! ### A transmission -/

theorem transmit_cons {call index available : ℕ} {q : Packet} (write : ℕ) (writes : List ℕ)
    (h : p.available cfg call index = (available, q)) :
    p.transmit cfg call index (write :: writes) =
      { q.transmit cfg (call + 1) (index + min write available) writes with
        bytes := (q.dataAt index).take (min write available) ++
          (q.transmit cfg (call + 1) (index + min write available) writes).bytes } := by
  rw [transmit, h]

/-- Behind the end there is nothing to read. -/
theorem transmit_end (writes : List ℕ) (call : ℕ) {index : ℕ} (h : p.size ≤ index) :
    p.transmit cfg call index writes = ⟨[], index, p⟩ := by
  induction writes generalizing call with
  | nil => rfl
  | cons write writes ih =>
    rw [transmit_cons write writes (by rw [available, if_pos h])]
    simp only [Nat.min_zero, Nat.add_zero, List.take_zero, List.nil_append]
    exact ih _

theorem sum_eq_zero_iff (writes : List ℕ) : writes.sum = 0 ↔ writes.filter (0 < ·) = [] := by
  rw [List.sum_eq_zero_iff_forall_eq_nat, List.filter_eq_nil_iff]
  simp

/-- Without writes nothing is read. -/
theorem transmit_zeros (writes : List ℕ) (call : ℕ) (p : Packet) (index : ℕ) (h : writes.sum = 0) :
    (p.transmit cfg call index writes).bytes = [] ∧ (p.transmit cfg call index writes).index = index := by
  induction writes generalizing call p with
  | nil => exact ⟨rfl, rfl⟩
  | cons write writes ih =>
    rw [List.sum_cons, Nat.add_eq_zero_iff] at h
    obtain ⟨rfl, hsum⟩ := h
    rw [transmit_cons 0 writes rfl]
    simp only [Nat.zero_min, Nat.add_zero, List.take_zero, List.nil_append]
    exact ih _ _ hsum

/-- Reading keeps the header and the room for the payload. -/
theorem Carries.transmit (writes : List ℕ) (h : p.Carries cfg header payloadLength callback)
    (hheader : 1 < header.length) (hpayload : 0 < payloadLength) (call index : ℕ) :
    (p.transmit cfg call index writes).packet.Carries cfg header payloadLength callback := by
  induction writes generalizing call p index with
  | nil => exact h
  | cons write writes ih =>
    suffices ∃ available q, p.available cfg call index = (available, q) ∧
        q.Carries cfg header payloadLength callback by
      obtain ⟨available, q, hq, hcarries⟩ := this
      rw [transmit_cons write writes hq]
      exact ih hcarries _ _
    rcases Nat.lt_or_ge index p.size with hlt | hge
    · rcases Nat.lt_or_ge index header.length with hindex | hindex
      · obtain ⟨_, _, _, _, hq, hcarries, _⟩ := h.available_header hheader hpayload call hindex
        exact ⟨_, _, hq, hcarries⟩
      · by_cases hbeyond : p.payloadEndIndex < index ∨ index < p.payloadStartIndex
        · obtain ⟨_, _, _, _, hq, hcarries, _⟩ := h.available_beyond hheader call hindex hlt hbeyond
          exact ⟨_, _, hq, hcarries⟩
        · refine ⟨p.payloadEndIndex + 1 - index, p, ?_, h⟩
          rw [available, if_neg (by omega), h.getPayload]
          dsimp only
          rw [chunkedAvailable]
          dsimp only
          rw [if_neg (by rw [h.payloadIndex]; omega), if_neg hbeyond]
    · exact ⟨0, p, by rw [available, if_pos hge], h⟩

/-- As long as no byte of the payload is read, what is read is the header. -/
theorem Carries.transmit_header (writes : List ℕ) (h : p.Carries cfg header payloadLength callback)
    (hheader : 1 < header.length) (hpayload : 0 < payloadLength) (call : ℕ) {index : ℕ}
    (hsum : index + writes.sum ≤ header.length) :
    (p.transmit cfg call index writes).bytes = (header.drop index).take writes.sum ∧
      (p.transmit cfg call index writes).index = index + writes.sum := by
  induction writes generalizing call p index with
  | nil => exact ⟨rfl, rfl⟩
  | cons write writes ih =>
    rw [List.sum_cons] at hsum ⊢
    rcases Nat.lt_or_ge index header.length with hindex | hindex
    · obtain ⟨_, copied, _, _, hq, hcarries, hshows⟩ := h.available_header hheader hpayload call hindex
      have hmin : min write (header.length + copied.length - index) = write := by omega
      have hread := hcarries.dataAt_header hshows hindex (n := write) (by omega)
      obtain ⟨hbytes, hposition⟩ := ih hcarries (call + 1)
        (show index + write + writes.sum ≤ header.length by omega)
      rw [transmit_cons write writes hq, hmin]
      dsimp only
      rw [hread, hbytes, hposition, List.drop_append_of_le_length (by omega),
        List.take_append_of_le_length (by rw [List.length_drop]; omega), List.take_add, List.drop_drop]
      exact ⟨rfl, by omega⟩
    · have hzero : (write :: writes).sum = 0 := by
        rw [List.sum_cons]
        omega
      have hnone := @transmit_zeros cfg (write :: writes) call p index hzero
      rw [hnone.1, hnone.2, ← List.sum_cons, hzero]
      exact ⟨rfl, rfl⟩

/-- One write reads a beginning of the payload, and when it is a single byte many writes do. -/
theorem Carries.transmit_window (writes : List ℕ) {payload copied : List Byte}
    (h : p.Carries cfg header payload.length callback)
    (hshows : p.Shows header copied header.length) (hcopied : copied <+: payload) (hne : copied ≠ [])
    (hwrites : payload.length = 1 ∨ (writes.filter (0 < ·)).length ≤ 1) (call : ℕ) :
    (p.transmit cfg call header.length writes).bytes <+: payload ∧
      (p.transmit cfg call header.length writes).index =
        header.length + (p.transmit cfg call header.length writes).bytes.length := by
  have hsize := h.size
  have hlength := List.length_pos_iff.mpr hne
  have hle := hcopied.length_le
  induction writes generalizing call with
  | nil => exact ⟨List.nil_prefix, rfl⟩
  | cons write writes ih =>
    have hq := h.available_window hshows call le_rfl (by omega) (by omega)
    have hread := h.dataAt_window hshows le_rfl (n := min write (header.length + copied.length - header.length))
      (by omega)
    rw [transmit_cons write writes hq, hread]
    rcases Nat.eq_zero_or_pos write with rfl | hpos
    · simpa using ih (by simpa using hwrites) (call + 1)
    · -- what is left of the writes reads nothing
      have hrest : (p.transmit cfg (call + 1) (header.length + min write copied.length) writes).bytes = [] ∧
          (p.transmit cfg (call + 1) (header.length + min write copied.length) writes).index =
            header.length + min write copied.length := by
        rcases hwrites with hone | hfilter
        · rw [transmit_end writes _ (by omega)]
          exact ⟨rfl, rfl⟩
        · rw [List.filter_cons_of_pos (by simpa using hpos), List.length_cons] at hfilter
          apply transmit_zeros
          rw [sum_eq_zero_iff]
          exact List.length_eq_zero_iff.mp (Nat.le_zero.mp (Nat.le_of_succ_le_succ hfilter))
      simp only [Nat.add_sub_cancel_left, Nat.sub_self, List.drop_zero, hrest, List.append_nil,
        List.length_take]
      exact ⟨(List.take_prefix _ _).trans hcopied, by omega⟩

/-- **Enough**: with writes that split neither the header nor the payload, what is read is the header and
the payload. -/
theorem Carries.transmit_prefix (writes : List ℕ) {payload : List Byte}
    (h : p.Carries cfg header payload.length callback) (hheader : 1 < header.length)
    (hpayload : 0 < payload.length) (hcopies : callback.CopiesFrom payload)
    (hunsplit : Unsplit header.length payload.length writes) (call : ℕ) :
    (p.transmit cfg call 0 writes).bytes <+: header ++ payload ∧
      (p.transmit cfg call 0 writes).index = (p.transmit cfg call 0 writes).bytes.length := by
  rcases hunsplit with hsum | hwrites
  · obtain ⟨hbytes, hindex⟩ := h.transmit_header writes hheader hpayload call
      (show 0 + writes.sum ≤ header.length by omega)
    rw [hbytes, hindex, List.drop_zero, List.length_take]
    exact ⟨(List.take_prefix _ _).trans (List.prefix_append _ _), by omega⟩
  induction writes generalizing call p with
  | nil => exact ⟨List.nil_prefix, rfl⟩
  | cons write writes ih =>
    obtain ⟨_, copied, hmax, hcopied, hq, hcarries, hshows⟩ :=
      h.available_header hheader hpayload call (show 0 < header.length by omega)
    rcases Nat.eq_zero_or_pos write with rfl | hpos
    · rw [transmit_cons 0 writes hq]
      simpa using ih hcarries (call + 1) (by simpa using hwrites)
    rw [List.filter_cons_of_pos (by simpa using hpos)] at hwrites
    obtain ⟨hfirst, hrest⟩ := hwrites
    -- the callback was asked for the beginning of the payload
    obtain ⟨n, hn, hbegin⟩ := hcopies call _ 0 hmax hpayload
    rw [List.drop_zero, ← hcopied] at hbegin
    have hprefixed : copied <+: payload := hbegin ▸ List.take_prefix _ _
    have hne : 0 < copied.length := by
      rw [hbegin, List.length_take]
      omega
    have hread := hcarries.dataAt_header hshows
      (n := min write (header.length + copied.length - 0)) (show 0 < header.length by omega) (by omega)
    rw [transmit_cons write writes hq, hread, List.drop_zero]
    rcases Nat.eq_or_lt_of_le hfirst with rfl | hlt
    · obtain ⟨hbytes, hindex⟩ := hcarries.transmit_window writes hshows hprefixed
        (List.length_pos_iff.mp hne) (by
          rcases hrest with hone | hnil | ⟨-, hone⟩
          · exact .inl hone
          · exact .inr (by rw [hnil]; exact Nat.zero_le 1)
          · exact .inr hone.le) (call + 1)
      have hmin : min header.length (header.length + copied.length - 0) = header.length := by omega
      rw [hmin, Nat.zero_add, List.take_left]
      dsimp only
      rw [List.prefix_append_right_inj, List.length_append]
      exact ⟨hbytes, hindex⟩
    · -- behind the payload byte that there is, or without a further write, nothing is read
      have hle := hprefixed.length_le
      have hsize := hcarries.size
      obtain ⟨hbytes, hindex⟩ : (Packet.transmit cfg (call + 1) (p.fillWindow copied header.length)
          (0 + min write (header.length + copied.length - 0)) writes).bytes = [] ∧
          (Packet.transmit cfg (call + 1) (p.fillWindow copied header.length)
            (0 + min write (header.length + copied.length - 0)) writes).index =
            0 + min write (header.length + copied.length - 0) := by
        rcases hrest with hone | hnil | ⟨heq, -⟩
        · rw [transmit_end writes _ (by omega)]
          exact ⟨rfl, rfl⟩
        · exact transmit_zeros writes _ _ _ ((sum_eq_zero_iff writes).mpr hnil)
        · omega
      dsimp only
      rw [hbytes, hindex, List.append_nil, List.length_take, List.length_append]
      refine ⟨(List.take_prefix _ _).trans ?_, by omega⟩
      rw [List.prefix_append_right_inj]
      exact hprefixed

end

/-! ### A byte at a time -/

section

variable {header payload : List Byte} {p : Packet}

theorem copy_oneByte {call maxSize index : ℕ} (h : 0 < maxSize) :
    (PayloadCallback.oneByte payload).copy call maxSize index = [payload.getD index 0] :=
  if_neg (Nat.pos_iff_ne_zero.mp h)

/-- The next byte is the one in the window. -/
theorem Carries.transmit_shown (writes : List ℕ)
    (h : p.Carries cfg header payload.length (.oneByte payload)) {byte : Byte} {index : ℕ}
    (hshows : p.Shows header [byte] index) (hlt : index < p.size) (hsum : 0 < writes.sum) (call : ℕ) :
    ∃ tail, (p.transmit cfg call index writes).bytes = byte :: tail := by
  induction writes generalizing call with
  | nil => exact absurd hsum (Nat.lt_irrefl 0)
  | cons write writes ih =>
    have hq := h.available_window hshows call le_rfl (Nat.lt_succ_self index) hlt
    have hread := h.dataAt_window hshows le_rfl (n := min write (index + [byte].length - index)) (by omega)
    rw [transmit_cons write writes hq, hread]
    rcases Nat.eq_zero_or_pos write with rfl | hpos
    · simpa using ih (by simpa using hsum) (call + 1)
    · have hmin : min write (index + [byte].length - index) = 1 := by
        rw [List.length_singleton]
        omega
      rw [hmin, Nat.sub_self]
      exact ⟨_, rfl⟩

/-- Behind the window the next byte is the one at the position in the packet. -/
theorem Carries.transmit_beyond (writes : List ℕ)
    (h : p.Carries cfg header payload.length (.oneByte payload)) (hheader : 1 < header.length) {index : ℕ}
    (hindex : header.length ≤ index) (hlt : index < p.size)
    (hbeyond : p.payloadEndIndex < index ∨ index < p.payloadStartIndex) (hsum : 0 < writes.sum)
    (call : ℕ) :
    ∃ tail, (p.transmit cfg call index writes).bytes = payload.getD index 0 :: tail := by
  cases writes with
  | nil => exact absurd hsum (Nat.lt_irrefl 0)
  | cons write writes =>
    obtain ⟨_, copied, hmax, hcopied, hq, hcarries, hshows⟩ :=
      h.available_beyond hheader call hindex hlt hbeyond
    rw [copy_oneByte hmax] at hcopied
    subst hcopied
    have hread := hcarries.dataAt_window hshows le_rfl
      (n := min write (index + [payload.getD index 0].length - index)) (by omega)
    rw [transmit_cons write writes hq, hread]
    rcases Nat.eq_zero_or_pos write with rfl | hpos
    · simpa using hcarries.transmit_shown writes hshows hlt (by simpa using hsum) (call + 1)
    · have hmin : min write (index + [payload.getD index 0].length - index) = 1 := by
        rw [List.length_singleton]
        omega
      rw [hmin, Nat.sub_self]
      exact ⟨_, rfl⟩

/-- From inside the header on, the payload is asked for from a position that is not its beginning. -/
theorem Carries.transmit_split (writes : List ℕ)
    (h : p.Carries cfg header payload.length (.oneByte payload)) (hheader : 1 < header.length)
    (hpayload : 0 < payload.length) {index : ℕ} (hpos : 0 < index) (hindex : index < header.length)
    (hsum : header.length < index + writes.sum) (call : ℕ) :
    ∃ position tail, 0 < position ∧
      (p.transmit cfg call index writes).bytes = header.drop index ++ payload.getD position 0 :: tail := by
  induction writes generalizing call p index with
  | nil => exact absurd hsum (by simpa using hindex.le)
  | cons write writes ih =>
    obtain ⟨_, copied, hmax, hcopied, hq, hcarries, hshows⟩ :=
      h.available_header hheader hpayload call hindex
    rw [copy_oneByte hmax] at hcopied
    subst hcopied
    have hsize := hcarries.size
    rw [List.sum_cons] at hsum
    have hread := hcarries.dataAt_header hshows hindex
      (n := min write (header.length + [payload.getD index 0].length - index)) (by omega)
    rw [transmit_cons write writes hq, hread]
    rw [List.length_singleton, List.drop_append_of_le_length hindex.le]
    dsimp only
    rcases Nat.lt_trichotomy (index + write) header.length with hlt | heq | hgt
    · have hmin : min write (header.length + 1 - index) = write := by omega
      obtain ⟨position, tail, hposition, hbytes⟩ :=
        ih hcarries (show 0 < index + write by omega) hlt (by omega) (call + 1)
      refine ⟨position, tail, hposition, ?_⟩
      rw [hmin, hbytes, List.take_append_of_le_length (by rw [List.length_drop]; omega),
        ← List.append_assoc, ← List.drop_drop, List.take_append_drop]
    · have hmin : min write (header.length + 1 - index) = write := by omega
      have hlength : write = (header.drop index).length := by
        rw [List.length_drop]
        omega
      obtain ⟨tail, hbytes⟩ := hcarries.transmit_shown writes hshows (by omega) (by omega) (call + 1)
      refine ⟨index, tail, hpos, ?_⟩
      rw [hmin, heq, hbytes, hlength, List.take_left]
    · have hmin : min write (header.length + 1 - index) = (header.drop index).length + 1 := by
        rw [List.length_drop]
        omega
      rw [hmin, List.take_length_add_append, List.append_assoc]
      exact ⟨index, _, hpos, rfl⟩

/-- A header that is split is followed by a byte that is not asked for from the beginning of the payload. -/
theorem Carries.transmit_split_header (writes : List ℕ)
    (h : p.Carries cfg header payload.length (.oneByte payload)) (hheader : 1 < header.length)
    (hpayload : 0 < payload.length) (hsum : header.length < writes.sum) {first : ℕ} {rest : List ℕ}
    (hfilter : writes.filter (0 < ·) = first :: rest) (hfirst : first < header.length) (call : ℕ) :
    ∃ position tail, 0 < position ∧
      (p.transmit cfg call 0 writes).bytes = header ++ payload.getD position 0 :: tail := by
  induction writes generalizing call p with
  | nil => cases hfilter
  | cons write writes ih =>
    obtain ⟨_, copied, _, _, hq, hcarries, hshows⟩ :=
      h.available_header hheader hpayload call (show 0 < header.length by omega)
    rw [List.sum_cons] at hsum
    rcases Nat.eq_zero_or_pos write with rfl | hpos
    · rw [transmit_cons 0 writes hq]
      simpa using ih hcarries (by omega) (by simpa using hfilter) (call + 1)
    rw [List.filter_cons_of_pos (by simpa using hpos)] at hfilter
    obtain ⟨rfl, -⟩ := List.cons.inj hfilter
    have hmin : min write (header.length + copied.length - 0) = write := by omega
    have hread := hcarries.dataAt_header hshows (n := write) (show 0 < header.length by omega) (by omega)
    obtain ⟨position, tail, hposition, hbytes⟩ := hcarries.transmit_split writes hheader hpayload
      (show 0 < 0 + write by omega) (by omega) (by omega) (call + 1)
    refine ⟨position, tail, hposition, ?_⟩
    rw [transmit_cons write writes hq, hmin, hread, hbytes, List.drop_zero, Nat.zero_add,
      List.take_append_of_le_length hfirst.le, ← List.append_assoc, List.take_append_drop]

/-- The second byte of the payload is not asked for from its position in the payload. -/
theorem Carries.transmit_second (writes : List ℕ)
    (h : p.Carries cfg header payload.length (.oneByte payload)) (hheader : 1 < header.length)
    (hpayload : 1 < payload.length) {byte : Byte} (hshows : p.Shows header [byte] header.length)
    (hwrites : 2 ≤ (writes.filter (0 < ·)).length) (call : ℕ) :
    ∃ tail, (p.transmit cfg call header.length writes).bytes =
      byte :: payload.getD (header.length + 1) 0 :: tail := by
  have hsize := h.size
  induction writes generalizing call with
  | nil => exact absurd hwrites (by decide)
  | cons write writes ih =>
    have hq := h.available_window hshows call le_rfl (Nat.lt_succ_self _) (by omega)
    have hread := h.dataAt_window hshows le_rfl
      (n := min write (header.length + [byte].length - header.length)) (by omega)
    rw [transmit_cons write writes hq, hread]
    rcases Nat.eq_zero_or_pos write with rfl | hpos
    · simpa using ih (by simpa using hwrites) (call + 1)
    rw [List.filter_cons_of_pos (by simpa using hpos), List.length_cons] at hwrites
    have hmin : min write (header.length + [byte].length - header.length) = 1 := by
      rw [List.length_singleton]
      omega
    have hsum : 0 < writes.sum := by
      rw [Nat.pos_iff_ne_zero, Ne, sum_eq_zero_iff, ← List.length_eq_zero_iff]
      omega
    have hstops := hshows.stops
    rw [List.length_singleton] at hstops
    obtain ⟨tail, hbytes⟩ := h.transmit_beyond writes hheader (Nat.le_succ header.length)
      (by omega) (.inl (by omega)) hsum (call + 1)
    rw [hmin, hbytes, Nat.sub_self]
    exact ⟨tail, rfl⟩

/-- A payload that is split goes on with a byte that is not asked for from its position in the payload. -/
theorem Carries.transmit_split_payload (writes : List ℕ)
    (h : p.Carries cfg header payload.length (.oneByte payload)) (hheader : 1 < header.length)
    (hpayload : 1 < payload.length) {first : ℕ} {rest : List ℕ}
    (hfilter : writes.filter (0 < ·) = first :: rest) (hfirst : header.length ≤ first)
    (hne : rest ≠ []) (hrest : first = header.length → rest.length ≠ 1) (call : ℕ) :
    ∃ tail, (p.transmit cfg call 0 writes).bytes =
      header ++ payload.getD 0 0 :: payload.getD (header.length + 1) 0 :: tail := by
  induction writes generalizing call p with
  | nil => cases hfilter
  | cons write writes ih =>
    obtain ⟨_, copied, hmax, hcopied, hq, hcarries, hshows⟩ :=
      h.available_header hheader (by omega) call (show 0 < header.length by omega)
    rcases Nat.eq_zero_or_pos write with rfl | hpos
    · rw [transmit_cons 0 writes hq]
      simpa using ih hcarries (by simpa using hfilter) (call + 1)
    rw [List.filter_cons_of_pos (by simpa using hpos)] at hfilter
    obtain ⟨rfl, rfl⟩ := List.cons.inj hfilter
    rw [copy_oneByte hmax] at hcopied
    subst hcopied
    have hsize := hcarries.size
    have hread := hcarries.dataAt_header hshows
      (n := min write (header.length + [payload.getD 0 0].length - 0)) (show 0 < header.length by omega)
        (by omega)
    have hlength := List.length_pos_iff.mpr hne
    rw [transmit_cons write writes hq, hread, List.drop_zero, List.length_singleton, Nat.sub_zero, Nat.zero_add]
    dsimp only
    rcases Nat.eq_or_lt_of_le hfirst with rfl | hlt
    · have hmin : min header.length (header.length + 1) = header.length := by omega
      obtain ⟨tail, hbytes⟩ := hcarries.transmit_second writes hheader hpayload hshows
        (by have := hrest rfl; omega) (call + 1)
      exact ⟨tail, by rw [hmin, hbytes, List.take_left]⟩
    · have hmin : min write (header.length + 1) = header.length + 1 := by omega
      have hsum : 0 < writes.sum := by
        rw [Nat.pos_iff_ne_zero, Ne, sum_eq_zero_iff]
        exact hne
      have hstops := hshows.stops
      rw [List.length_singleton] at hstops
      obtain ⟨tail, hbytes⟩ := hcarries.transmit_beyond writes hheader (Nat.le_succ header.length)
        (by omega) (.inl (by omega)) hsum (call + 1)
      refine ⟨tail, ?_⟩
      rw [hmin, hbytes, List.take_length_add_append, List.append_assoc]
      rfl

theorem getD_replicate_zero (n i : ℕ) : (List.replicate n (0 : Byte)).getD i 0 = 0 := by
  rw [List.getD_eq_getElem?_getD, List.getElem?_replicate]
  split_ifs <;> rfl

/-- **Needed**: with other writes there is a payload that a transmission does not read. -/
theorem Carries.not_transmit_prefix {writes : List ℕ} {payloadLength : ℕ} (hheader : 1 < header.length)
    (hpayload : 0 < payloadLength) (hunsplit : ¬ Unsplit header.length payloadLength writes) :
    ∃ payload : List Byte, payload.length = payloadLength ∧ ∀ (p : Packet) (call : ℕ),
      p.Carries cfg header payloadLength (.oneByte payload) →
      ¬ (p.transmit cfg call 0 writes).bytes <+: header ++ payload := by
  rw [Unsplit, not_or] at hunsplit
  obtain ⟨hsum, hwrites⟩ := hunsplit
  cases hfilter : writes.filter (0 < ·) with
  | nil => exact absurd (sum_eq_zero_iff writes |>.mpr hfilter) (by omega)
  | cons first rest =>
    rw [hfilter] at hwrites
    dsimp only at hwrites
    obtain ⟨n, rfl⟩ := Nat.exists_eq_succ_of_ne_zero (Nat.pos_iff_ne_zero.mp hpayload)
    rcases Nat.lt_or_ge first header.length with hfirst | hfirst
    · refine ⟨1 :: List.replicate n 0, by simp, fun p call hp hprefixed => ?_⟩
      obtain ⟨position, tail, hposition, hbytes⟩ := Carries.transmit_split_header writes
        (show p.Carries cfg header (1 :: List.replicate n 0).length _ by simpa using hp) hheader (by simp)
          (by omega) hfilter hfirst call
      obtain ⟨position, rfl⟩ := Nat.exists_eq_succ_of_ne_zero (Nat.pos_iff_ne_zero.mp hposition)
      rw [hbytes, List.prefix_append_right_inj, List.cons_prefix_cons, List.getD_cons_succ,
        getD_replicate_zero] at hprefixed
      exact absurd hprefixed.1 (by decide)
    · have hsplit : n ≠ 0 ∧ rest ≠ [] ∧ (first = header.length → rest.length ≠ 1) := by
        refine ⟨fun h => ?_, fun h => ?_, fun h hone => ?_⟩
        · exact hwrites ⟨hfirst, .inl (by omega)⟩
        · exact hwrites ⟨hfirst, .inr (.inl h)⟩
        · exact hwrites ⟨hfirst, .inr (.inr ⟨h, hone⟩)⟩
      obtain ⟨hn, hne, hrest⟩ := hsplit
      obtain ⟨m, rfl⟩ := Nat.exists_eq_succ_of_ne_zero hn
      refine ⟨0 :: 1 :: List.replicate m 0, by simp, fun p call hp hprefixed => ?_⟩
      obtain ⟨tail, hbytes⟩ := Carries.transmit_split_payload writes
        (show p.Carries cfg header (0 :: 1 :: List.replicate m 0).length _ by simpa using hp) hheader
          (by simp) hfilter hfirst hne
        hrest call
      obtain ⟨k, hk⟩ := Nat.exists_eq_add_of_lt hheader
      rw [hbytes, List.prefix_append_right_inj, List.cons_prefix_cons, List.cons_prefix_cons, hk,
        List.getD_cons_succ, List.getD_cons_succ, getD_replicate_zero] at hprefixed
      exact absurd hprefixed.2.1 (by decide)

end

/-! ### The two kinds of PUBLISH -/

section

variable {alloc : Alloc} {packetId : UInt16} {topic : CString} {qos : Byte} {retain : Bool}
  {payloadLength : ℕ}

theorem two_lt_publishHeaderBytes (packetId : UInt16) (topic : CString) (payloadLength : ℕ) (qos : Byte)
    (retain : Bool) : 2 < (publishHeaderBytes packetId topic payloadLength qos retain).length := by
  simp only [publishHeaderBytes, List.length_cons, List.length_append, length_stringBytes]
  omega

/-- A PUBLISH with a payload callback that is built carries its header. -/
theorem publishChunked_spec {callback : PayloadCallback} {packet : Packet} (hqos : qos ≤ 2)
    (htopic : topic.length ≤ 65535)
    (hmax : publishRemainingLength topic payloadLength qos ≤ 268435455) (hpayload : 0 < payloadLength)
    (hroom : (publishHeaderBytes packetId topic payloadLength qos retain).length +
      min cfg.txBufferSize payloadLength ≤ chunkedBufferLength cfg topic payloadLength qos)
    (h : publishChunked cfg alloc packetId topic callback payloadLength qos retain = (.SUCCESS, packet)) :
    packet.Carries cfg (publishHeaderBytes packetId topic payloadLength qos retain) payloadLength callback ∧
      packet.packetId = if qos = 0 then 0 else packetId := by
  have hsize := cfg.le_sizeMod
  have hlength := two_lt_publishHeaderBytes packetId topic payloadLength qos retain
  have hheader := length_publishHeaderBytes packetId topic payloadLength qos retain
  have henc := (length_lengthField (lengthField_encode hmax)).2
  have hle : payloadLength ≤ publishRemainingLength topic payloadLength qos := by
    rw [publishRemainingLength]
    omega
  have hreduced : chunkedLength cfg (publishRemainingLength topic payloadLength qos) payloadLength ≤
      268435455 := by
    rw [chunkedLength, cfg.sub_of_le (by omega) hle, cfg.wrap_of_lt (by omega)]
    omega
  rw [publishChunked, publishLength_eq hmax] at h
  dsimp only at h
  cases halloc : allocate cfg alloc
    (chunkedLength cfg (publishRemainingLength topic payloadLength qos) payloadLength) true with
  | none => simp [halloc] at h
  | some b =>
    have hb := allocate_spec halloc hreduced
    have hfilled := fillPublishHeader_spec packetId retain hb hqos htopic hmax
      ((Nat.le_add_right _ _).trans hroom)
    simp only [halloc, Prod.mk.injEq, true_and] at h
    obtain rfl := h
    refine ⟨⟨rfl, hfilled.pos, ?_, ?_, ?_, hfilled.pos.ge, ?_, ?_⟩, rfl⟩
    · show cfg.wrap _ = _
      rw [hfilled.pos, cfg.wrap_of_lt (by omega)]
    · have hwritten := hfilled.written
      rwa [Buffer.written, hfilled.pos] at hwritten
    · exact hroom.trans hfilled.length.ge
    · show Buffer.pos _ < cfg.wrap _
      rw [hfilled.pos, cfg.wrap_of_lt (by omega)]
      omega
    · show Buffer.pos _ ≠ 0
      rw [hfilled.pos]
      omega

/-- A PUBLISH can be built when there is memory. -/
theorem exists_publish (cfg : Config) (packetId : UInt16) (topic : CString) (payload : List Byte)
    (qos : Byte) (retain : Bool) :
    ∃ packet, publish cfg ⟨cfg.minFreeMemory, true, true⟩ packetId topic payload qos retain =
      (.SUCCESS, packet) := by
  rw [publish]
  dsimp only
  rw [allocate, if_neg (by simp), if_pos rfl]
  exact ⟨_, rfl⟩

theorem exists_publishChunked (cfg : Config) (packetId : UInt16) (topic : CString)
    (callback : PayloadCallback) (payloadLength : ℕ) (qos : Byte) (retain : Bool) :
    ∃ packet, publishChunked cfg ⟨cfg.minFreeMemory, true, true⟩ packetId topic callback payloadLength qos
      retain = (.SUCCESS, packet) := by
  rw [publishChunked]
  dsimp only
  rw [allocate, if_neg (by simp), if_pos rfl]
  exact ⟨_, rfl⟩

/-- Marking as a duplicate changes the first byte of both packets or of neither. -/
theorem setDup_alike {p q : Packet} (hid : p.packetId = q.packetId) (hhead : p.data.head? = q.data.head?) :
    (p.setDup = p ∧ q.setDup = q) ∨
      (p.setDup = { p with data := p.data.modifyHead (· ||| 0x08) } ∧
        q.setDup = { q with data := q.data.modifyHead (· ||| 0x08) }) := by
  have htype : p.packetType = q.packetType := by rw [packetType_eq, packetType_eq, hhead]
  have hnil : p.data = [] ↔ q.data = [] := by
    rw [← List.head?_eq_none_iff, hhead, List.head?_eq_none_iff]
  simp only [setDup, hid, htype, hnil]
  split_ifs
  · exact .inl ⟨rfl, rfl⟩
  · exact .inl ⟨rfl, rfl⟩
  · exact .inl ⟨rfl, rfl⟩
  · exact .inr ⟨rfl, rfl⟩

theorem Carries.modifyHead {header : List Byte} {callback : PayloadCallback} {p : Packet}
    (h : p.Carries cfg header payloadLength callback) (f : Byte → Byte) :
    Carries cfg (header.modifyHead f) payloadLength callback { p with data := p.data.modifyHead f } := by
  obtain ⟨h1, h2, h3, h4, h5, h6, h7, h8⟩ := h
  have hlength : (header.modifyHead f).length = header.length := List.length_modifyHead
  refine ⟨h1, hlength ▸ h2, hlength ▸ h3, ?_, ?_, hlength ▸ h6, h7, h8⟩
  · conv_rhs => rw [← h4]
    rw [hlength]
    cases p.data <;> cases header <;> simp [List.modifyHead]
  · rw [hlength]
    exact h5.trans List.length_modifyHead.ge

theorem transmit_packetId (writes : List ℕ) (call : ℕ) (p : Packet) (index : ℕ) :
    (p.transmit cfg call index writes).packet.packetId = p.packetId := by
  induction writes generalizing call p index with
  | nil => rfl
  | cons write writes ih =>
    rw [transmit_cons write writes rfl]
    exact (ih _ _ _).trans (available_alike call p index).packetId

theorem Carries.matches {header payload : List Byte} {callback : PayloadCallback} {p buffered : Packet}
    {writes : List ℕ} (h : p.Carries cfg header payload.length callback) (hheader : 1 < header.length)
    (hpayload : 0 < payload.length) (hcopies : callback.CopiesFrom payload)
    (hunsplit : Unsplit header.length payload.length writes) (hdata : buffered.data = header ++ payload)
    (hsize : buffered.size = buffered.data.length) (call : ℕ) :
    (p.transmit cfg call 0 writes).Matches buffered := by
  obtain ⟨hprefixed, hindex⟩ := h.transmit_prefix writes hheader hpayload hcopies hunsplit call
  constructor
  · rw [hindex, hdata]
    exact List.prefix_iff_eq_take.mp hprefixed
  · rw [(h.transmit writes hheader hpayload call 0).size, hsize, hdata, List.length_append]

/-- **A PUBLISH with a payload callback is read like one with its payload** exactly when the transport takes
the header with one write and then what it takes of the payload with one write. -/
theorem publishChunked_iff (cfg : Config) {packetId : UInt16} (topic : CString) {qos : Byte} (retain : Bool)
    {payloadLength : ℕ} (writes : List ℕ) (hqos : qos ≤ 2) (htopic : topic.length ≤ 65535)
    (hmax : publishRemainingLength topic payloadLength qos ≤ 268435455) (hpayload : 0 < payloadLength)
    (hroom : (publishHeaderBytes packetId topic payloadLength qos retain).length +
      min cfg.txBufferSize payloadLength ≤ chunkedBufferLength cfg topic payloadLength qos) :
    PublishesAlike cfg packetId topic qos retain payloadLength writes ↔
      Unsplit (publishHeaderBytes packetId topic payloadLength qos retain).length payloadLength writes := by
  have htwo := two_lt_publishHeaderBytes packetId topic payloadLength qos retain
  constructor
  · intro halike
    by_contra hsplit
    obtain ⟨payload, rfl, hnot⟩ := @Carries.not_transmit_prefix cfg _ _ _ (by omega) hpayload hsplit
    obtain ⟨buffered, hbuffered⟩ := exists_publish cfg packetId topic payload qos retain
    obtain ⟨chunked, hchunked⟩ := exists_publishChunked cfg packetId topic (.oneByte payload) payload.length
      qos retain
    obtain ⟨hfirst, -⟩ := halike payload (.oneByte payload) rfl (PayloadCallback.oneByte_copiesFrom payload)
      _ _ buffered chunked hbuffered hchunked
    have hcarries := (publishChunked_spec hqos htopic hmax hpayload hroom hchunked).1
    apply hnot chunked 0 hcarries
    have hdata := publish_spec hqos htopic hmax hbuffered
    rw [(hfirst 0).1, hdata]
    exact List.take_prefix _ _
  · rintro hunsplit payload callback rfl hcopies alloc alloc' buffered chunked hbuffered hchunked
    obtain ⟨hcarries, hid⟩ := publishChunked_spec hqos htopic hmax hpayload hroom hchunked
    have hspec := publish_spec hqos htopic hmax hbuffered
    have hdata := congrArg Packet.data hspec
    have hsize : buffered.size = buffered.data.length := by rw [hspec]
    refine ⟨hcarries.matches (by omega) hpayload hcopies hunsplit hdata hsize, fun call earlier call' => ?_⟩
    have hagain := hcarries.transmit earlier (by omega) hpayload call 0
    have hhead : (chunked.transmit cfg call 0 earlier).packet.data.head? = buffered.data.head? := by
      have htake := congrArg List.head? hagain.begins
      rw [List.head?_take, if_neg (by omega)] at htake
      rw [htake, hdata, List.head?_append_of_ne_nil _ (List.length_pos_iff.mp (by omega))]
    have hidentical : (chunked.transmit cfg call 0 earlier).packet.packetId = buffered.packetId := by
      rw [transmit_packetId, hid, hspec]
      rfl
    rcases setDup_alike hidentical hhead with ⟨hdup, hdup'⟩ | ⟨hdup, hdup'⟩ <;> rw [hdup, hdup']
    · exact hagain.matches (by omega) hpayload hcopies hunsplit hdata hsize call'
    · have hlength := List.length_modifyHead (f := (· ||| 0x08))
        (l := publishHeaderBytes packetId topic payload.length qos retain)
      refine (hagain.modifyHead (· ||| 0x08)).matches (by omega) hpayload hcopies (by rwa [hlength]) ?_ ?_ call'
      · dsimp only
        rw [hdata]
        rfl
      · dsimp only
        rw [hsize, List.length_modifyHead]

end

/-- The header of 7 bytes goes out with one write, the payload with another. -/
theorem publishChunked_iff_whole :
    PublishesAlike .linux 1 ⟨[0x74], by decide⟩ 1 false 8 [7, 0, 8] ↔
      Unsplit (publishHeaderBytes 1 ⟨[0x74], by decide⟩ 8 1 false).length 8 [7, 0, 8] := by
  apply publishChunked_iff <;> decide +kernel

/-- When 3 bytes of the header go out first, the payload is asked for from position 3. -/
theorem not_publishesAlike_split :
    ¬ PublishesAlike .linux 1 ⟨[0x74], by decide⟩ 1 false 8 [3, 20] := by
  intro halike
  let payload : List Byte := [1, 2, 3, 4, 5, 6, 7, 8]
  obtain ⟨hfirst, -⟩ := halike payload (.oneByte payload) rfl (PayloadCallback.oneByte_copiesFrom payload)
    ⟨16384, true, true⟩ ⟨16384, true, true⟩
    (publish .linux ⟨16384, true, true⟩ 1 ⟨[0x74], by decide⟩ payload 1 false).2
    (publishChunked .linux ⟨16384, true, true⟩ 1 ⟨[0x74], by decide⟩ (.oneByte payload) 8 1 false).2
    (Prod.ext (by decide +kernel) rfl) (Prod.ext (by decide +kernel) rfl)
  exact absurd (hfirst 0).1 (by decide +kernel)

end Packet

end EspMqttClient
