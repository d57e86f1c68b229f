/-
  What is in the queue.

  `sendPacket_cases`, `sendRound_cases` and `leave_eq` say what sending does to the outbox.  Every packet in it
  was built by the client and then at most read and marked as a duplicate (`Flow.items`), so what is true of
  every packet that is built (`Proper`) is true of the whole outbox in every run.
-/
import EspMqttClient.MqttClient.Equiv.Flow
import EspMqttClient.Packets.Equiv.Bounds

namespace EspMqttClient

namespace MqttClient

variable {cfg : Config} {env : Env cfg}

/-! ### Sending -/

theorem getCurrent_eq_some {α : Type} {l : CursorList α} {a : α} :
    l.getCurrent = some a ↔ ∃ rest, l.pending = a :: rest := by
  rw [CursorList.getCurrent]
  exact List.head?_eq_some_iff

theorem getCurrent_eq_none {α : Type} {l : CursorList α} : l.getCurrent = none ↔ l.pending = [] := by
  rw [CursorList.getCurrent, List.head?_eq_none_iff]

/-- The client with another packet under the cursor. -/
def readAhead (c : MqttClient cfg) (item : OutgoingPacket) (rest : List OutgoingPacket) : MqttClient cfg :=
  { c with outbox := ⟨c.outbox.passed, item :: rest⟩ }.asked

/-- The transport took `result` bytes of the packet under the cursor. -/
def wrote (c : MqttClient cfg) (item : OutgoingPacket) (rest : List OutgoingPacket) (result : ℤ)
    (timeSent activity : UInt32) : MqttClient cfg :=
  { ((c.readAhead item rest).note (.write ((item.packet.dataAt c.bytesSent).take result.toNat))) with
    outbox := ⟨c.outbox.passed, { item with timeSent } :: rest⟩
    lastClientActivity := activity
    bytesSent := cfg.wrap (c.bytesSent + (result % cfg.sizeMod).toNat)
    tick := c.tick + 4 }

/-- What is noted of it. -/
def written (c : MqttClient cfg) (item : OutgoingPacket) (rest : List OutgoingPacket) (result : ℤ) :
    Record where
  event := .write ((item.packet.dataAt c.bytesSent).take result.toNat)
  state := c.state
  outbox := ⟨c.outbox.passed, item :: rest⟩
  bytesSent := c.bytesSent
  disconnectReason := c.disconnectReason

theorem log_wrote (c : MqttClient cfg) (item : OutgoingPacket) (rest : List OutgoingPacket) (result : ℤ)
    (timeSent activity : UInt32) :
    (c.wrote item rest result timeSent activity).log = c.written item rest result :: c.log := rfl

/-- `_sendPacket`: there is no current packet, nothing of it is available, or the transport is asked. -/
theorem sendPacket_cases (env : Env cfg) (c : MqttClient cfg) :
    (c.outbox.pending = [] ∧ c.sendPacket env = (0, c)) ∨
    ∃ item rest available packet, c.outbox.pending = item :: rest ∧
      item.packet.available cfg c.tick c.bytesSent = (available, packet) ∧
      ((available = 0 ∧ c.sendPacket env = (0, c.readAhead { item with packet } rest)) ∨
        (available ≠ 0 ∧ ∃ timeSent activity, c.sendPacket env =
          (((env.write (c.tick + 1) available % cfg.sizeMod).toNat : ℤ).bmod (2 ^ 32),
            c.wrote { item with packet } rest (env.write (c.tick + 1) available) timeSent activity))) := by
  cases hcurrent : c.outbox.getCurrent with
  | none =>
    refine .inl ⟨getCurrent_eq_none.mp hcurrent, ?_⟩
    rw [sendPacket, hcurrent]
  | some item =>
    obtain ⟨rest, hpending⟩ := getCurrent_eq_some.mp hcurrent
    refine .inr ⟨item, rest, _, _, hpending, rfl, ?_⟩
    rw [sendPacket, hcurrent]
    dsimp only
    split_ifs with hzero
    · refine .inl ⟨hzero, ?_⟩
      simp only [CursorList.modifyCurrent, hpending, List.modifyHead_cons]
      rfl
    · refine .inr ⟨hzero, UInt32.ofNat (env.millis (c.tick + 2)), UInt32.ofNat (env.millis (c.tick + 3)), ?_⟩
      simp only [CursorList.modifyCurrent, hpending, List.modifyHead_cons]
      rfl

/-- What is left of a packet that is sent from its buffer is handed to the transport, and the packet stays as
it is. -/
theorem sendPacket_buffered (env : Env cfg) {c : MqttClient cfg} {item : OutgoingPacket}
    {rest : List OutgoingPacket} (hpending : c.outbox.pending = item :: rest)
    (hnone : item.packet.getPayload = none) :
    (item.packet.size ≤ c.bytesSent ∧ c.sendPacket env = (0, c.readAhead item rest)) ∨
    (c.bytesSent < item.packet.size ∧ ∃ timeSent activity, (c.sendPacket env).2 =
      c.wrote item rest (env.write (c.tick + 1) (item.packet.size - c.bytesSent)) timeSent activity) := by
  rcases sendPacket_cases env c with ⟨hnil, -⟩ | ⟨item', rest', available, packet, hpending', havailable, h⟩
  · rw [hpending] at hnil
    cases hnil
  obtain ⟨rfl, rfl⟩ := List.cons.inj (hpending.symm.trans hpending')
  rw [Packet.available_buffered hnone] at havailable
  obtain ⟨rfl, rfl⟩ := Prod.mk.inj havailable
  rcases h with ⟨hzero, h⟩ | ⟨hne, timeSent, activity, h⟩
  · exact .inl ⟨Nat.le_of_sub_eq_zero hzero, h⟩
  · exact .inr ⟨by omega, timeSent, activity, by rw [h]⟩

/-- What the transport took is counted as it is. -/
theorem toNat_emod_sizeMod {result : ℤ} (hpos : 0 ≤ result) (hlt : result < cfg.sizeMod) :
    (result % cfg.sizeMod).toNat = result.toNat := by
  rw [Int.emod_eq_of_lt hpos hlt]

/-- What is not accepted is nothing or a failure, as an `int`. -/
theorem bmod_of_refused {result : ℤ} (hle : -1 ≤ result) (h : result ≤ 0) :
    ((result % cfg.sizeMod).toNat : ℤ).bmod (2 ^ 32) ≤ 0 := by
  have hdvd : (2 ^ 32 : ℕ) ∣ cfg.sizeMod := Nat.pow_dvd_pow 2 cfg.le_sizeBits
  have hpos : (0 : ℤ) < cfg.sizeMod := by exact_mod_cast Nat.pow_pos (by decide)
  have hmod : ((result % cfg.sizeMod).toNat : ℤ) = result % cfg.sizeMod :=
    Int.toNat_of_nonneg (Int.emod_nonneg _ hpos.ne')
  have hbmod : (result % cfg.sizeMod).bmod (2 ^ 32) = result.bmod (2 ^ 32) := by
    rw [Int.bmod_def, Int.bmod_def, Int.emod_emod_of_dvd _ (by exact_mod_cast hdvd)]
  rw [hmod, hbmod]
  rcases (by omega : result = 0 ∨ result = -1) with rfl | rfl
  · decide
  · decide

/-- A PUBLISH that stays in the queue is marked as a duplicate. -/
def kept (item : OutgoingPacket) : OutgoingPacket :=
  if item.isType PacketType.PUBLISH then { item with packet := item.packet.setDup } else item

/-- The cursor leaves a packet: it is dropped or passed. -/
theorem leave_eq {outbox : CursorList OutgoingPacket} {item : OutgoingPacket} {rest : List OutgoingPacket}
    (h : outbox.pending = item :: rest) : leave outbox item =
      if item.packet.removable then ⟨outbox.passed, rest⟩ else ⟨outbox.passed ++ [kept item], rest⟩ := by
  rw [leave]
  split_ifs
  · rw [CursorList.removeCurrent, h, List.tail_cons]
  · simp only [CursorList.modifyCurrent, h, List.modifyHead_cons, CursorList.next]
    rfl

theorem pending_leave {outbox : CursorList OutgoingPacket} {item : OutgoingPacket}
    {rest : List OutgoingPacket} (h : outbox.pending = item :: rest) : (leave outbox item).pending = rest := by
  rw [leave_eq h]
  split_ifs <;> rfl

/-- A round of `_checkOutbox` is a call of `_sendPacket`, and the cursor leaves the packet if it is written to
its end. -/
theorem sendRound_cases (env : Env cfg) (c : MqttClient cfg) :
    (c.sendRound env = (c.sendPacket env).2 ∧ (0 < (c.sendPacket env).1 → ∀ item,
      (c.sendPacket env).2.outbox.getCurrent = some item →
        (c.sendPacket env).2.bytesSent ≠ item.packet.size)) ∨
    ∃ item, 0 < (c.sendPacket env).1 ∧ (c.sendPacket env).2.outbox.getCurrent = some item ∧
      (c.sendPacket env).2.bytesSent = item.packet.size ∧ c.sendRound env =
        (((c.sendPacket env).2.farewell item.packet).note (.sent item.packet)).leaveCurrent item := by
  rw [sendRound]
  split_ifs with hwritten
  · rcases advanceOutbox_cases (c.sendPacket env).2 with ⟨h, hsize⟩ | ⟨item, hcurrent, hsize, h⟩
    · exact .inl ⟨h, fun _ => hsize⟩
    · exact .inr ⟨item, hwritten, hcurrent, hsize, h⟩
  · exact .inl ⟨rfl, fun h => absurd h hwritten⟩

/-- After a DISCONNECT the client goes, and notes that. -/
theorem log_leave (c : MqttClient cfg) (item : OutgoingPacket) : ∃ r : Record,
    r.event = .sent item.packet ∧ (((c.farewell item.packet).note (.sent item.packet)).leaveCurrent item).log
      = r :: (c.farewell item.packet).log ∧ ((c.farewell item.packet).log = c.log ∨
        ∃ r' : Record, r'.event = .state .disconnectingTcp1 ∧ (c.farewell item.packet).log = r' :: c.log) := by
  refine ⟨_, rfl, rfl, ?_⟩
  rw [farewell]
  split_ifs
  · exact .inr ⟨_, rfl, rfl⟩
  · exact .inl rfl

/-- `_clearQueue` filters the queue. -/
theorem clearQueue_eq (c : MqttClient cfg) (clearData : ℕ) : c.clearQueue clearData =
    { c.note (.clearQueue clearData) with outbox := c.outbox.filter (keeps clearData) } := by
  rw [clearQueue, CursorList.sweep_eq_filter]
  rfl

@[simp] theorem outbox_clearQueue (c : MqttClient cfg) (clearData : ℕ) :
    (c.clearQueue clearData).outbox = c.outbox.filter (keeps clearData) := by rw [clearQueue_eq]

/-! ### Where the packets come from -/

/-- The packets that a client builds. -/
inductive Built (cfg : Config) : Packet → Prop
  | connect {args packet} (h : Builds (fun alloc => Packet.connect cfg alloc args) packet) : Built cfg packet
  | publish {packetId topic qos retain payload packet} (hid : qos ≠ 0 → packetId ≠ 0)
      (h : Builds (fun alloc => Packet.publish cfg alloc packetId topic payload qos retain) packet) :
      Built cfg packet
  | publishChunked {packetId topic qos retain callback length packet} (hid : qos ≠ 0 → packetId ≠ 0)
      (h : Builds (fun alloc =>
        Packet.publishChunked cfg alloc packetId topic callback length qos retain) packet) : Built cfg packet
  | subscribe {packetId list packet} (hid : packetId ≠ 0)
      (h : Builds (fun alloc => Packet.subscribe cfg alloc packetId list) packet) : Built cfg packet
  | unsubscribe {packetId list packet} (hid : packetId ≠ 0)
      (h : Builds (fun alloc => Packet.unsubscribe cfg alloc packetId list) packet) : Built cfg packet
  | ack {type packetId packet}
      (htype : type ∈ [PacketType.PUBACK, PacketType.PUBREC, PacketType.PUBREL, PacketType.PUBCOMP])
      (hid : packetId ≠ 0) (h : Builds (fun alloc => Packet.ack cfg alloc type packetId) packet) :
      Built cfg packet
  | control {type packet} (htype : type ∈ [PacketType.PINGREQ, PacketType.DISCONNECT])
      (h : Builds (fun alloc => Packet.control cfg alloc type) packet) : Built cfg packet

theorem Requested.built {c : MqttClient cfg} {packet : Packet} {event : Event}
    (h : c.Requested packet event) : Built cfg packet := by
  cases h with
  | publish _ hid h => exact .publish hid h
  | publishChunked _ hid h => exact .publishChunked hid h
  | subscribe _ hid h => exact .subscribe hid h
  | unsubscribe _ hid h => exact .unsubscribe hid h
  | ping _ h => exact .control (by simp) h

/-- The same packet, which was read and marked as a duplicate in the meantime. -/
structure Touched (cfg : Config) (item item' : OutgoingPacket) : Prop where
  added : item'.added = item.added
  reads : Packet.Reads cfg item.packet item'.packet

theorem Touched.refl (item : OutgoingPacket) : Touched cfg item item := ⟨rfl, .refl⟩

theorem Touched.trans {item item' item'' : OutgoingPacket} (h : Touched cfg item item')
    (h' : Touched cfg item' item'') : Touched cfg item item'' :=
  ⟨h'.added.trans h.added, h.reads.trans h'.reads⟩

theorem kept_touched (item : OutgoingPacket) : Touched cfg item (kept item) := by
  rw [kept]
  split_ifs
  · exact ⟨rfl, .setDup .refl⟩
  · exact .refl item

/-- Every packet of the second queue was in the first one. -/
def Stays (cfg : Config) (outbox outbox' : CursorList OutgoingPacket) : Prop :=
  ∀ item' ∈ outbox'.items, ∃ item ∈ outbox.items, Touched cfg item item'

theorem Stays.trans {l l' l'' : CursorList OutgoingPacket} (h : Stays cfg l l') (h' : Stays cfg l' l'') :
    Stays cfg l l'' := by
  intro item'' hmem
  obtain ⟨item', hmem', htouched'⟩ := h' item'' hmem
  obtain ⟨item, hmem, htouched⟩ := h item' hmem'
  exact ⟨item, hmem, htouched.trans htouched'⟩

theorem stays_of_subset {l l' : CursorList OutgoingPacket} (h : l'.items ⊆ l.items) : Stays cfg l l' :=
  fun item hmem => ⟨item, h hmem, .refl item⟩

/-- Only the packet under the cursor was touched. -/
theorem stays_of_touched {l : CursorList OutgoingPacket} {item item' : OutgoingPacket}
    {rest : List OutgoingPacket} (h : l.pending = item :: rest) (htouched : Touched cfg item item') :
    Stays cfg l ⟨l.passed, item' :: rest⟩ := by
  intro other hmem
  rw [CursorList.items, List.mem_append, List.mem_cons] at hmem
  rw [CursorList.items, h]
  rcases hmem with hmem | rfl | hmem
  · exact ⟨other, List.mem_append_left _ hmem, .refl other⟩
  · exact ⟨item, by simp, htouched⟩
  · exact ⟨other, by simp [hmem], .refl other⟩

theorem sendPacket_stays (env : Env cfg) (c : MqttClient cfg) :
    Stays cfg c.outbox (c.sendPacket env).2.outbox := by
  rcases sendPacket_cases env c with ⟨-, h⟩ | ⟨item, rest, available, packet, hpending, havailable, h⟩
  · rw [h]
    exact stays_of_subset (List.Subset.refl _)
  · have hreads := Packet.reads_of_available havailable
    rcases h with ⟨-, h⟩ | ⟨-, timeSent, activity, h⟩ <;> rw [h]
    · exact stays_of_touched hpending ⟨rfl, hreads⟩
    · exact stays_of_touched hpending ⟨rfl, hreads⟩

theorem leave_stays {outbox : CursorList OutgoingPacket} {item : OutgoingPacket}
    (h : outbox.getCurrent = some item) : Stays cfg outbox (leave outbox item) := by
  obtain ⟨rest, hpending⟩ := getCurrent_eq_some.mp h
  rw [leave_eq hpending]
  split_ifs
  · apply stays_of_subset
    rw [CursorList.items, CursorList.items, hpending]
    intro other hmem
    simp only [List.mem_append, List.mem_cons] at hmem ⊢
    tauto
  · intro other hmem
    rw [CursorList.items, List.append_assoc, List.singleton_append] at hmem
    exact stays_of_touched hpending (kept_touched item) other hmem

@[simp] theorem outbox_farewell (c : MqttClient cfg) (packet : Packet) :
    (c.farewell packet).outbox = c.outbox := by
  rw [farewell]
  split_ifs <;> rfl

theorem advanceOutbox_stays (c : MqttClient cfg) : Stays cfg c.outbox c.advanceOutbox.2.outbox := by
  rcases advanceOutbox_cases c with ⟨h, -⟩ | ⟨item, hcurrent, -, h⟩ <;> rw [h]
  · exact stays_of_subset (List.Subset.refl _)
  · show Stays cfg c.outbox (leave (c.farewell item.packet).outbox item)
    rw [outbox_farewell]
    exact leave_stays hcurrent

theorem filter_stays (l : CursorList OutgoingPacket) (keep : OutgoingPacket → Bool) :
    Stays cfg l (l.filter keep) := by
  apply stays_of_subset
  rw [CursorList.items_filter]
  exact List.filter_sublist.subset

theorem sendRound_stays (env : Env cfg) (c : MqttClient cfg) : Stays cfg c.outbox (c.sendRound env).outbox := by
  rw [sendRound]
  split_ifs
  · exact (sendPacket_stays env c).trans (advanceOutbox_stays _)
  · exact sendPacket_stays env c

theorem admit_stays (c : MqttClient cfg) : Stays cfg c.outbox c.admitted.outbox := by
  have hadvance : Stays cfg c.outbox c.connectedNow.advanceOutbox.2.outbox :=
    advanceOutbox_stays c.connectedNow
  rw [admitted]
  split_ifs
  · rw [outbox_clearQueue]
    exact hadvance.trans (filter_stays _ _)
  · exact hadvance

/-- **Where the packets come from**: they were there before, or they were built just now. -/
theorem Flow.items {c c' : MqttClient cfg} (h : Flow env c c') : ∀ item' ∈ c'.outbox.items,
    (∃ item ∈ c.outbox.items, Touched cfg item item') ∨ (Built cfg item'.packet ∧ item'.added = c.tick) := by
  have hpush : ∀ {packet : Packet}, Built cfg packet → ∀ item' ∈ (c.push packet).outbox.items,
      (∃ item ∈ c.outbox.items, Touched cfg item item') ∨
        (Built cfg item'.packet ∧ item'.added = c.tick) := by
    intro packet hbuilt item' hmem
    rw [show (c.push packet).outbox.items = c.outbox.items ++ [_] from CursorList.items_emplace _ _,
      List.mem_append, List.mem_singleton] at hmem
    rcases hmem with hmem | rfl
    · exact .inl ⟨item', hmem, .refl item'⟩
    · exact .inr ⟨hbuilt, rfl⟩
  cases h with
  | keep h =>
    rw [h.outbox]
    exact fun item hmem => .inl ⟨item, hmem, .refl item⟩
  | connect hstate hpacket =>
    rintro item' (_ | ⟨_, hmem⟩)
    · exact .inr ⟨.connect hpacket, rfl⟩
    · exact .inl ⟨item', hmem, .refl item'⟩
  | request h => exact hpush h.built
  | answer _ _ htype hid hpacket => exact hpush (.ack htype hid hpacket)
  | addDisconnect _ _ hpacket => exact hpush (.control (by simp) hpacket)
  | remove =>
    intro item' hmem
    exact .inl ⟨item', CursorList.mem_items_of_mem_remove hmem, .refl item'⟩
  | clearQueue deleteSessionData =>
    rw [clearQueueApi, outbox_clearQueue]
    exact fun item' hmem => .inl (filter_stays _ _ item' hmem)
  | sendConnect => exact fun item' hmem => .inl (sendPacket_stays env c item' hmem)
  | sendRound => exact fun item' hmem => .inl (sendRound_stays env c item' hmem)
  | accept => exact fun item' hmem => .inl (admit_stays c item' hmem)
  | close =>
    intro item' hmem
    refine .inl (filter_stays c.outbox (keeps 0) item' ?_)
    rwa [← outbox_clearQueue]
  | _ => exact fun item hmem => .inl ⟨item, hmem, .refl item⟩

/-! ### What is true of all of them -/

/-- What a client knows of the packets it builds. -/
structure Proper (packet : Packet) : Prop extends Packet.Formed packet where
  identified : packet.packetType = PacketType.PUBREC ∨ packet.packetType = PacketType.PUBREL →
    packet.packetId ≠ 0
  farewell : packet.packetType = PacketType.DISCONNECT → packet.packetId = 0 →
    packet.getPayload = none ∧ packet.size = 2

theorem Proper.reads {p q : Packet} (h : Proper p) (hreads : Packet.Reads cfg p q) : Proper q where
  toFormed := hreads.formed h.toFormed
  identified := by
    rw [hreads.packetType h.toFormed, hreads.packetId]
    exact h.identified
  farewell := by
    rw [hreads.packetType h.toFormed, hreads.packetId, hreads.getPayload, hreads.size]
    exact h.farewell

/-- A packet with a packet id is proper. -/
theorem proper_of_packetId {packet : Packet} (hformed : packet.Formed) (hid : packet.packetId ≠ 0) :
    Proper packet :=
  ⟨hformed, fun _ => hid, fun _ hzero => absurd hzero hid⟩

/-- A packet that is of none of the types in question is proper. -/
theorem proper_of_type {packet : Packet} (hformed : packet.Formed) {type : MQTTPacketType}
    (htype : packet.packetType = type ∨ packet.packetType = 0)
    (hother : type ∉ [PacketType.PUBREC, PacketType.PUBREL, PacketType.DISCONNECT]) : Proper packet := by
  simp only [List.mem_cons, List.not_mem_nil, or_false, not_or] at hother
  refine ⟨hformed, fun h => absurd h ?_, fun h => absurd h ?_⟩
  · rcases htype with htype | htype <;> rw [htype]
    · exact not_or.mpr ⟨hother.1, hother.2.1⟩
    · decide
  · rcases htype with htype | htype <;> rw [htype]
    · exact hother.2.2
    · decide

theorem proper_of_publish {packet : Packet} {packetId : UInt16} {qos : Byte} (hformed : packet.Formed)
    (hid : qos ≠ 0 → packetId ≠ 0) (hpacketId : packet.packetId = if qos = 0 then 0 else packetId)
    (htype : qos ≤ 2 → packet.packetType = PacketType.PUBLISH ∨ packet.packetType = 0) : Proper packet := by
  by_cases hqos : qos = 0
  · exact proper_of_type hformed (htype (by rw [hqos]; decide)) (by decide)
  · rw [if_neg hqos] at hpacketId
    exact proper_of_packetId hformed (hpacketId ▸ hid hqos)

theorem Built.proper {packet : Packet} (h : Built cfg packet) : Proper packet := by
  cases h with
  | connect h =>
    obtain ⟨alloc, h⟩ := h
    obtain ⟨hformed, -, -, htype, -⟩ := Packet.connect_built h
    exact proper_of_type hformed htype (by decide)
  | publish hid h =>
    obtain ⟨alloc, h⟩ := h
    obtain ⟨hformed, hpacketId, -, htype⟩ := Packet.publish_built h
    exact proper_of_publish hformed hid hpacketId htype
  | publishChunked hid h =>
    obtain ⟨alloc, h⟩ := h
    obtain ⟨hformed, hpacketId, -, htype⟩ := Packet.publishChunked_built h
    exact proper_of_publish hformed hid hpacketId htype
  | subscribe hid h =>
    obtain ⟨alloc, h⟩ := h
    obtain ⟨hformed, hpacketId, -⟩ := Packet.subscribe_built h
    exact proper_of_packetId hformed (hpacketId ▸ hid)
  | unsubscribe hid h =>
    obtain ⟨alloc, h⟩ := h
    obtain ⟨hformed, hpacketId, -⟩ := Packet.unsubscribe_built h
    exact proper_of_packetId hformed (hpacketId ▸ hid)
  | ack _ hid h =>
    obtain ⟨alloc, h⟩ := h
    obtain ⟨hformed, hpacketId, -⟩ := Packet.ack_built h
    exact proper_of_packetId hformed (hpacketId ▸ hid)
  | control htype h =>
    obtain ⟨alloc, h⟩ := h
    obtain ⟨hformed, -, -, htype'⟩ := Packet.control_built h
    have hspec := Packet.control_spec h
    refine ⟨hformed, fun hrec => absurd hrec ?_, fun _ _ => by rw [hspec]; exact ⟨rfl, rfl⟩⟩
    simp only [List.mem_cons, List.not_mem_nil, or_false] at htype
    rcases htype with rfl | rfl <;> rcases htype' with htype' | htype' <;> rw [htype'] <;> decide

theorem Built.bounded {packet : Packet} (h : Built cfg packet) : packet.Bounded cfg := by
  cases h with
  | connect h =>
    obtain ⟨alloc, h⟩ := h
    exact Packet.connect_bounded h
  | publish _ h =>
    obtain ⟨alloc, h⟩ := h
    exact Packet.publish_bounded h
  | publishChunked _ h =>
    obtain ⟨alloc, h⟩ := h
    exact Packet.publishChunked_bounded h
  | subscribe _ h =>
    obtain ⟨alloc, h⟩ := h
    exact Packet.subscribe_bounded h
  | unsubscribe _ h =>
    obtain ⟨alloc, h⟩ := h
    exact Packet.unsubscribe_bounded h
  | ack _ _ h =>
    obtain ⟨alloc, h⟩ := h
    exact Packet.ack_bounded h
  | control _ h =>
    obtain ⟨alloc, h⟩ := h
    exact Packet.control_bounded h

/-- A queue of proper packets. -/
def QueuesProper (c : MqttClient cfg) : Prop := ∀ item ∈ c.outbox.items, Proper item.packet

theorem Flow.queuesProper {c c' : MqttClient cfg} (h : Flow env c c') (hc : c.QueuesProper) :
    c'.QueuesProper := by
  intro item' hmem
  rcases h.items item' hmem with ⟨item, hmem, htouched⟩ | ⟨hbuilt, -⟩
  · exact (hc item hmem).reads htouched.reads
  · exact hbuilt.proper

theorem Flows.queuesProper {c c' : MqttClient cfg} (h : Flows env c c') (hc : c.QueuesProper) :
    c'.QueuesProper := by
  induction h with
  | refl => exact hc
  | tail _ hflow ih => exact hflow.queuesProper ih

/-- A queue of packets whose positions can be counted. -/
def QueuesBounded (c : MqttClient cfg) : Prop := ∀ item ∈ c.outbox.items, item.packet.Bounded cfg

end MqttClient

end EspMqttClient
