/-
  The send loop drains the queue.

  `Drains` says what one call of `_checkOutbox` comes to when all the packets are sent from their
  buffers: which of them are done, which are left, and what was written.  `drains_iff` says when it
  holds: the number of bytes that the transport took goes through an `int`, so no packet may have
  2^31 bytes to write.
-/
import EspMqttClient.MqttClient.Equiv.Queued

namespace EspMqttClient

/-- A packet that is sent from its buffer. -/
structure Packet.Buffered (cfg : Config) (p : Packet) : Prop where
  getPayload : p.getPayload = none
  size : p.size = p.data.length
  size_lt : p.size < cfg.sizeMod

/-- The packet with the DUP flag, if it is a PUBLISH with a packet id. -/
def Packet.completed (p : Packet) : Packet :=
  if p.packetType = PacketType.PUBLISH ∧ p.packetId ≠ 0 then { p with data := p.data.modifyHead (· ||| 0x08) }
  else p

namespace MqttClient

variable {cfg : Config} {env : Env cfg}

/-! ### What there is to send -/

/-- The packets from the current one on. -/
def queued (c : MqttClient cfg) : List Packet := c.outbox.pending.map (·.packet)

/-- How many bytes there are left of each of them. -/
def remaining (c : MqttClient cfg) : List ℕ :=
  match c.queued with
  | [] => []
  | packet :: rest => (packet.size - c.bytesSent) :: rest.map Packet.size

/-- The packets that are to be sent are sent from their buffers, and no more of the current one was written than
there is. -/
structure Buffers (c : MqttClient cfg) : Prop where
  packets : ∀ packet ∈ c.queued, packet.Buffered cfg
  current : ∀ packet ∈ c.queued.head?, c.bytesSent ≤ packet.size

/-- These bytes were written in the meantime. -/
def Writes (c c' : MqttClient cfg) (bytes : List Byte) : Prop :=
  ∃ news : Log, c'.log = news ++ c.log ∧ news.reverse.flatMap (·.event.writtenBytes) = bytes

/-- `done` are the packets that were completed, `left` the others, and `bytes` were written. -/
structure Drains (c c' : MqttClient cfg) (done left : List Packet) (bytes : List Byte) : Prop where
  queued : c.queued = done ++ left
  writes : Writes c c' bytes
  wrote : bytes <+: (c.queued.flatMap Packet.data).drop c.bytesSent
  passed : c'.outbox.passed.map (·.packet) =
    c.outbox.passed.map (·.packet) ++ (done.filter (! ·.removable)).map Packet.completed
  pending : c'.queued = left
  count : c'.bytesSent + (done.map Packet.size).sum = c.bytesSent + bytes.length
  current : ∀ packet ∈ left.head?, c'.bytesSent < packet.size

theorem kept_packet (item : OutgoingPacket) : (kept item).packet = item.packet.completed := by
  rw [kept, Packet.completed, OutgoingPacket.isType]
  by_cases htype : item.packet.packetType = PacketType.PUBLISH
  · have hdata : item.packet.data ≠ [] := by
      intro hnil
      rw [Packet.packetType, hnil] at htype
      exact absurd htype (by decide)
    rw [if_pos (decide_eq_true htype), Packet.setDup, if_neg hdata, if_neg (not_not.mpr htype)]
    by_cases hid : item.packet.packetId = 0
    · rw [if_pos hid, if_neg fun h => h.2 hid]
    · rw [if_neg hid, if_pos ⟨htype, hid⟩]
  · rw [if_neg (by simpa using htype), if_neg fun h => htype h.1]

theorem queued_of_pending {c : MqttClient cfg} {item : OutgoingPacket} {rest : List OutgoingPacket}
    (h : c.outbox.pending = item :: rest) : c.queued = item.packet :: rest.map (·.packet) := by
  rw [queued, h, List.map_cons]

theorem remaining_of_pending {c : MqttClient cfg} {item : OutgoingPacket} {rest : List OutgoingPacket}
    (h : c.outbox.pending = item :: rest) :
    c.remaining = (item.packet.size - c.bytesSent) :: (rest.map (·.packet)).map Packet.size := by
  rw [remaining, queued_of_pending h]

/-- Nothing was written of the next packet. -/
theorem remaining_of_zero {c : MqttClient cfg} (h : c.bytesSent = 0) :
    c.remaining = c.queued.map Packet.size := by
  rw [remaining, h]
  cases c.queued with
  | nil => rfl
  | cons packet rest => rfl

theorem sum_remaining_le (c : MqttClient cfg) : c.remaining.sum ≤ c.unsent := by
  rw [remaining, unsent, queued]
  cases c.outbox.pending with
  | nil => exact le_rfl
  | cons item rest =>
    simp only [List.map_cons, List.sum_cons, List.map_map, Function.comp_def]
    omega

/-! ### One round -/

/-- A number below 2^31 goes through an `int` as it is. -/
theorem bmod_of_lt {n : ℕ} (h : n < 2 ^ 31) : (n : ℤ).bmod (2 ^ 32) = n := by
  rw [Int.bmod_def]
  omega

/-- The number 2^31 does not. -/
theorem bmod_of_eq {n : ℕ} (h : n = 2 ^ 31) : (n : ℤ).bmod (2 ^ 32) < 0 := by
  rw [Int.bmod_def]
  omega

/-- The cursor leaves the current packet, which was written to its end. -/
def complete (c : MqttClient cfg) (item : OutgoingPacket) : MqttClient cfg :=
  ((c.farewell item.packet).note (.sent item.packet)).leaveCurrent item

theorem advanceOutbox_of_eq {c : MqttClient cfg} {item : OutgoingPacket}
    (hcurrent : c.outbox.getCurrent = some item) (hsize : c.bytesSent = item.packet.size) :
    c.advanceOutbox = ((c.complete item).outbox.getCurrent.isSome, c.complete item) := by
  rw [advanceOutbox, hcurrent]
  dsimp only
  rw [if_pos hsize, complete, leaveCurrent, farewell]

theorem advanceOutbox_of_ne {c : MqttClient cfg} {item : OutgoingPacket}
    (hcurrent : c.outbox.getCurrent = some item) (hsize : c.bytesSent ≠ item.packet.size) :
    c.advanceOutbox = (true, c) := by
  rw [advanceOutbox, hcurrent]
  dsimp only
  rw [if_neg hsize]

theorem checkOutboxLoop_of_nil {c : MqttClient cfg} (h : c.outbox.pending = []) (fuel : ℕ) :
    c.checkOutboxLoop env fuel = c := by
  cases fuel with
  | zero => rfl
  | succ fuel =>
    have hsend : c.sendPacket env = (0, c) := by
      rw [sendPacket, getCurrent_eq_none.mpr h]
    rw [checkOutboxLoop, hsend]
    rfl

section

variable {c : MqttClient cfg} {item : OutgoingPacket} {rest : List OutgoingPacket}

/-- The rest of a packet in a buffer is handed to the transport, which takes some of it. -/
theorem sendPacket_taken (hpending : c.outbox.pending = item :: rest) (hbuffered : item.packet.Buffered cfg)
    (hlt : c.bytesSent < item.packet.size)
    (hwrite : 0 ≤ env.write (c.tick + 1) (item.packet.size - c.bytesSent)) :
    ∃ (n : ℕ) (timeSent activity : UInt32), (n : ℤ) = env.write (c.tick + 1) (item.packet.size - c.bytesSent) ∧
      c.bytesSent + n ≤ item.packet.size ∧
      c.sendPacket env = ((n : ℤ).bmod (2 ^ 32), c.wrote item rest n timeSent activity) ∧
      (c.wrote item rest n timeSent activity).bytesSent = c.bytesSent + n := by
  have hle := env.write_le (c.tick + 1) (item.packet.size - c.bytesSent)
  have hmod := hbuffered.size_lt
  obtain ⟨n, hn⟩ := Int.eq_ofNat_of_zero_le hwrite
  rcases sendPacket_cases env c with ⟨hnil, -⟩ | ⟨item', rest', available, packet, hpending', havailable, h⟩
  · rw [hpending] at hnil
    cases hnil
  obtain ⟨rfl, rfl⟩ := List.cons.inj (hpending.symm.trans hpending')
  rw [Packet.available_buffered hbuffered.getPayload] at havailable
  obtain ⟨rfl, rfl⟩ := Prod.mk.inj havailable
  rcases h with ⟨hzero, -⟩ | ⟨-, timeSent, activity, h⟩
  · omega
  have hcount : ((n : ℤ) % cfg.sizeMod).toNat = n := by
    rw [toNat_emod_sizeMod (by omega) (by omega), Int.toNat_natCast]
  refine ⟨n, timeSent, activity, hn.symm, by omega, ?_, ?_⟩
  · rw [h, hn, hcount]
  · show cfg.wrap (c.bytesSent + ((n : ℤ) % cfg.sizeMod).toNat) = c.bytesSent + n
    rw [hcount, cfg.wrap_of_lt (by omega)]

/-- What is written of a packet in a buffer. -/
theorem writtenBytes_written (hbuffered : item.packet.Buffered cfg) (n : ℕ) :
    (c.written item rest n).event.writtenBytes = (item.packet.data.drop c.bytesSent).take n := by
  show ((item.packet.dataAt c.bytesSent).take (n : ℤ).toNat) = _
  rw [Packet.dataAt, hbuffered.getPayload, Int.toNat_natCast]

/-- Without a byte the loop ends. -/
theorem checkOutboxLoop_stops {result : ℤ} {c' : MqttClient cfg} (hsend : c.sendPacket env = (result, c'))
    (hresult : ¬ 0 < result) (fuel : ℕ) : c.checkOutboxLoop env (fuel + 1) = c' := by
  rw [checkOutboxLoop, hsend]
  dsimp only
  rw [if_neg hresult]

/-- As long as there is more of the packet the loop goes on with it. -/
theorem checkOutboxLoop_within {result : ℤ} {c' : MqttClient cfg} (hsend : c.sendPacket env = (result, c'))
    (hresult : 0 < result) {item : OutgoingPacket} (hcurrent : c'.outbox.getCurrent = some item)
    (hsize : c'.bytesSent ≠ item.packet.size) (fuel : ℕ) :
    c.checkOutboxLoop env (fuel + 1) = c'.checkOutboxLoop env fuel := by
  rw [checkOutboxLoop, hsend]
  dsimp only
  rw [if_pos hresult, advanceOutbox_of_ne hcurrent hsize]
  rfl

/-- Behind its end the loop goes on with the next one. -/
theorem checkOutboxLoop_completes {result : ℤ} {c' : MqttClient cfg} (hsend : c.sendPacket env = (result, c'))
    (hresult : 0 < result) {item : OutgoingPacket} (hcurrent : c'.outbox.getCurrent = some item)
    (hsize : c'.bytesSent = item.packet.size) (fuel : ℕ) :
    c.checkOutboxLoop env (fuel + 1) = (c'.complete item).checkOutboxLoop env fuel := by
  rw [checkOutboxLoop, hsend]
  dsimp only
  rw [if_pos hresult, advanceOutbox_of_eq hcurrent hsize]
  dsimp only
  split_ifs with hmore
  · rfl
  · rw [Bool.not_eq_true, Option.isSome_eq_false_iff, Option.isNone_iff_eq_none] at hmore
    exact (checkOutboxLoop_of_nil (getCurrent_eq_none.mp hmore) fuel).symm

end

/-! ### The whole loop -/

theorem Writes.trans {c c' c'' : MqttClient cfg} {bytes bytes' : List Byte} (h : Writes c c' bytes)
    (h' : Writes c' c'' bytes') : Writes c c'' (bytes ++ bytes') := by
  obtain ⟨news, hlog, rfl⟩ := h
  obtain ⟨news', hlog', rfl⟩ := h'
  refine ⟨news' ++ news, ?_, ?_⟩
  · rw [hlog', hlog, List.append_assoc]
  · rw [List.reverse_append, List.flatMap_append]

theorem writes_complete (c : MqttClient cfg) (item : OutgoingPacket) : Writes c (c.complete item) [] := by
  rw [complete, farewell]
  split_ifs
  · exact ⟨[_, _], rfl, rfl⟩
  · exact ⟨[_], rfl, rfl⟩

/-- When nothing was written yet of the packet under the cursor, nothing is done. -/
theorem Drains.refl {c : MqttClient cfg} (hcurrent : ∀ packet ∈ c.queued.head?, c.bytesSent < packet.size) :
    Drains c c [] c.queued [] where
  queued := rfl
  writes := ⟨[], rfl, rfl⟩
  wrote := List.nil_prefix
  passed := (List.append_nil _).symm
  pending := rfl
  count := rfl
  current := hcurrent

section

variable {c c' : MqttClient cfg} {item : OutgoingPacket} {rest : List OutgoingPacket}
  {done left : List Packet} {bytes : List Byte}

/-- The bytes that go out first are those of the packet under the cursor. -/
theorem Drains.after_write (hpending : c.outbox.pending = item :: rest) (hbuffered : item.packet.Buffered cfg)
    {n : ℕ} {timeSent activity : UInt32} (hn : c.bytesSent + n ≤ item.packet.size)
    (hbytesSent : (c.wrote item rest n timeSent activity).bytesSent = c.bytesSent + n)
    (h : Drains (c.wrote item rest n timeSent activity) c' done left bytes) :
    Drains c c' done left ((item.packet.data.drop c.bytesSent).take n ++ bytes) := by
  have hqueued := queued_of_pending hpending
  have hqueued' : (c.wrote item rest n timeSent activity).queued = c.queued := hqueued.symm
  have hlength : ((item.packet.data.drop c.bytesSent).take n).length = n := by
    rw [List.length_take, List.length_drop, ← hbuffered.size]
    omega
  refine ⟨hqueued'.symm.trans h.queued, ?_, ?_, h.passed, h.pending, ?_, h.current⟩
  · refine Writes.trans ⟨[_], log_wrote c item rest n timeSent activity, ?_⟩ h.writes
    rw [List.reverse_singleton, List.flatMap_singleton, writtenBytes_written hbuffered]
  · have hwrote := h.wrote
    rw [hqueued', hbytesSent, ← List.drop_drop] at hwrote
    have htake : (item.packet.data.drop c.bytesSent).take n =
        ((c.queued.flatMap Packet.data).drop c.bytesSent).take n := by
      rw [hqueued, List.flatMap_cons, List.drop_append_of_le_length (by rw [← hbuffered.size]; omega),
        List.take_append_of_le_length (by rw [List.length_drop, ← hbuffered.size]; omega)]
    rw [htake]
    conv_rhs => rw [← List.take_append_drop n ((c.queued.flatMap Packet.data).drop c.bytesSent)]
    exact (List.prefix_append_right_inj _).mpr hwrote
  · have hcount := h.count
    rw [hbytesSent] at hcount
    rw [List.length_append, hlength]
    omega

/-- The packets behind the one that is completed. -/
theorem queued_complete (hpending : c.outbox.pending = item :: rest) :
    (c.complete item).queued = rest.map (·.packet) := by
  show ((leave (c.farewell item.packet).outbox item).pending).map _ = _
  rw [outbox_farewell, leave_eq hpending]
  split_ifs <;> rfl

/-- A packet that was written to its end is done. -/
theorem Drains.after_complete (hpending : c.outbox.pending = item :: rest)
    (hbuffered : item.packet.Buffered cfg) (hsize : c.bytesSent = item.packet.size)
    (h : Drains (c.complete item) c' done left bytes) : Drains c c' (item.packet :: done) left bytes := by
  have houtbox : (c.complete item).outbox = leave c.outbox item := by
    show leave (c.farewell item.packet).outbox item = _
    rw [outbox_farewell]
  have hqueued := queued_of_pending hpending
  rw [leave_eq hpending] at houtbox
  have hrest := queued_complete hpending
  refine ⟨?_, ?_, ?_, ?_, h.pending, ?_, h.current⟩
  · rw [hqueued, List.cons_append, ← h.queued, hrest]
  · exact (writes_complete c item).trans h.writes
  · have hwrote := h.wrote
    rw [hrest, show (c.complete item).bytesSent = 0 from rfl, List.drop_zero] at hwrote
    rw [hqueued, List.flatMap_cons, hsize, hbuffered.size, List.drop_left]
    exact hwrote
  · rw [h.passed, houtbox, List.filter_cons]
    cases item.packet.removable with
    | true => rfl
    | false =>
      rw [if_neg Bool.false_ne_true, if_pos Bool.not_false]
      simp only [List.map_append, List.map_cons, List.map_nil, List.append_assoc, List.singleton_append,
        kept_packet]
  · have hcount := h.count
    rw [show (c.complete item).bytesSent = 0 from rfl] at hcount
    rw [List.map_cons, List.sum_cons]
    omega

theorem Buffers.wrote (hc : c.Buffers) (hpending : c.outbox.pending = item :: rest) {n : ℕ}
    {timeSent activity : UInt32} (hn : c.bytesSent + n ≤ item.packet.size)
    (hbytesSent : (c.wrote item rest n timeSent activity).bytesSent = c.bytesSent + n) :
    (c.wrote item rest n timeSent activity).Buffers := by
  have hqueued : (c.wrote item rest n timeSent activity).queued = c.queued := (queued_of_pending hpending).symm
  refine ⟨hqueued ▸ hc.packets, ?_⟩
  rintro packet hpacket
  obtain rfl : packet = item.packet := (Option.some.inj hpacket).symm
  rw [hbytesSent]
  exact hn

theorem Buffers.complete (hc : c.Buffers) (hpending : c.outbox.pending = item :: rest) :
    (c.complete item).Buffers := by
  refine ⟨fun packet hmem => hc.packets packet ?_, fun packet _ => Nat.zero_le _⟩
  rw [queued_complete hpending] at hmem
  rw [queued_of_pending hpending]
  exact List.mem_cons_of_mem _ hmem

end

/-- **Enough**: without a packet of 2^31 bytes the loop drains the queue. -/
theorem drains_of_short (hwrite : ∀ tick size, 0 ≤ env.write tick size) (n : ℕ) {c : MqttClient cfg}
    (hc : c.Buffers) (hshort : ∀ left ∈ c.remaining, 0 < left ∧ left < 2 ^ 31) (hn : c.remaining.sum < n) :
    ∃ c' done left bytes, Drains c c' done left bytes ∧ ∀ fuel, n ≤ fuel → c.checkOutboxLoop env fuel = c' := by
  -- each round takes a byte at least of what remains, or is the last
  induction n generalizing c with
  | zero => exact absurd hn (Nat.not_lt_zero _)
  | succ n ih =>
    cases hpending : c.outbox.pending with
    | nil =>
      have hqueued : c.queued = [] := by rw [queued, hpending, List.map_nil]
      exact ⟨c, _, _, _, Drains.refl (by rw [hqueued]; nofun),
        fun fuel _ => checkOutboxLoop_of_nil hpending fuel⟩
    | cons item rest =>
      have hqueued := queued_of_pending hpending
      have hbuffered := hc.packets item.packet (by rw [hqueued]; exact List.mem_cons_self)
      rw [remaining_of_pending hpending] at hshort hn
      rw [List.forall_mem_cons] at hshort
      rw [List.sum_cons] at hn
      obtain ⟨⟨hpos, hlt⟩, hrest⟩ := hshort
      obtain ⟨written, timeSent, activity, -, hle, hsend, hbytesSent⟩ :=
        sendPacket_taken hpending hbuffered (by omega) (hwrite _ _)
      rw [bmod_of_lt (by omega)] at hsend
      have hcurrent : ∀ fuel, n + 1 ≤ fuel → ∃ fuel', fuel = fuel' + 1 ∧ n ≤ fuel' := fun fuel hfuel =>
        ⟨fuel - 1, by omega, by omega⟩
      rcases Nat.lt_trichotomy (c.bytesSent + written) item.packet.size with hwithin | hend | hbeyond
      · rcases Nat.eq_zero_or_pos written with rfl | hwritten
        · -- the transport takes nothing
          refine ⟨_, _, _, _, Drains.after_write hpending hbuffered hle hbytesSent (.refl ?_), ?_⟩
          · rintro packet hpacket
            obtain rfl : packet = item.packet := (Option.some.inj hpacket).symm
            omega
          · intro fuel hfuel
            obtain ⟨fuel, rfl, -⟩ := hcurrent fuel hfuel
            exact checkOutboxLoop_stops hsend (by omega) fuel
        · -- the transport takes a part
          have hremaining : (c.wrote item rest written timeSent activity).remaining =
              (item.packet.size - (c.bytesSent + written)) :: (rest.map (·.packet)).map Packet.size := by
            rw [← hbytesSent]
            rfl
          obtain ⟨c', done, left, bytes, hdrains, hloop⟩ := ih (hc.wrote hpending hle hbytesSent)
            (by
              rw [hremaining, List.forall_mem_cons]
              exact ⟨by omega, hrest⟩)
            (by
              rw [hremaining, List.sum_cons]
              omega)
          refine ⟨c', done, left, _, hdrains.after_write hpending hbuffered hle hbytesSent, ?_⟩
          intro fuel hfuel
          obtain ⟨fuel, rfl, hfuel'⟩ := hcurrent fuel hfuel
          have hmore : (c.wrote item rest written timeSent activity).bytesSent ≠ item.packet.size := by omega
          rw [checkOutboxLoop_within hsend (by omega) rfl hmore]
          exact hloop fuel hfuel'
      · -- the transport takes all there is
        have hremaining : ((c.wrote item rest written timeSent activity).complete
            { item with timeSent }).remaining = (rest.map (·.packet)).map Packet.size := by
          rw [remaining_of_zero rfl, queued_complete rfl]
        obtain ⟨c', done, left, bytes, hdrains, hloop⟩ :=
          ih ((hc.wrote hpending hle hbytesSent).complete rfl) (hremaining ▸ hrest)
            (by rw [hremaining]; omega)
        refine ⟨c', _, left, _, Drains.after_write hpending hbuffered hle hbytesSent
          (hdrains.after_complete rfl hbuffered (hbytesSent.trans hend)), ?_⟩
        intro fuel hfuel
        obtain ⟨fuel, rfl, hfuel'⟩ := hcurrent fuel hfuel
        rw [checkOutboxLoop_completes hsend (by omega) rfl (hbytesSent.trans hend)]
        exact hloop fuel hfuel'
      · omega

/-! ### A packet that is too long -/

/-- A transport that takes all there is, but no more than 2^31 bytes, and of more than that a byte at a time. -/
def cautiousEnv (cfg : Config) : Env cfg where
  __ := ({} : Script).env cfg
  write _ size := if size ≤ 2 ^ 31 then size else 1
  le_write _ size := by
    split_ifs <;> omega
  write_le _ size := by
    split_ifs with h <;> omega

theorem cautiousEnv_nonneg (tick size : ℕ) : 0 ≤ (cautiousEnv cfg).write tick size := by
  show 0 ≤ if size ≤ 2 ^ 31 then (size : ℤ) else 1
  split_ifs <;> omega

/-- There is nothing left of the packet under the cursor, and it is still there. -/
def Stalled (c : MqttClient cfg) : Prop := ∃ packet ∈ c.queued.head?, packet.size ≤ c.bytesSent

theorem Drains.not_stalled {c c' : MqttClient cfg} {done left : List Packet} {bytes : List Byte}
    (h : Drains c c' done left bytes) : ¬ c'.Stalled := by
  rintro ⟨packet, hpacket, hle⟩
  rw [h.pending] at hpacket
  exact absurd (h.current packet hpacket) (Nat.not_lt.mpr hle)

/-- **Needed**: at a packet of which there are 2^31 bytes left, or none, the loop stalls. -/
theorem stalls_of_long (n : ℕ) {c : MqttClient cfg} (hc : c.Buffers)
    (hlong : ∃ left ∈ c.remaining, ¬ (0 < left ∧ left < 2 ^ 31)) (hn : c.remaining.sum < n) :
    (c.checkOutboxLoop (cautiousEnv cfg) n).Stalled := by
  -- the rounds come to the packet in question, since what is in front of it goes out whole
  induction n generalizing c with
  | zero => exact absurd hn (Nat.not_lt_zero _)
  | succ n ih =>
    obtain ⟨left, hmem, hleft⟩ := hlong
    cases hpending : c.outbox.pending with
    | nil =>
      rw [remaining, queued, hpending] at hmem
      cases hmem
    | cons item rest =>
      have hqueued := queued_of_pending hpending
      have hbuffered := hc.packets item.packet (by rw [hqueued]; exact List.mem_cons_self)
      have hcurrent := hc.current item.packet (by rw [hqueued]; rfl)
      rw [remaining_of_pending hpending] at hmem hn
      rw [List.sum_cons] at hn
      rcases Nat.eq_or_lt_of_le hcurrent with hend | hlt
      · -- nothing is left of the packet
        rcases sendPacket_buffered (cautiousEnv cfg) hpending hbuffered.getPayload with ⟨-, hsend⟩ | ⟨hmore, -⟩
        · rw [checkOutboxLoop_stops hsend (lt_irrefl 0)]
          exact ⟨item.packet, rfl, hend.ge⟩
        · omega
      obtain ⟨written, timeSent, activity, hwritten, hle, hsend, hbytesSent⟩ :=
        sendPacket_taken hpending hbuffered hlt (cautiousEnv_nonneg _ _)
      change (written : ℤ) = if item.packet.size - c.bytesSent ≤ 2 ^ 31 then
        ((item.packet.size - c.bytesSent : ℕ) : ℤ) else 1 at hwritten
      rcases Nat.lt_trichotomy (item.packet.size - c.bytesSent) (2 ^ 31) with hshort | heq | hover
      · -- the packet goes out, and the one in question is behind it
        rw [if_pos hshort.le] at hwritten
        have hend : (c.wrote item rest written timeSent activity).bytesSent = item.packet.size := by omega
        have hremaining : ((c.wrote item rest written timeSent activity).complete
            { item with timeSent }).remaining = (rest.map (·.packet)).map Packet.size := by
          rw [remaining_of_zero rfl, queued_complete rfl]
        rw [bmod_of_lt (by omega)] at hsend
        rw [checkOutboxLoop_completes hsend (by omega) rfl hend]
        apply ih ((hc.wrote hpending hle hbytesSent).complete rfl)
        · refine ⟨left, ?_, hleft⟩
          rw [hremaining]
          rcases List.mem_cons.mp hmem with rfl | hmem
          · exact absurd ⟨by omega, hshort⟩ hleft
          · exact hmem
        · rw [hremaining]
          omega
      · -- all of it is written, but the number is negative
        rw [if_pos heq.le] at hwritten
        have hnegative := @bmod_of_eq written (by omega)
        rw [checkOutboxLoop_stops hsend (by omega)]
        refine ⟨item.packet, rfl, ?_⟩
        omega
      · -- a byte of it is written
        rw [if_neg (by omega)] at hwritten
        obtain rfl : written = 1 := by omega
        have hmore : (c.wrote item rest (1 : ℕ) timeSent activity).bytesSent ≠ item.packet.size := by omega
        have hremaining : (c.wrote item rest (1 : ℕ) timeSent activity).remaining =
            (item.packet.size - (c.bytesSent + 1)) :: (rest.map (·.packet)).map Packet.size := by
          rw [← hbytesSent]
          rfl
        rw [bmod_of_lt (by decide)] at hsend
        rw [checkOutboxLoop_within hsend (by decide) rfl hmore]
        apply ih (hc.wrote hpending hle hbytesSent)
        · refine ⟨_, hremaining ▸ List.mem_cons_self, ?_⟩
          omega
        · rw [hremaining, List.sum_cons]
          omega

/-- Whatever the transport takes, `_checkOutbox` ends and drains the queue. -/
def DrainsAlways (c : MqttClient cfg) : Prop :=
  ∀ env : Env cfg, (∀ tick size, 0 ≤ env.write tick size) →
    (∃ done left bytes, Drains c (c.checkOutbox env) done left bytes) ∧
    ∀ fuel, c.unsent + 1 ≤ fuel → c.checkOutboxLoop env fuel = c.checkOutbox env

theorem not_drainsAlways_of_long {c : MqttClient cfg} (hc : c.Buffers)
    (hlong : ∃ left ∈ c.remaining, ¬ (0 < left ∧ left < 2 ^ 31)) : ¬ c.DrainsAlways := by
  intro h
  obtain ⟨⟨done, left, bytes, hdrains⟩, -⟩ := h (cautiousEnv cfg) cautiousEnv_nonneg
  apply hdrains.not_stalled
  exact stalls_of_long _ hc hlong (Nat.lt_succ_of_le (sum_remaining_le c))

/-- **The send loop drains the queue exactly**, whatever the transport takes, if and only if there are fewer than
2^31 bytes, and at least one, left of each packet. -/
theorem drains_iff {c : MqttClient cfg} (hc : c.Buffers) :
    c.DrainsAlways ↔ ∀ left ∈ c.remaining, 0 < left ∧ left < 2 ^ 31 := by
  constructor
  · intro h
    by_contra hlong
    exact not_drainsAlways_of_long hc (by simpa only [not_forall, exists_prop] using hlong) h
  · intro hshort env hwrite
    obtain ⟨c', done, left, bytes, hdrains, hloop⟩ :=
      drains_of_short hwrite _ hc hshort (Nat.lt_succ_of_le (sum_remaining_le c))
    have hcheck : c.checkOutbox env = c' := hloop _ le_rfl
    rw [hcheck]
    exact ⟨⟨done, left, bytes, hdrains⟩, hloop⟩

/-- Two acknowledgements, a PUBLISH between them, and 3 bytes of the first one are written. -/
def queueing : MqttClient .linux where
  __ := MqttClient.new .linux ⟨[0x71], by decide⟩
  outbox := ⟨[], [⟨0, { Packet.init 7 none with data := [0x40, 2, 0, 7], size := 4 }, 0⟩,
    ⟨0, { Packet.init 1 none with data := [0x32, 6, 0, 1, 0x61, 0, 1, 5], size := 8 }, 1⟩,
    ⟨0, { Packet.init 8 none with data := [0x50, 2, 0, 8], size := 4 }, 2⟩]⟩
  bytesSent := 3

theorem drains_iff_queueing :
    queueing.DrainsAlways ↔ ∀ left ∈ queueing.remaining, 0 < left ∧ left < 2 ^ 31 := by
  apply drains_iff
  constructor
  · intro packet hmem
    simp only [queued, queueing, List.map_cons, List.map_nil, List.mem_cons, List.not_mem_nil, or_false] at hmem
    rcases hmem with rfl | rfl | rfl <;> exact ⟨rfl, rfl, by decide⟩
  · rintro packet ⟨⟩
    decide

/-- The size of a SUBSCRIBE is what was counted. -/
theorem size_subscribe {alloc : Alloc} {packetId : UInt16} {list : List (CString × Byte)} {packet : Packet}
    (h : Packet.subscribe cfg alloc packetId list = (.SUCCESS, packet)) :
    packet.size = cfg.wrap (1 +
      remainingLengthLength (cfg.wrap (2 + (list.map fun item => 2 + item.1.length + 1).sum) % 2 ^ 32) +
        cfg.wrap (2 + (list.map fun item => 2 + item.1.length + 1).sum)) := by
  rw [Packet.subscribe] at h
  dsimp only at h
  cases halloc : Packet.allocate cfg alloc
    (cfg.wrap (2 + (list.map fun item => 2 + item.1.length + 1).sum)) true with
  | none =>
    rw [halloc] at h
    cases h
  | some b =>
    simp only [halloc] at h
    obtain rfl := (Prod.mk.inj h).2
    dsimp only
    rw [Packet.length_foldl_put _ fun b item => by simp only [Buffer.length_data_put]]
    simp only [Packet.putRemainingLength, Buffer.length_data_put, Packet.allocate_eq halloc,
      Buffer.length_data_fill]

/-- A topic of 2^31 bytes. -/
def longTopic : CString :=
  ⟨List.replicate (2 ^ 31) 0x61, fun h => absurd (List.eq_of_mem_replicate h) (by decide)⟩

/-- A client with a SUBSCRIBE to it. -/
def heavy (packet : Packet) : MqttClient .linux where
  __ := MqttClient.new .linux ⟨[0x68], by decide⟩
  outbox := ⟨[], [⟨0, packet, 0⟩]⟩

/-- All of it is written, and it is not done. -/
theorem not_drainsAlways_heavy : ¬ ∀ c : MqttClient .linux, c.Buffers →
    (∀ packet ∈ c.queued.head?, c.bytesSent < packet.size) → c.DrainsAlways := by
  intro h
  obtain ⟨packet, hpacket⟩ :
      ∃ packet, Packet.subscribe .linux ⟨16384, true, true⟩ 1 [(longTopic, 0)] = (.SUCCESS, packet) := by
    rw [Packet.subscribe]
    dsimp only
    rw [Packet.allocate, if_neg (by decide), if_pos rfl]
    exact ⟨_, rfl⟩
  have hsize := size_subscribe hpacket
  have hlength : longTopic.length = 2 ^ 31 := List.length_replicate
  simp only [List.map_cons, List.map_nil, List.sum_cons, List.sum_nil, hlength] at hsize
  have hvalue : packet.size = 2 ^ 31 + 6 := hsize.trans (by decide)
  have hbuffers : (heavy packet).Buffers := by
    obtain ⟨hformed, -, hnone, -⟩ := Packet.subscribe_built hpacket
    refine ⟨fun other hmem => ?_, fun other _ => Nat.zero_le _⟩
    obtain rfl := List.mem_singleton.mp hmem
    exact ⟨hnone, hformed.buffered hnone, (Packet.subscribe_bounded hpacket).size⟩
  refine not_drainsAlways_of_long hbuffers ⟨packet.size - 0, List.mem_cons_self, ?_⟩ (h _ hbuffers ?_)
  · omega
  · rintro other hother
    obtain rfl : other = packet := (Option.some.inj hother).symm
    show 0 < other.size
    omega

end MqttClient

end EspMqttClient
