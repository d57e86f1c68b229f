/-
  What is sent at most once.

  A packet that is removable is written at most once in a whole run, each byte of it (`run_once`), and none
  is in front of the cursor, so neither a timeout nor a new connection can send one again.
-/
import EspMqttClient.MqttClient.Equiv.Queued

namespace EspMqttClient

/-! ### Properties of a log -/

/-- Was this packet accepted by `publish` with quality of service 0? -/
def Event.isFleeting (added : ℕ) : Event → Bool
  | .publish other _ _ _ qos _ => other = added ∧ qos = 0
  | .publishChunked other _ _ _ _ qos _ => other = added ∧ qos = 0
  | _ => false

/-- A PUBACK, PUBCOMP, PINGREQ, CONNECT or DISCONNECT.  The last three have no packet id, which a PUBLISH with a
quality of service that the header cannot hold has, whatever its first byte. -/
def OutgoingPacket.isSingle (item : OutgoingPacket) : Bool :=
  item.isType PacketType.PUBACK ∨ item.isType PacketType.PUBCOMP ∨ item.packet.packetId = 0 ∧
    (item.isType PacketType.PINGREQ ∨ item.isType PacketType.CONNECT ∨ item.isType PacketType.DISCONNECT)

/-- The positions of this packet that are written. -/
def Record.positions (added : ℕ) (r : Record) : List ℕ :=
  match r.event with
  | .write bytes =>
    if r.outbox.getCurrent.any (·.added = added) then List.range' r.bytesSent bytes.length else []
  | _ => []

/-- The positions of this packet that were written in the whole run, newest first. -/
def Log.positions (log : Log) (added : ℕ) : List ℕ := log.flatMap (·.positions added)

/-- Each byte of a packet that nobody acknowledges was written at most once, and no such packet was ever in
front of the cursor. -/
structure Log.Once (log : Log) : Prop where
  publish : ∀ r ∈ log, ∀ added, r.event.isFleeting added → (log.positions added).Nodup
  single : ∀ r ∈ log, ∀ item ∈ r.outbox.items, item.isSingle → (log.positions item.added).Nodup
  passed : ∀ r ∈ log, ∀ item ∈ r.outbox.passed, item.packet.removable = false

namespace MqttClient

variable {cfg : Config} {env : Env cfg} {kind : ℕ → Bool}

/-! ### Positions -/

theorem positions_cons (r : Record) (log : Log) (added : ℕ) :
    Log.positions (r :: log) added = r.positions added ++ log.positions added := List.flatMap_cons

theorem positions_of_event {r : Record} (h : r.event.isWrite = false) (added : ℕ) : r.positions added = [] := by
  rw [Record.positions]
  split
  · rename_i heq
    rw [heq] at h
    cases h
  · rfl

theorem positions_written (c : MqttClient cfg) (item : OutgoingPacket) (rest : List OutgoingPacket) (result : ℤ)
    (added : ℕ) : (c.written item rest result).positions added =
      if item.added = added then
        List.range' c.bytesSent ((item.packet.dataAt c.bytesSent).take result.toNat).length
      else [] := by
  rw [Record.positions, written]
  dsimp only
  simp only [CursorList.getCurrent, List.head?_cons, Option.any_some, decide_eq_true_eq]

/-! ### The invariant -/

/-- A packet of the queue.  `kind` says of every packet, by the time it was added, whether it is removable. -/
structure Known (cfg : Config) (kind : ℕ → Bool) (tick : ℕ) (item : OutgoingPacket) : Prop where
  proper : Proper item.packet
  bounded : item.packet.Bounded cfg
  added_lt : item.added < tick
  removable : item.packet.removable = kind item.added

/-- What is remembered of a queue. -/
structure Recalled (kind : ℕ → Bool) (tick : ℕ) (outbox : CursorList OutgoingPacket) : Prop where
  known : ∀ item ∈ outbox.items, item.added < tick ∧ item.packet.removable = kind item.added
  passed : ∀ item ∈ outbox.passed, item.packet.removable = false

/-- No removable packet behind the current one was written to, and of the current one only what is in front
of position `n`. -/
def Unsent (log : Log) (n : ℕ) : List OutgoingPacket → Prop
  | [] => True
  | item :: rest => (item.packet.removable → ∀ position ∈ log.positions item.added, position < n) ∧
      ∀ other ∈ rest, other.packet.removable → log.positions other.added = []

structure Tidy (kind : ℕ → Bool) (c : MqttClient cfg) : Prop where
  known : ∀ item ∈ c.outbox.items, Known cfg kind c.tick item
  distinct : (c.outbox.items.map (·.added)).Nodup
  passed : ∀ item ∈ c.outbox.passed, item.packet.removable = false
  unsent : Unsent c.log c.bytesSent c.outbox.pending
  recalled : ∀ r ∈ c.log, Recalled kind c.tick r.outbox
  once : ∀ added, kind added → (c.log.positions added).Nodup
  fleeting : ∀ r ∈ c.log, ∀ added, r.event.isFleeting added → added < c.tick ∧ kind added
  idle : c.state = .disconnected → c.bytesSent = 0

theorem Known.later {tick tick' : ℕ} {item : OutgoingPacket} (h : Known cfg kind tick item)
    (hle : tick ≤ tick') : Known cfg kind tick' item :=
  ⟨h.proper, h.bounded, Nat.lt_of_lt_of_le h.added_lt hle, h.removable⟩

theorem Known.touched {tick : ℕ} {item item' : OutgoingPacket} (h : Known cfg kind tick item)
    (htouched : Touched cfg item item') : Known cfg kind tick item' where
  proper := h.proper.reads htouched.reads
  bounded := h.bounded.reads htouched.reads
  added_lt := htouched.added ▸ h.added_lt
  removable := by
    rw [htouched.reads.removable h.proper.toFormed, htouched.added]
    exact h.removable

theorem Recalled.later {tick tick' : ℕ} {outbox : CursorList OutgoingPacket} (h : Recalled kind tick outbox)
    (hle : tick ≤ tick') : Recalled kind tick' outbox :=
  ⟨fun item hmem => ⟨Nat.lt_of_lt_of_le (h.known item hmem).1 hle, (h.known item hmem).2⟩, h.passed⟩

theorem Tidy.recall {c : MqttClient cfg} (hc : c.Tidy kind) : Recalled kind c.tick c.outbox :=
  ⟨fun item hmem => ⟨(hc.known item hmem).added_lt, (hc.known item hmem).removable⟩, hc.passed⟩

theorem unsent_of_fresh {log : Log} {n : ℕ} {pending : List OutgoingPacket}
    (h : ∀ item ∈ pending, item.packet.removable → log.positions item.added = []) : Unsent log n pending := by
  cases pending with
  | nil => trivial
  | cons item rest =>
    refine ⟨fun hremovable => ?_, fun other hmem => h other (List.mem_cons_of_mem _ hmem)⟩
    rw [h item List.mem_cons_self hremovable]
    exact fun _ hmem => absurd hmem List.not_mem_nil

/-- What is true of a queue is true of what is left of it. -/
theorem Unsent.sublist {log : Log} {n : ℕ} {pending pending' : List OutgoingPacket}
    (h : Unsent log n pending) (hsub : pending'.Sublist pending) : Unsent log n pending' := by
  cases hsub with
  | slnil => trivial
  | cons item hsub => exact unsent_of_fresh fun other hmem => h.2 other (hsub.subset hmem)
  | cons_cons item hsub => exact ⟨h.1, fun other hmem => h.2 other (hsub.subset hmem)⟩

theorem Unsent.cons {log : Log} {n : ℕ} {pending : List OutgoingPacket} (h : Unsent log n pending) {r : Record}
    (hr : ∀ added, r.positions added = []) : Unsent (r :: log) n pending := by
  cases pending with
  | nil => trivial
  | cons item rest =>
    rw [Unsent]
    simp only [positions_cons, hr, List.nil_append]
    exact h

/-- Something was noted. -/
theorem Tidy.noted {c c' : MqttClient cfg} (hc : c.Tidy kind) {r : Record} (hlog : c'.log = r :: c.log)
    (hr : r.outbox = c.outbox) (houtbox : c'.outbox = c.outbox) (hbytes : c'.bytesSent = c.bytesSent)
    (htick : c'.tick = c.tick) (hwrite : r.event.isWrite = false)
    (hfleeting : ∀ added, r.event.isFleeting added → added < c.tick ∧ kind added)
    (hidle : c'.state = .disconnected → c.bytesSent = 0) : c'.Tidy kind where
  known := by
    rw [houtbox, htick]
    exact hc.known
  distinct := by
    rw [houtbox]
    exact hc.distinct
  passed := by
    rw [houtbox]
    exact hc.passed
  unsent := by
    rw [houtbox, hbytes, hlog]
    exact hc.unsent.cons (positions_of_event hwrite)
  recalled := by
    rw [hlog, htick, List.forall_mem_cons, hr]
    exact ⟨hc.recall, hc.recalled⟩
  once added hkind := by
    rw [hlog, positions_cons, positions_of_event hwrite, List.nil_append]
    exact hc.once added hkind
  fleeting := by
    rw [hlog, htick, List.forall_mem_cons]
    exact ⟨hfleeting, hc.fleeting⟩
  idle hstate := hbytes.trans (hidle hstate)

/-- Something is left of the queue. -/
theorem Tidy.sublist {c c' : MqttClient cfg} (hc : c.Tidy kind) (hlog : c'.log = c.log)
    (hitems : c'.outbox.items.Sublist c.outbox.items) (hpassed : c'.outbox.passed ⊆ c.outbox.passed)
    (hunsent : Unsent c.log c'.bytesSent c'.outbox.pending) (htick : c.tick ≤ c'.tick)
    (hidle : c'.state = .disconnected → c'.bytesSent = 0) : c'.Tidy kind where
  known item hmem := (hc.known item (hitems.subset hmem)).later htick
  distinct := hc.distinct.sublist (hitems.map _)
  passed item hmem := hc.passed item (hpassed hmem)
  unsent := hlog ▸ hunsent
  recalled := by
    rw [hlog]
    exact fun r hmem => (hc.recalled r hmem).later htick
  once := hlog ▸ hc.once
  fleeting := by
    rw [hlog]
    exact fun r hmem added h => ⟨Nat.lt_of_lt_of_le (hc.fleeting r hmem added h).1 htick,
      (hc.fleeting r hmem added h).2⟩
  idle := hidle

/-! ### Adding -/

/-- A packet that is added now was not written to before. -/
theorem Tidy.positions_tick {c : MqttClient cfg} (hc : c.Tidy kind) : c.log.positions c.tick = [] := by
  rw [Log.positions, List.flatMap_eq_nil_iff]
  intro r hmem
  rw [Record.positions]
  split
  · rw [if_neg]
    rw [Option.any_eq_true]
    rintro ⟨item, hcurrent, hadded⟩
    have hlt := ((hc.recalled r hmem).known item (CursorList.getCurrent_mem hcurrent)).1
    have heq : item.added = c.tick := of_decide_eq_true hadded
    omega
  · rfl

/-- A packet was added. -/
theorem Tidy.added {c c' : MqttClient cfg} (hc : c.Tidy kind) {packet : Packet} (hbuilt : Built cfg packet)
    (hlog : c'.log = c.log) (hitems : c'.outbox.items.Perm (⟨0, packet, c.tick⟩ :: c.outbox.items))
    (hpassed : c'.outbox.passed ⊆ c.outbox.passed)
    (hunsent : Unsent c.log c'.bytesSent c'.outbox.pending) (htick : c'.tick = c.tick + 1)
    (hidle : c'.state = .disconnected → c'.bytesSent = 0) :
    c'.Tidy (Function.update kind c.tick packet.removable) := by
  have hold : ∀ {added : ℕ}, added < c.tick →
      Function.update kind c.tick packet.removable added = kind added := by
    intro added hlt
    exact Function.update_of_ne (Nat.ne_of_lt hlt) _ _
  refine ⟨fun item hmem => ?_, ?_, fun item hmem => hc.passed item (hpassed hmem), hlog ▸ hunsent, ?_, ?_, ?_,
    hidle⟩
  · rw [htick]
    rcases List.mem_cons.mp (hitems.subset hmem) with rfl | hmem
    · refine ⟨hbuilt.proper, hbuilt.bounded, Nat.lt_succ_self _, ?_⟩
      exact (Function.update_self c.tick packet.removable kind).symm
    · obtain ⟨hproper, hbounded, hlt, hremovable⟩ := hc.known item hmem
      exact ⟨hproper, hbounded, Nat.lt_succ_of_lt hlt, hremovable.trans (hold hlt).symm⟩
  · rw [(hitems.map _).nodup_iff, List.map_cons, List.nodup_cons]
    refine ⟨fun hmem => ?_, hc.distinct⟩
    obtain ⟨item, hmem, heq⟩ := List.mem_map.mp hmem
    exact Nat.ne_of_lt (hc.known item hmem).added_lt heq
  · rw [hlog, htick]
    refine fun r hmem => ⟨fun item hitem => ?_, (hc.recalled r hmem).passed⟩
    obtain ⟨hlt, hremovable⟩ := (hc.recalled r hmem).known item hitem
    exact ⟨Nat.lt_succ_of_lt hlt, hremovable.trans (hold hlt).symm⟩
  · intro added hkind
    rw [hlog]
    by_cases heq : added = c.tick
    · rw [heq, hc.positions_tick]
      exact List.nodup_nil
    · rw [Function.update_of_ne heq] at hkind
      exact hc.once added hkind
  · rw [hlog, htick]
    intro r hmem added h
    obtain ⟨hlt, hkind⟩ := hc.fleeting r hmem added h
    exact ⟨Nat.lt_succ_of_lt hlt, (hold hlt).trans hkind⟩

/-- A packet is added to the back of the queue. -/
theorem Tidy.push {c : MqttClient cfg} (hc : c.Tidy kind) {packet : Packet} (hbuilt : Built cfg packet) :
    (c.push packet).asked.Tidy (Function.update kind c.tick packet.removable) := by
  refine hc.added hbuilt rfl ?_ (List.Subset.refl _) ?_ rfl hc.idle
  · show (c.outbox.emplace _).items.Perm _
    rw [CursorList.items_emplace]
    exact List.perm_append_singleton _ _
  · have hunsent := hc.unsent
    show Unsent c.log c.bytesSent (c.outbox.pending ++ [_])
    cases hpending : c.outbox.pending with
    | nil =>
      apply unsent_of_fresh
      simp only [List.nil_append, List.mem_singleton]
      rintro item rfl -
      exact hc.positions_tick
    | cons item rest =>
      rw [hpending] at hunsent
      refine ⟨hunsent.1, fun other hmem => ?_⟩
      rcases List.mem_append.mp hmem with hmem | hmem
      · exact hunsent.2 other hmem
      · rw [List.mem_singleton.mp hmem]
        exact fun _ => hc.positions_tick

/-- With nothing written of the current packet the cursor can go back to the front. -/
theorem Tidy.unsent_items {c : MqttClient cfg} (hc : c.Tidy kind) (hbytes : c.bytesSent = 0) :
    ∀ item ∈ c.outbox.items, item.packet.removable → c.log.positions item.added = [] := by
  intro item hmem hremovable
  rcases List.mem_append.mp hmem with hmem | hmem
  · rw [hc.passed item hmem] at hremovable
    cases hremovable
  · have hunsent := hc.unsent
    cases hpending : c.outbox.pending with
    | nil =>
      rw [hpending] at hmem
      cases hmem
    | cons current rest =>
      rw [hpending] at hmem hunsent
      rw [hbytes] at hunsent
      rcases List.mem_cons.mp hmem with rfl | hmem
      · exact List.eq_nil_iff_forall_not_mem.mpr fun position hposition =>
          absurd (hunsent.1 hremovable position hposition) (Nat.not_lt_zero _)
      · exact hunsent.2 item hmem hremovable

/-! ### Sending -/

/-- Something of the current packet was read or written. -/
theorem Tidy.current {c c' : MqttClient cfg} (hc : c.Tidy kind) {item item' : OutgoingPacket}
    {rest : List OutgoingPacket} (hpending : c.outbox.pending = item :: rest)
    (htouched : Touched cfg item item') (houtbox : c'.outbox = ⟨c.outbox.passed, item' :: rest⟩)
    (htick : c.tick ≤ c'.tick) : (∀ other ∈ c'.outbox.items, Known cfg kind c'.tick other) ∧
      (c'.outbox.items.map (·.added)).Nodup ∧
      ∀ other ∈ c'.outbox.passed, other.packet.removable = false := by
  have hitems : c.outbox.items = c.outbox.passed ++ item :: rest := by rw [CursorList.items, hpending]
  have hdistinct := hc.distinct
  have hstays := stays_of_touched hpending htouched
  rw [houtbox]
  refine ⟨fun other hmem => ?_, ?_, hc.passed⟩
  · obtain ⟨origin, hmem, htouched⟩ := hstays other hmem
    exact ((hc.known origin hmem).touched htouched).later htick
  · rw [hitems] at hdistinct
    simp only [CursorList.items, List.map_append, List.map_cons, htouched.added] at hdistinct ⊢
    exact hdistinct

/-- A packet that is read ahead is the same. -/
theorem Tidy.readAhead {c : MqttClient cfg} (hc : c.Tidy kind) {item : OutgoingPacket}
    {rest : List OutgoingPacket} {packet : Packet} (hpending : c.outbox.pending = item :: rest)
    (hreads : Packet.Reads cfg item.packet packet) : (c.readAhead { item with packet } rest).Tidy kind := by
  have htouched : Touched cfg item { item with packet } := ⟨rfl, hreads⟩
  have hmem : item ∈ c.outbox.items := by simp [CursorList.items, hpending]
  have hunsent := hc.unsent
  rw [hpending] at hunsent
  have houtbox :
      (c.readAhead { item with packet } rest).outbox = ⟨c.outbox.passed, { item with packet } :: rest⟩ :=
    rfl
  obtain ⟨hknown, hdistinct, hpassed⟩ := hc.current hpending htouched houtbox (Nat.le_succ _)
  refine ⟨hknown, hdistinct, hpassed, ⟨fun hremovable => ?_, hunsent.2⟩, ?_, hc.once, ?_, hc.idle⟩
  · apply hunsent.1
    rwa [← hreads.removable (hc.known item hmem).proper.toFormed]
  · exact fun r hr => (hc.recalled r hr).later (Nat.le_succ _)
  · exact fun r hr added h => ⟨Nat.lt_succ_of_lt (hc.fleeting r hr added h).1, (hc.fleeting r hr added h).2⟩

/-- What the transport takes is counted, and nothing of it was taken before. -/
theorem Tidy.wrote {c : MqttClient cfg} (hc : c.Tidy kind) {item : OutgoingPacket}
    {rest : List OutgoingPacket} {packet : Packet} (hpending : c.outbox.pending = item :: rest)
    (hreads : Packet.Reads cfg item.packet packet) {result : ℤ} (hpos : 0 ≤ result)
    (hlt : c.bytesSent + result.toNat < cfg.sizeMod) (timeSent activity : UInt32)
    (hstate : c.state ≠ .disconnected) :
    (c.wrote { item with packet } rest result timeSent activity).Tidy kind := by
  have htouched : Touched cfg item { item with packet, timeSent } := ⟨rfl, hreads⟩
  have hmem : item ∈ c.outbox.items := by simp [CursorList.items, hpending]
  have hremovable : packet.removable = item.packet.removable :=
    hreads.removable (hc.known item hmem).proper.toFormed
  have hunsent := hc.unsent
  rw [hpending] at hunsent
  have hlog := c.log_wrote { item with packet } rest result timeSent activity
  have houtbox : (c.wrote { item with packet } rest result timeSent activity).outbox =
      ⟨c.outbox.passed, { item with packet, timeSent } :: rest⟩ := rfl
  have htick : c.tick ≤ (c.wrote { item with packet } rest result timeSent activity).tick := Nat.le_add_right _ 4
  have hbytes : (c.wrote { item with packet } rest result timeSent activity).bytesSent =
      c.bytesSent + result.toNat := by
    show cfg.wrap (c.bytesSent + (result % cfg.sizeMod).toNat) = c.bytesSent + result.toNat
    rw [toNat_emod_sizeMod hpos (by omega), cfg.wrap_of_lt hlt]
  obtain ⟨hknown, hdistinct, hpassed⟩ := hc.current hpending htouched houtbox htick
  have hpositions := c.positions_written { item with packet } rest result
  have htaken : ((packet.dataAt c.bytesSent).take result.toNat).length ≤ result.toNat := List.length_take_le _ _
  have hother : ∀ other ∈ rest, item.added ≠ other.added := by
    have hdistinct := hc.distinct
    rw [CursorList.items, hpending, List.map_append, List.map_cons] at hdistinct
    have hcons := (List.nodup_append.mp hdistinct).2.1
    exact fun other hmem heq => (List.nodup_cons.mp hcons).1 (List.mem_map.mpr ⟨other, hmem, heq.symm⟩)
  refine ⟨hknown, hdistinct, hpassed, ?_, ?_, ?_, ?_, fun h => absurd h hstate⟩
  · rw [hlog, hbytes, houtbox]
    refine ⟨fun h position hposition => ?_, fun other hmem h => ?_⟩
    · rw [positions_cons, hpositions, if_pos rfl, List.mem_append, List.mem_range'_1] at hposition
      rcases hposition with hposition | hposition
      · dsimp only at hposition
        omega
      · exact Nat.lt_add_right _ (hunsent.1 (hremovable.symm.trans h) position hposition)
    · rw [positions_cons, hpositions, if_neg (hother other hmem), List.nil_append]
      exact hunsent.2 other hmem h
  · rw [hlog, List.forall_mem_cons]
    have hahead := (hc.readAhead hpending hreads).recall
    exact ⟨hahead.later (by show c.tick + 1 ≤ c.tick + 4; omega), fun r hr => (hc.recalled r hr).later htick⟩
  · intro added hkind
    rw [hlog, positions_cons, hpositions]
    split_ifs with heq
    · refine List.nodup_append.mpr ⟨List.nodup_range', hc.once added hkind, ?_⟩
      have hitem : item.packet.removable = true :=
        ((hc.known item hmem).removable.trans (by rw [heq])).trans hkind
      rintro position hposition other hmem rfl
      have hlt := hunsent.1 hitem position (heq.symm ▸ hmem)
      rw [List.mem_range'_1] at hposition
      omega
    · exact hc.once added hkind
  · rw [hlog, List.forall_mem_cons]
    refine ⟨fun _ h => (by cases h), fun r hr added h => ?_⟩
    obtain ⟨hlt, hkind⟩ := hc.fleeting r hr added h
    exact ⟨Nat.lt_of_lt_of_le hlt htick, hkind⟩

theorem Tidy.sendPacket {c : MqttClient cfg} (hc : c.Tidy kind)
    (hwrite : ∀ tick size, 0 ≤ env.write tick size) (hstate : c.state ≠ .disconnected) :
    (c.sendPacket env).2.Tidy kind := by
  rcases sendPacket_cases env c with ⟨-, h⟩ | ⟨item, rest, available, packet, hpending, havailable, h⟩
  · rw [h]
    exact hc
  have hreads := Packet.reads_of_available havailable
  rcases h with ⟨-, h⟩ | ⟨hne, timeSent, activity, h⟩ <;> rw [h]
  · exact hc.readAhead hpending hreads
  · have hmem : item ∈ c.outbox.items := by simp [CursorList.items, hpending]
    have hlt := (hc.known item hmem).bounded.available_lt havailable hne
    have hle := env.write_le (c.tick + 1) available
    exact hc.wrote hpending hreads (hwrite _ _) (by omega) timeSent activity hstate

/-- The cursor leaves a packet. -/
theorem Tidy.leave {c : MqttClient cfg} (hc : c.Tidy kind) {item : OutgoingPacket}
    (hcurrent : c.outbox.getCurrent = some item) : (c.leaveCurrent item).Tidy kind := by
  obtain ⟨rest, hpending⟩ := getCurrent_eq_some.mp hcurrent
  have hunsent := hc.unsent
  have hmem : item ∈ c.outbox.items := CursorList.getCurrent_mem hcurrent
  rw [hpending] at hunsent
  have hrest : Unsent c.log 0 rest := unsent_of_fresh hunsent.2
  have hleave := leave_eq hpending
  by_cases hremovable : item.packet.removable
  · rw [if_pos hremovable] at hleave
    refine hc.sublist rfl ?_ ?_ ?_ le_rfl fun _ => rfl
    · show (MqttClient.leave c.outbox item).items.Sublist c.outbox.items
      rw [hleave, CursorList.items, CursorList.items, hpending]
      exact (List.Sublist.refl _).append (List.sublist_cons_self item rest)
    · show (MqttClient.leave c.outbox item).passed ⊆ c.outbox.passed
      rw [hleave]
      exact List.Subset.refl _
    · show Unsent c.log 0 (MqttClient.leave c.outbox item).pending
      rw [hleave]
      exact hrest
  · rw [if_neg hremovable] at hleave
    have htouched : Touched cfg item (kept item) := kept_touched item
    have houtbox : (c.leaveCurrent item).outbox = ⟨c.outbox.passed ++ [kept item], rest⟩ := hleave
    have hitems : (c.leaveCurrent item).outbox.items =
        (CursorList.mk c.outbox.passed (kept item :: rest)).items := by
      rw [houtbox, CursorList.items, CursorList.items, List.append_assoc, List.singleton_append]
    obtain ⟨hknown, hdistinct, -⟩ :=
      hc.current hpending htouched (show ({ c with outbox := ⟨c.outbox.passed, kept item :: rest⟩ } :
        MqttClient cfg).outbox = _ from rfl) le_rfl
    refine ⟨hitems ▸ hknown, hitems ▸ hdistinct, ?_, ?_, hc.recalled, hc.once, hc.fleeting, fun _ => rfl⟩
    · rw [houtbox]
      intro other hother
      rcases List.mem_append.mp hother with hother | hother
      · exact hc.passed other hother
      · rw [List.mem_singleton.mp hother, htouched.reads.removable (hc.known item hmem).proper.toFormed]
        simpa using hremovable
    · rw [houtbox]
      exact hrest

theorem Tidy.advanceOutbox {c : MqttClient cfg} (hc : c.Tidy kind) (hstate : c.state ≠ .disconnected) :
    c.advanceOutbox.2.Tidy kind := by
  rcases advanceOutbox_cases c with ⟨h, -⟩ | ⟨item, hcurrent, -, h⟩ <;> rw [h]
  · exact hc
  have hfarewell : (c.farewell item.packet).Tidy kind ∧ (c.farewell item.packet).state ≠ .disconnected := by
    rw [farewell]
    split_ifs
    · refine ⟨hc.noted rfl rfl rfl rfl rfl rfl ?_ ?_, ?_⟩
      · intro _ h
        cases h
      · intro h
        cases h
      · intro h
        cases h
    · exact ⟨hc, hstate⟩
  have hsent : ((c.farewell item.packet).note (.sent item.packet)).Tidy kind :=
    hfarewell.1.noted rfl rfl rfl rfl rfl rfl (fun _ h => by cases h) fun h => absurd h hfarewell.2
  apply hsent.leave
  show (c.farewell item.packet).outbox.getCurrent = some item
  rw [outbox_farewell, hcurrent]

theorem Tidy.sendRound {c : MqttClient cfg} (hc : c.Tidy kind)
    (hwrite : ∀ tick size, 0 ≤ env.write tick size) (hstate : c.state ≠ .disconnected) :
    (c.sendRound env).Tidy kind := by
  have hsend := hc.sendPacket hwrite hstate
  rw [MqttClient.sendRound]
  split_ifs
  · exact hsend.advanceOutbox (@state_sendPacket _ env c ▸ hstate)
  · exact hsend

/-! ### Clearing -/

theorem Tidy.filter {c : MqttClient cfg} (hc : c.Tidy kind) (keep : OutgoingPacket → Bool) :
    ({ c with outbox := c.outbox.filter keep } : MqttClient cfg).Tidy kind := by
  refine hc.sublist rfl ?_ ?_ ?_ le_rfl hc.idle
  · show (c.outbox.filter keep).items.Sublist c.outbox.items
    rw [CursorList.items_filter]
    exact List.filter_sublist
  · exact List.filter_sublist.subset
  · exact hc.unsent.sublist List.filter_sublist

theorem Tidy.clearQueue {c : MqttClient cfg} (hc : c.Tidy kind) (clearData : ℕ) :
    (c.clearQueue clearData).Tidy kind := by
  have hnote : (c.note (.clearQueue clearData)).Tidy kind :=
    hc.noted rfl rfl rfl rfl rfl rfl nofun hc.idle
  rw [clearQueue_eq]
  exact hnote.filter (keeps clearData)

/-- What `_clearQueue` keeps when a connection is closed is not removable. -/
theorem removable_of_keeps {item : OutgoingPacket} (hproper : Proper item.packet) (hkeeps : keeps 0 item) :
    item.packet.removable = false := by
  rw [keeps, if_pos rfl, decide_eq_true_iff] at hkeeps
  simp only [OutgoingPacket.isType, decide_eq_true_eq] at hkeeps
  have hid : item.packet.packetId ≠ 0 := by
    rcases hkeeps with htype | htype | ⟨-, hid⟩
    · exact hproper.identified (.inl htype)
    · exact hproper.identified (.inr htype)
    · exact hid
  have htype : item.packet.packetType ≠ PacketType.PUBACK ∧ item.packet.packetType ≠ PacketType.PUBCOMP := by
    rcases hkeeps with htype | htype | ⟨htype, -⟩ <;> rw [htype] <;> decide
  rw [Packet.removable, if_neg hid]
  simp [htype.1, htype.2]

/-! ### Runs -/

theorem isFleeting_of_isMute {event : Event} (h : event.isMute) (added : ℕ) :
    event.isFleeting added = false := by
  cases event <;> first | rfl | cases h

theorem isWrite_of_isMute {event : Event} (h : event.isMute) : event.isWrite = false := by
  cases event <;> first | rfl | cases h

/-- A PUBLISH of quality 0 is removable. -/
theorem Requested.fleeting {c : MqttClient cfg} {packet : Packet} {event : Event}
    (h : c.Requested packet event) (added : ℕ) (hfleeting : event.isFleeting added) :
    added = c.tick ∧ packet.removable := by
  have hremovable : ∀ {packet : Packet} {packetId : UInt16} {qos : Byte}, qos = 0 →
      packet.packetId = (if qos = 0 then 0 else packetId) → packet.removable := by
    intro packet packetId qos hqos hid
    rw [if_pos hqos] at hid
    rw [Packet.removable, if_pos hid]
  cases h with
  | publish _ _ hpacket =>
    obtain ⟨alloc, hbuilt⟩ := hpacket
    obtain ⟨heq, hqos⟩ := of_decide_eq_true hfleeting
    exact ⟨heq.symm, hremovable hqos (Packet.publish_built hbuilt).2.1⟩
  | publishChunked _ _ hpacket =>
    obtain ⟨alloc, hbuilt⟩ := hpacket
    obtain ⟨heq, hqos⟩ := of_decide_eq_true hfleeting
    exact ⟨heq.symm, hremovable hqos (Packet.publishChunked_built hbuilt).2.1⟩
  | subscribe | unsubscribe | ping => cases hfleeting

theorem Requested.isWrite {c : MqttClient cfg} {packet : Packet} {event : Event}
    (h : c.Requested packet event) : event.isWrite = false := by
  cases h <;> rfl

theorem Tidy.admitted {c : MqttClient cfg} (hc : c.Tidy kind) : c.admitted.Tidy kind := by
  have hconnected : c.connectedNow.Tidy kind := hc.noted rfl rfl rfl rfl rfl rfl nofun nofun
  have hadvance := hconnected.advanceOutbox nofun
  rw [MqttClient.admitted]
  split_ifs
  · exact hadvance.clearQueue 1
  · exact hadvance

theorem Tidy.close {c : MqttClient cfg} (hc : c.Tidy kind) : c.close.Tidy kind := by
  have hclear := hc.clearQueue 0
  have hkept : ∀ item ∈ (c.clearQueue 0).outbox.items, item.packet.removable = false := by
    intro item hmem
    rw [outbox_clearQueue, CursorList.items_filter, List.mem_filter] at hmem
    exact removable_of_keeps (hc.known item hmem.1).proper hmem.2
  have hempty : ({ c.clearQueue 0 with bytesSent := 0 } : MqttClient cfg).Tidy kind := by
    refine hclear.sublist rfl (List.Sublist.refl _) (List.Subset.refl _) ?_ le_rfl fun _ => rfl
    refine unsent_of_fresh fun item hmem hremovable => ?_
    rw [hkept item (List.mem_append_right _ hmem)] at hremovable
    cases hremovable
  have hdisconnected : ({ c.clearQueue 0 with bytesSent := 0 }.setState .disconnected).Tidy kind :=
    hempty.noted rfl rfl rfl rfl rfl rfl nofun fun _ => rfl
  exact hdisconnected.noted rfl rfl rfl rfl rfl rfl nofun fun _ => rfl

theorem Flow.tidy {c c' : MqttClient cfg} (hwrite : ∀ tick size, 0 ≤ env.write tick size) (h : Flow env c c')
    (hc : ∃ kind, c.Tidy kind) : ∃ kind, c'.Tidy kind := by
  obtain ⟨kind, hc⟩ := hc
  cases h with
  | keep h =>
    refine ⟨kind, hc.sublist h.log ?_ ?_ ?_ h.tick ?_⟩
    · rw [h.outbox]
    · rw [h.outbox]
      exact List.Subset.refl _
    · rw [h.outbox, h.bytesSent]
      exact hc.unsent
    · rw [h.state, h.bytesSent]
      exact hc.idle
  | note event hmute =>
    refine ⟨kind, hc.noted rfl rfl rfl rfl rfl (isWrite_of_isMute hmute) (fun added h => ?_) hc.idle⟩
    rw [isFleeting_of_isMute hmute] at h
    cases h
  | transportConnect => exact ⟨kind, hc.noted rfl rfl rfl rfl rfl rfl (fun _ h => by cases h) hc.idle⟩
  | move next hleads =>
    refine ⟨kind, hc.noted rfl rfl rfl rfl rfl rfl (fun _ h => by cases h) fun hnext => ?_⟩
    -- nothing but `close` leads there
    obtain rfl : next = .disconnected := hnext
    cases hstate : c.state <;> rw [hstate] at hleads <;> cases hleads
  | @connect args packet hstate hpacket =>
    have hadded :
        ({ c with outbox := c.outbox.emplaceFront ⟨0, packet, c.tick⟩ } : MqttClient cfg).asked.Tidy _ :=
      hc.added (.connect hpacket) rfl (.refl _) (List.nil_subset _)
        ⟨fun _ => by rw [hc.positions_tick]; exact fun _ h => absurd h List.not_mem_nil,
          hc.unsent_items (hc.idle hstate)⟩ rfl hc.idle
    have hnote : (({ c with outbox := c.outbox.emplaceFront ⟨0, packet, c.tick⟩ } : MqttClient cfg).asked.note
        (.connect args)).Tidy _ :=
      hadded.noted rfl rfl rfl rfl rfl rfl (fun _ h => by cases h) hc.idle
    exact ⟨_, hnote.noted rfl rfl rfl rfl rfl rfl (fun _ h => by cases h) fun h => by cases h⟩
  | rewind h =>
    -- the packets in front of the cursor are not removable, and nothing is written of those behind it
    have hbytes : c.bytesSent = 0 := by
      rcases h with h | ⟨-, -, h⟩
      · exact hc.idle h
      · exact h
    exact ⟨kind, hc.sublist rfl (List.Sublist.refl _) (List.nil_subset _)
      (unsent_of_fresh (hc.unsent_items hbytes)) le_rfl hc.idle⟩
  | request h =>
    -- a message of quality 0 is noted under the time its packet was added
    refine ⟨_, (hc.push h.built).noted rfl rfl rfl rfl rfl h.isWrite (fun added hfleeting => ?_) hc.idle⟩
    obtain ⟨rfl, hremovable⟩ := h.fleeting added hfleeting
    exact ⟨Nat.lt_succ_self _, by rw [Function.update_self, hremovable]⟩
  | answer _ _ htype hid hpacket => exact ⟨_, hc.push (.ack htype hid hpacket)⟩
  | addDisconnect _ _ hpacket =>
    have hpushed := hc.push (.control (by simp) hpacket)
    exact ⟨_, hpushed.noted rfl rfl rfl rfl rfl rfl (fun _ h => by cases h) fun h => by cases h⟩
  | @remove it =>
    have hnote : (c.note (.remove it)).Tidy kind :=
      hc.noted rfl rfl rfl rfl rfl rfl (fun _ h => by cases h) hc.idle
    refine ⟨kind, hnote.sublist rfl ?_ ?_ ?_ le_rfl hc.idle⟩
    · show (c.outbox.remove it).items.Sublist c.outbox.items
      rw [CursorList.items_remove]
      exact List.eraseIdx_sublist _ _
    · show (c.outbox.remove it).passed ⊆ c.outbox.passed
      rw [CursorList.remove]
      split_ifs
      · exact (List.eraseIdx_sublist _ _).subset
      · exact List.Subset.refl _
    · refine hnote.unsent.sublist ?_
      show (c.outbox.remove it).pending.Sublist c.outbox.pending
      rw [CursorList.remove]
      split_ifs
      · exact List.Sublist.refl _
      · exact List.eraseIdx_sublist _ _
  | clearQueue deleteSessionData => exact ⟨kind, hc.clearQueue _⟩
  | sendConnect hstate =>
    refine ⟨kind, hc.sendPacket hwrite ?_⟩
    rw [hstate]
    exact State.noConfusion
  | sendRound hsends =>
    refine ⟨kind, hc.sendRound hwrite fun hstate => ?_⟩
    have honline := hsends.1.1
    rw [hstate] at honline
    cases honline
  | accept hstate =>
    exact ⟨kind, hc.admitted.noted rfl rfl rfl rfl rfl rfl (fun _ h => by cases h) hc.admitted.idle⟩
  | close => exact ⟨kind, hc.close⟩

theorem new_tidy (generatedClientId : CString) : (new cfg generatedClientId).Tidy fun _ => false where
  known := fun _ h => absurd h List.not_mem_nil
  distinct := List.nodup_nil
  passed := fun _ h => absurd h List.not_mem_nil
  unsent := trivial
  recalled := fun _ h => absurd h List.not_mem_nil
  once := nofun
  fleeting := fun _ h => absurd h List.not_mem_nil
  idle := fun _ => rfl

/-- What is acknowledged by nobody is removable. -/
theorem removable_of_isSingle {item : OutgoingPacket} (h : item.isSingle) : item.packet.removable := by
  rw [OutgoingPacket.isSingle, decide_eq_true_iff] at h
  simp only [OutgoingPacket.isType, decide_eq_true_eq] at h
  rw [Packet.removable]
  split_ifs with hid
  · rfl
  · rcases h with h | h | h
    · simp [h]
    · simp [h]
    · exact absurd h.1 hid

/-- **At most once**: in every run, with a transport that takes any part of what it is given. -/
theorem run_once (env : Env cfg) (hwrite : ∀ tick size, 0 ≤ env.write tick size) (generatedClientId : CString)
    (actions : List Action) : ((new cfg generatedClientId).run env actions).log.Once ∧
      ∀ item ∈ ((new cfg generatedClientId).run env actions).outbox.passed, item.packet.removable = false := by
  obtain ⟨kind, hc⟩ := run_flow_invariant env (fun c => ∃ kind, c.Tidy kind) generatedClientId
    ⟨_, new_tidy generatedClientId⟩ (fun h => h.tidy hwrite) actions
  refine ⟨⟨fun r hmem added h => ?_, fun r hmem item hitem h => ?_, ?_⟩, hc.passed⟩
  · exact hc.once added (hc.fleeting r hmem added h).2
  · apply hc.once
    rw [← ((hc.recalled r hmem).known item hitem).2]
    exact removable_of_isSingle h
  · exact fun r hmem => (hc.recalled r hmem).passed

/-- A transport that takes the packets in small pieces. -/
def piecemealScript : Script where
  read := [(10, [0x20, 2, 1, 0])]
  write := [(15, 3)]

theorem run_once_piecemeal :
    (piecemealScript.run [.call .connect, .call (.publish ⟨[0x61], by decide⟩ 0 false [1, 2]), .loop,
      .loop, .loop,
      .call (.disconnect true), .loop, .loop, .call .connect, .loop]).log.Once ∧
    ∀ item ∈ (piecemealScript.run [.call .connect, .call (.publish ⟨[0x61], by decide⟩ 0 false [1, 2]), .loop,
      .loop, .loop, .call (.disconnect true), .loop, .loop, .call .connect, .loop]).outbox.passed,
      item.packet.removable = false := by
  apply run_once
  exact Script.write_nonneg .linux piecemealScript

end MqttClient

end EspMqttClient
