/-
  Messages are first sent in the order in which they were published.

  Published packets go to the back of the queue, so they stand in order, and the cursor leaves one only after a
  byte of it was written (`Lined`).  What is written to is under the cursor: everything that was published
  before it is in front of the cursor or gone (`run_inTurn`).
-/
import EspMqttClient.MqttClient.Equiv.Once
import EspMqttClient.Packets.Equiv.Chunked

namespace EspMqttClient

/-! ### Properties of a log -/

/-- The packet that `publish` accepted. -/
def Event.published : Event → List ℕ
  | .publish added .. | .publishChunked added .. => [added]
  | _ => []

/-- The packets that `publish` accepted, in this order. -/
def Log.published : Log → List ℕ
  | [] => []
  | r :: log => published log ++ r.event.published

/-- The packets of an outbox, in order. -/
def queue (outbox : CursorList OutgoingPacket) : List ℕ := outbox.items.map (·.added)

/-- Of two published packets the one that was published first stands first. -/
def InPublishOrder (published : List ℕ) (outbox : CursorList OutgoingPacket) : Prop :=
  ∀ a ∈ published, ∀ b ∈ published, [a, b].Sublist published → a ∈ queue outbox → b ∈ queue outbox →
    [a, b].Sublist (queue outbox)

instance (published : List ℕ) (outbox : CursorList OutgoingPacket) :
    Decidable (InPublishOrder published outbox) :=
  inferInstanceAs (Decidable (∀ a ∈ published, ∀ b ∈ published, _ → _ → _ → _))

namespace Record

/-- Where a byte of a published packet is written, each packet that was published before it was written to
earlier or is not in the outbox. -/
def inTurn (r : Record) (earlier : Log) : Bool :=
  r.isWriting → ∀ b ∈ earlier.published, r.outbox.getCurrent.any (·.added = b) →
    ∀ a ∈ earlier.published, [a, b].Sublist earlier.published →
      a ∉ queue r.outbox ∨ earlier.positions a ≠ []

/-- What is written is in turn, and the published packets stand in order. -/
def keepsOrder (r : Record) (earlier : Log) : Bool :=
  r.inTurn earlier ∧ InPublishOrder earlier.published r.outbox

/-- The user does not clear the queue, the server sends one CONNACK in a connection, and no payload callback
leads to a read behind the end of a buffer.  Where nothing waits for the CONNACK, it comes in while the client
connects, and not when the current packet has no bytes. -/
def isOrderly (cfg : Config) (r : Record) (earlier : Log) : Bool :=
  match r.event with
  | .clearQueue clearData => clearData = 1 ∨ clearData = 0 ∧ r.state = .disconnectingTcp2
  | .onConnect _ => earlier.greeted = false
  | .write _ => r.outbox.getCurrent.all fun item =>
      item.packet.getPayload.isSome → item.packet.dataAt r.bytesSent ≠ []
  | .state .connected => cfg.waitForConnack ∨
      r.state = .connectingMqtt ∧ r.outbox.getCurrent.all (·.packet.size ≠ 0)
  | _ => true

end Record

/-- Two members of a list stand in one order or the other. -/
theorem pair_sublist_or {α : Type*} {l : List α} {a b : α} (ha : a ∈ l) (hb : b ∈ l) (h : a ≠ b) :
    [a, b].Sublist l ∨ [b, a].Sublist l := by
  induction l with
  | nil => cases ha
  | cons x l ih =>
    rcases List.mem_cons.mp ha with rfl | ha' <;> rcases List.mem_cons.mp hb with rfl | hb'
    · exact absurd rfl h
    · exact .inl (List.cons_sublist_cons.mpr (List.singleton_sublist.mpr hb'))
    · exact .inr (List.cons_sublist_cons.mpr (List.singleton_sublist.mpr ha'))
    · exact (ih ha' hb').imp (·.cons _) (·.cons _)

namespace MqttClient

variable {cfg : Config} {env : Env cfg}

/-! ### Packets in line -/

/-- What is known of the packets in front of the cursor and from there on: those that were published stand in
the order in which they were, and the passed ones were written to. -/
structure Lined (log : Log) (tick : ℕ) (passed pending : List ℕ) : Prop where
  added_lt : ∀ a ∈ passed ++ pending, a < tick
  published_lt : ∀ a ∈ log.published, a < tick
  sorted : log.published.Pairwise (· < ·)
  order : (passed ++ pending).Pairwise fun a b => a ∈ log.published → a < b
  written : ∀ a ∈ passed, a ∈ log.published → log.positions a ≠ []

section

variable {log : Log} {tick : ℕ} {passed pending : List ℕ}

/-- Something was noted, or nothing. -/
theorem Lined.later (h : Lined log tick passed pending) (new : Log) {tick' : ℕ} (htick : tick ≤ tick')
    (hnew : Log.published (new ++ log) = log.published) : Lined (new ++ log) tick' passed pending := by
  refine ⟨fun a hmem => Nat.lt_of_lt_of_le (h.added_lt a hmem) htick, ?_, ?_, ?_, ?_⟩ <;> rw [hnew]
  · exact fun a hmem => Nat.lt_of_lt_of_le (h.published_lt a hmem) htick
  · exact h.sorted
  · exact h.order
  · intro a hmem hpublished hnil
    rw [Log.positions, List.flatMap_append, List.append_eq_nil_iff] at hnil
    exact h.written a hmem hpublished hnil.2

/-- Something is left of the line, or the cursor is elsewhere. -/
theorem Lined.sublist (h : Lined log tick passed pending) {passed' pending' : List ℕ}
    (hsub : (passed' ++ pending').Sublist (passed ++ pending))
    (hwritten : ∀ a ∈ passed', a ∈ log.published → log.positions a ≠ []) : Lined log tick passed' pending' :=
  ⟨fun a hmem => h.added_lt a (hsub.subset hmem), h.published_lt, h.sorted, h.order.sublist hsub, hwritten⟩

/-- What was not published before now. -/
theorem Lined.not_published (h : Lined log tick passed pending) : tick ∉ log.published :=
  fun hmem => Nat.lt_irrefl _ (h.published_lt tick hmem)

/-- A packet that was not published goes to the back. -/
theorem Lined.push (h : Lined log tick passed pending) : Lined log (tick + 1) passed (pending ++ [tick]) := by
  refine ⟨fun a hmem => ?_, fun a hmem => Nat.lt_succ_of_lt (h.published_lt a hmem), h.sorted, ?_, h.written⟩
  · rw [← List.append_assoc, List.mem_append, List.mem_singleton] at hmem
    rcases hmem with hmem | rfl
    · exact Nat.lt_succ_of_lt (h.added_lt a hmem)
    · exact Nat.lt_succ_self _
  · rw [← List.append_assoc, List.pairwise_append]
    refine ⟨h.order, List.pairwise_singleton _ _, fun a ha b hb _ => ?_⟩
    rw [List.mem_singleton.mp hb]
    exact h.added_lt a ha

/-- A packet that was not published goes to the front. -/
theorem Lined.front (h : Lined log tick passed pending) :
    Lined log (tick + 1) [] (tick :: (passed ++ pending)) := by
  refine ⟨fun a hmem => ?_, fun a hmem => Nat.lt_succ_of_lt (h.published_lt a hmem), h.sorted, ?_, nofun⟩
  · rcases List.mem_cons.mp hmem with rfl | hmem
    · exact Nat.lt_succ_self _
    · exact Nat.lt_succ_of_lt (h.added_lt a hmem)
  · exact List.pairwise_cons.mpr ⟨fun b _ hpublished => absurd hpublished h.not_published, h.order⟩

/-- A packet that is published goes to the back. -/
theorem Lined.publish (h : Lined log tick passed pending) {r : Record} (hr : r.event.published = [tick])
    (hpositions : r.event.isWrite = false) :
    Lined (r :: log) (tick + 1) passed (pending ++ [tick]) := by
  have hpublished : Log.published (r :: log) = log.published ++ [tick] := by rw [Log.published, hr]
  have hlt : ∀ {a : ℕ}, a < tick → a ∈ Log.published (r :: log) → a ∈ log.published := by
    intro a hlt hmem
    rw [hpublished, List.mem_append, List.mem_singleton] at hmem
    rcases hmem with hmem | rfl
    · exact hmem
    · exact absurd hlt (Nat.lt_irrefl _)
  have hpush := h.push
  refine ⟨hpush.added_lt, fun a hmem => ?_, ?_, ?_, fun a hmem hmem' => ?_⟩
  · rw [hpublished, List.mem_append, List.mem_singleton] at hmem
    rcases hmem with hmem | rfl
    · exact Nat.lt_succ_of_lt (h.published_lt a hmem)
    · exact Nat.lt_succ_self _
  · rw [hpublished, List.pairwise_append]
    refine ⟨h.sorted, List.pairwise_singleton _ _, fun a ha b hb => ?_⟩
    rw [List.mem_singleton.mp hb]
    exact h.published_lt a ha
  · rw [← List.append_assoc, List.pairwise_append]
    refine ⟨?_, List.pairwise_singleton _ _, fun a ha b hb _ => ?_⟩
    · exact h.order.imp_of_mem fun ha _ hlt' hmem => hlt' (hlt (h.added_lt _ ha) hmem)
    · rw [List.mem_singleton.mp hb]
      exact h.added_lt a ha
  · rw [positions_cons, positions_of_event hpositions, List.nil_append]
    exact h.written a hmem (hlt (h.added_lt a (List.mem_append_left _ hmem)) hmem')

end

/-! ### The queue -/

structure InLine (c : MqttClient cfg) : Prop where
  lined : Lined c.log c.tick (c.outbox.passed.map (·.added)) (c.outbox.pending.map (·.added))
  keepsOrder : Trace.Always (fun r earlier => r.keepsOrder earlier) c.log

theorem queue_eq (outbox : CursorList OutgoingPacket) :
    queue outbox = outbox.passed.map (·.added) ++ outbox.pending.map (·.added) := List.map_append

theorem Lined.inPublishOrder {log : Log} {tick : ℕ} {outbox : CursorList OutgoingPacket}
    (h : Lined log tick (outbox.passed.map (·.added)) (outbox.pending.map (·.added))) :
    InPublishOrder log.published outbox := by
  intro a ha b hb hbefore hqueue hqueue'
  have hlt : a < b := h.sorted.forall_sublist hbefore
  rcases pair_sublist_or hqueue hqueue' (Nat.ne_of_lt hlt) with hsub | hsub
  · exact hsub
  · rw [queue_eq] at hsub
    exact absurd (h.order.forall_sublist hsub hb) (Nat.lt_asymm hlt)

theorem published_cons {r : Record} (hr : r.event.published = []) (log : Log) :
    Log.published (r :: log) = log.published := by rw [Log.published, hr, List.append_nil]

/-- Something was noted that is not a write. -/
theorem InLine.record {c : MqttClient cfg} (hc : c.InLine) {r : Record} (hr : r.outbox = c.outbox)
    (hwrite : r.event.isWrite = false) :
    Trace.Always (fun r earlier => r.keepsOrder earlier) (r :: c.log) := by
  refine ⟨decide_eq_true ⟨?_, hr ▸ hc.lined.inPublishOrder⟩, hc.keepsOrder⟩
  rw [Record.inTurn, isWriting_of_event hwrite]
  rfl

theorem InLine.noted {c c' : MqttClient cfg} (hc : c.InLine) {r : Record} (hlog : c'.log = r :: c.log)
    (hr : r.outbox = c.outbox) (hwrite : r.event.isWrite = false) (hpublish : r.event.published = [])
    (houtbox : c'.outbox = c.outbox) (htick : c.tick ≤ c'.tick) : c'.InLine where
  lined := by
    rw [hlog, houtbox]
    exact hc.lined.later [r] htick (published_cons hpublish _)
  keepsOrder := hlog ▸ hc.record hr hwrite

/-- The queue is another one. -/
theorem InLine.moved {c c' : MqttClient cfg} (hc : c.InLine) (hlog : c'.log = c.log)
    (hlined : Lined c.log c'.tick (c'.outbox.passed.map (·.added)) (c'.outbox.pending.map (·.added))) :
    c'.InLine := ⟨hlog ▸ hlined, hlog ▸ hc.keepsOrder⟩

/-- Something is left of the queue. -/
theorem InLine.sublist {c c' : MqttClient cfg} (hc : c.InLine) (hlog : c'.log = c.log) (htick : c'.tick = c.tick)
    (hpassed : c'.outbox.passed.Sublist c.outbox.passed)
    (hpending : c'.outbox.pending.Sublist c.outbox.pending) : c'.InLine := by
  apply hc.moved hlog
  rw [htick]
  refine hc.lined.sublist ((hpassed.map _).append (hpending.map _)) fun a hmem => ?_
  exact hc.lined.written a ((hpassed.map _).subset hmem)

theorem pending_push (c : MqttClient cfg) (packet : Packet) :
    (c.push packet).outbox.pending.map (·.added) = c.outbox.pending.map (·.added) ++ [c.tick] := List.map_append

/-- A packet that was not published goes to the back of the queue. -/
theorem InLine.push {c : MqttClient cfg} (hc : c.InLine) (packet : Packet) : (c.push packet).asked.InLine := by
  refine hc.moved rfl ?_
  show Lined c.log (c.tick + 1) (c.outbox.passed.map (·.added)) ((c.push packet).outbox.pending.map (·.added))
  rw [pending_push]
  exact hc.lined.push

/-- What is asked for goes to the back of the queue. -/
theorem InLine.request {c : MqttClient cfg} (hc : c.InLine) {packet : Packet} {event : Event}
    (h : c.Requested packet event) : ((c.push packet).asked.note event).InLine := by
  have hpublish : event.published = [] ∨ event.published = [c.tick] := by
    cases h <;> first | exact .inl rfl | exact .inr rfl
  rcases hpublish with hnone | hone
  · exact (hc.push packet).noted rfl rfl h.isWrite hnone rfl le_rfl
  · refine ⟨?_, (hc.push packet).record rfl h.isWrite⟩
    show Lined (_ :: c.log) (c.tick + 1) (c.outbox.passed.map (·.added))
      ((c.push packet).outbox.pending.map (·.added))
    rw [pending_push]
    exact hc.lined.publish hone h.isWrite

/-! ### Sending -/

/-- What is written to is under the cursor, and what was published before it is in front of the cursor. -/
theorem InLine.inTurn_written {c : MqttClient cfg} (hc : c.InLine) {item item' : OutgoingPacket}
    {rest : List OutgoingPacket} (hpending : c.outbox.pending = item :: rest) (hadded : item'.added = item.added)
    (result : ℤ) : (c.written item' rest result).inTurn c.log := by
  rw [Record.inTurn]
  refine decide_eq_true fun _ b hb hcurrent a ha hbefore => ?_
  obtain rfl : item.added = b := by
    rw [← hadded]
    exact of_decide_eq_true hcurrent
  have hlt : a < item.added := hc.lined.sorted.forall_sublist hbefore
  by_cases hmem : a ∈ queue (c.written item' rest result).outbox
  · right
    have horder := hc.lined.order
    rw [hpending, List.map_cons, List.pairwise_append, List.pairwise_cons] at horder
    have hmem : a ∈ queue (⟨c.outbox.passed, item' :: rest⟩ : CursorList OutgoingPacket) := hmem
    rw [queue_eq, List.map_cons, hadded, List.mem_append, List.mem_cons] at hmem
    rcases hmem with hmem | rfl | hmem
    · exact hc.lined.written a hmem ha
    · exact absurd hlt (Nat.lt_irrefl _)
    · exact absurd (horder.2.1.1 a hmem hb) (Nat.lt_asymm hlt)
  · exact .inl hmem

theorem InLine.readAhead {c : MqttClient cfg} (hc : c.InLine) {item item' : OutgoingPacket}
    {rest : List OutgoingPacket} (hpending : c.outbox.pending = item :: rest)
    (hadded : item'.added = item.added) :
    (c.readAhead item' rest).InLine := by
  have hsame : (item' :: rest).map (·.added) = c.outbox.pending.map (·.added) := by
    rw [hpending, List.map_cons, List.map_cons, hadded]
  refine hc.moved rfl ?_
  show Lined c.log (c.tick + 1) (c.outbox.passed.map (·.added)) ((item' :: rest).map (·.added))
  rw [hsame]
  exact hc.lined.later [] (Nat.le_succ _) rfl

theorem InLine.wrote {c : MqttClient cfg} (hc : c.InLine) {item item' : OutgoingPacket}
    {rest : List OutgoingPacket} (hpending : c.outbox.pending = item :: rest) (hadded : item'.added = item.added)
    (result : ℤ) (timeSent activity : UInt32) : (c.wrote item' rest result timeSent activity).InLine := by
  have hsame : ({ item' with timeSent } :: rest).map (·.added) = c.outbox.pending.map (·.added) := by
    rw [hpending, List.map_cons, List.map_cons, hadded]
  have horder := (hc.readAhead hpending hadded).lined.inPublishOrder
  refine ⟨?_, decide_eq_true ⟨hc.inTurn_written hpending hadded result, horder⟩, hc.keepsOrder⟩
  show Lined (_ :: c.log) (c.tick + 4) (c.outbox.passed.map (·.added))
    (({ item' with timeSent } :: rest).map (·.added))
  rw [hsame]
  exact hc.lined.later [_] (Nat.le_add_right _ 4) (published_cons rfl _)

/-- The current packet, if anything was sent of it, was written to. -/
def Touches (c : MqttClient cfg) : Prop :=
  c.bytesSent = 0 ∨ ∃ item rest, c.outbox.pending = item :: rest ∧ c.log.positions item.added ≠ []

theorem InLine.sendPacket {c : MqttClient cfg} (hc : c.InLine) (env : Env cfg) :
    (c.sendPacket env).2.InLine := by
  rcases sendPacket_cases env c with ⟨-, h⟩ | ⟨item, rest, available, packet, hpending, -, h⟩
  · rw [h]
    exact hc
  have hadded : ({ item with packet } : OutgoingPacket).added = item.added := rfl
  rcases h with ⟨-, h⟩ | ⟨-, timeSent, activity, h⟩ <;> rw [h]
  · exact hc.readAhead hpending hadded
  · exact hc.wrote hpending hadded _ timeSent activity

/-- There is a byte to write where some are available. -/
theorem dataAt_ne_nil {c : MqttClient cfg} {item : OutgoingPacket} {packet : Packet} {available : ℕ}
    (hformed : item.packet.Formed)
    (havailable : item.packet.available cfg c.tick c.bytesSent = (available, packet)) (hne : available ≠ 0)
    (hchunked : packet.getPayload.isSome → packet.dataAt c.bytesSent ≠ []) : packet.dataAt c.bytesSent ≠ [] := by
  cases hget : packet.getPayload with
  | some callback =>
    apply hchunked
    rw [hget]
    rfl
  | none =>
    have hnone : item.packet.getPayload = none := (Packet.reads_of_available havailable).getPayload ▸ hget
    rw [Packet.available_buffered hnone] at havailable
    obtain ⟨rfl, rfl⟩ := Prod.mk.inj havailable
    have hsize := hformed.buffered hnone
    rw [Packet.dataAt, hget]
    show item.packet.data.drop c.bytesSent ≠ []
    rw [Ne, List.drop_eq_nil_iff]
    omega

/-- What is written is written to the current packet. -/
theorem positions_sendPacket {c : MqttClient cfg} (hwrite : ∀ tick size, 0 ≤ env.write tick size)
    (hproper : c.QueuesProper)
    (horderly : Trace.Always (fun r earlier => r.isOrderly cfg earlier) (c.sendPacket env).2.log) :
    (c.Touches → (c.sendPacket env).2.Touches) ∧ (0 < (c.sendPacket env).1 → ∀ item,
      (c.sendPacket env).2.outbox.getCurrent = some item →
        (c.sendPacket env).2.log.positions item.added ≠ []) := by
  rcases sendPacket_cases env c with ⟨-, h⟩ | ⟨item, rest, available, packet, hpending, havailable, h⟩
  · rw [h]
    exact ⟨id, fun hlt => absurd hlt (lt_irrefl _)⟩
  have htouches : ∀ {item' : OutgoingPacket} {log : Log}, item'.added = item.added → c.log <:+ log →
      (∃ item rest, c.outbox.pending = item :: rest ∧ c.log.positions item.added ≠ []) →
      log.positions item'.added ≠ [] := by
    rintro item' log hadded ⟨new, rfl⟩ ⟨other, rest', hother, hpositions⟩
    obtain ⟨rfl, -⟩ := List.cons.inj (hother.symm.trans hpending)
    rw [Log.positions, List.flatMap_append, Ne, List.append_eq_nil_iff, hadded]
    exact fun hnil => hpositions hnil.2
  rcases h with ⟨-, h⟩ | ⟨hne, timeSent, activity, h⟩ <;> rw [h] at horderly ⊢
  · refine ⟨fun hc => hc.imp id fun hc => ⟨_, rest, rfl, htouches rfl List.suffix_rfl hc⟩,
      fun hlt => absurd hlt (lt_irrefl _)⟩
  · dsimp only at horderly ⊢
    rw [log_wrote] at horderly ⊢
    have hmem : item ∈ c.outbox.items := by simp [CursorList.items, hpending]
    have hchunked : packet.getPayload.isSome → packet.dataAt c.bytesSent ≠ [] := of_decide_eq_true horderly.1
    have hdata := dataAt_ne_nil (hproper item hmem).toFormed havailable hne hchunked
    have hpositions : 0 < env.write (c.tick + 1) available →
        Log.positions (c.written { item with packet } rest (env.write (c.tick + 1) available) :: c.log)
          item.added ≠ [] := by
      intro hpos
      have htake : 0 < ((packet.dataAt c.bytesSent).take (env.write (c.tick + 1) available).toNat).length := by
        have := List.length_pos_iff.mpr hdata
        rw [List.length_take]
        omega
      rw [positions_cons, positions_written, if_pos rfl, Ne, List.append_eq_nil_iff, List.range'_eq_nil_iff]
      exact fun hnil => Nat.ne_of_gt htake hnil.1
    rcases Int.lt_or_eq_of_le (hwrite (c.tick + 1) available) with hpos | hzero
    · refine ⟨fun _ => .inr ⟨{ item with packet, timeSent }, rest, rfl, ?_⟩, fun _ other hother => ?_⟩
      · rw [log_wrote]
        exact hpositions hpos
      · obtain rfl := Option.some.inj hother
        exact hpositions hpos
    · rw [← hzero]
      have hresult : ((((0 : ℤ) % cfg.sizeMod).toNat : ℕ) : ℤ).bmod (2 ^ 32) = 0 := by
        rw [Int.zero_emod]
        rfl
      refine ⟨fun hc => ?_, fun hlt => absurd (hresult ▸ hlt) (lt_irrefl _)⟩
      rcases hc with hbytes | hc
      · left
        show cfg.wrap (c.bytesSent + ((0 : ℤ) % cfg.sizeMod).toNat) = 0
        rw [hbytes, Int.zero_emod]
        exact Nat.zero_mod _
      · exact .inr ⟨_, rest, rfl, htouches rfl (List.suffix_cons _ _) hc⟩

/-- The cursor leaves a packet that was written to. -/
theorem InLine.leave {c : MqttClient cfg} (hc : c.InLine) {item : OutgoingPacket}
    (hcurrent : c.outbox.getCurrent = some item)
    (hwritten : item.added ∈ c.log.published → c.log.positions item.added ≠ []) :
    (c.leaveCurrent item).InLine := by
  obtain ⟨rest, hpending⟩ := getCurrent_eq_some.mp hcurrent
  have hlined := hc.lined
  have hleave := leave_eq hpending
  rw [hpending, List.map_cons] at hlined
  refine hc.moved rfl ?_
  show Lined c.log c.tick ((MqttClient.leave c.outbox item).passed.map (·.added))
    ((MqttClient.leave c.outbox item).pending.map (·.added))
  by_cases hremovable : item.packet.removable
  · rw [hleave, if_pos hremovable]
    exact hlined.sublist ((List.Sublist.refl _).append (List.sublist_cons_self _ _)) hlined.written
  · rw [hleave, if_neg hremovable, List.map_append, List.map_cons, (@kept_touched cfg item).added]
    refine hlined.sublist ?_ fun a hmem hpublished => ?_
    · rw [List.append_assoc]
      exact List.Sublist.refl _
    · rcases List.mem_append.mp hmem with hmem | hmem
      · exact hlined.written a hmem hpublished
      · obtain rfl := List.mem_singleton.mp hmem
        exact hwritten hpublished

/-- May the cursor leave the current packet? -/
def Leavable (c : MqttClient cfg) : Prop :=
  ∀ item, c.outbox.getCurrent = some item → c.bytesSent = item.packet.size →
    item.added ∈ c.log.published → c.log.positions item.added ≠ []

theorem InLine.advanceOutbox {c : MqttClient cfg} (hc : c.InLine) (hleavable : c.Leavable) :
    c.advanceOutbox.2.InLine := by
  rcases advanceOutbox_cases c with ⟨h, -⟩ | ⟨item, hcurrent, hsize, h⟩ <;> rw [h]
  · exact hc
  have hfarewell : (c.farewell item.packet).InLine ∧
      (c.farewell item.packet).log.published = c.log.published ∧
      (c.farewell item.packet).log.positions item.added = c.log.positions item.added := by
    rw [farewell]
    split_ifs
    · refine ⟨hc.noted rfl rfl rfl rfl rfl le_rfl, published_cons rfl _, ?_⟩
      exact (positions_cons _ _ _).trans (by rw [positions_of_event rfl, List.nil_append])
    · exact ⟨hc, rfl, rfl⟩
  obtain ⟨hline, hpublished, hpositions⟩ := hfarewell
  have hsent : ((c.farewell item.packet).note (.sent item.packet)).InLine :=
    hline.noted rfl rfl rfl rfl rfl le_rfl
  apply hsent.leave
  · show (c.farewell item.packet).outbox.getCurrent = some item
    rw [outbox_farewell, hcurrent]
  · show item.added ∈ Log.published (_ :: _) → Log.positions (_ :: _) item.added ≠ []
    rw [published_cons rfl, positions_cons, positions_of_event rfl, List.nil_append, hpublished, hpositions]
    exact hleavable item hcurrent hsize

theorem InLine.sendRound {c : MqttClient cfg} (hc : c.InLine) (hwrite : ∀ tick size, 0 ≤ env.write tick size)
    (hproper : c.QueuesProper)
    (horderly : Trace.Always (fun r earlier => r.isOrderly cfg earlier) (c.sendRound env).log) :
    (c.sendRound env).InLine := by
  have hline := hc.sendPacket env
  have hsuffix : (c.sendPacket env).2.log <:+ (c.sendRound env).log := by
    rw [MqttClient.sendRound]
    split_ifs
    · have hgrows : Grows (fun _ => true) _ (c.sendPacket env).2.advanceOutbox.2 :=
        grows_advanceOutbox _ (fun _ => rfl) rfl
      exact hgrows.log_suffix
    · exact List.suffix_rfl
  obtain ⟨new, hnew⟩ := hsuffix
  have hpositions := (positions_sendPacket hwrite hproper (Trace.Always.of_append (hnew ▸ horderly))).2
  rw [MqttClient.sendRound]
  split_ifs with hwritten
  · exact hline.advanceOutbox fun item hcurrent _ _ => hpositions hwritten item hcurrent
  · exact hline

/-- After a round something was sent of the current packet only if it was written to. -/
theorem Touches.sendRound {c : MqttClient cfg} (hc : c.Touches) (hwrite : ∀ tick size, 0 ≤ env.write tick size)
    (hproper : c.QueuesProper)
    (horderly : Trace.Always (fun r earlier => r.isOrderly cfg earlier) (c.sendRound env).log) :
    (c.sendRound env).Touches := by
  rcases sendRound_cases env c with ⟨h, -⟩ | ⟨item, -, -, -, h⟩
  · rw [h] at horderly ⊢
    exact (positions_sendPacket hwrite hproper horderly).1 hc
  · rw [h]
    exact .inl rfl

/-! ### Clearing -/

theorem InLine.clearQueue {c : MqttClient cfg} (hc : c.InLine) (clearData : ℕ) :
    (c.clearQueue clearData).InLine := by
  have hnote : (c.note (.clearQueue clearData)).InLine := hc.noted rfl rfl rfl rfl rfl le_rfl
  rw [clearQueue_eq]
  exact hnote.sublist rfl rfl List.filter_sublist List.filter_sublist

theorem InLine.close {c : MqttClient cfg} (hc : c.InLine) : c.close.InLine := by
  have hempty : ({ c.clearQueue 0 with bytesSent := 0 } : MqttClient cfg).InLine :=
    (hc.clearQueue 0).sublist rfl rfl (List.Sublist.refl _) (List.Sublist.refl _)
  have hdisconnected : ({ c.clearQueue 0 with bytesSent := 0 }.setState .disconnected).InLine :=
    hempty.noted rfl rfl rfl rfl rfl le_rfl
  exact hdisconnected.noted rfl rfl rfl rfl rfl le_rfl

theorem InLine.remove {c : MqttClient cfg} (hc : c.InLine) (position : ℕ) : (c.remove position).InLine := by
  have hnote : (c.note (.remove position)).InLine := hc.noted rfl rfl rfl rfl rfl le_rfl
  refine hnote.sublist rfl rfl ?_ ?_
  · show (c.outbox.remove position).passed.Sublist c.outbox.passed
    rw [CursorList.remove]
    split_ifs
    · exact List.eraseIdx_sublist _ _
    · exact List.Sublist.refl _
  · show (c.outbox.remove position).pending.Sublist c.outbox.pending
    rw [CursorList.remove]
    split_ifs
    · exact List.Sublist.refl _
    · exact List.eraseIdx_sublist _ _

theorem InLine.admitted {c : MqttClient cfg} (hc : c.InLine) (hleavable : c.connectedNow.Leavable) :
    c.admitted.InLine := by
  have hconnected : c.connectedNow.InLine := hc.noted rfl rfl rfl rfl rfl le_rfl
  have hadvance := hconnected.advanceOutbox hleavable
  rw [MqttClient.admitted]
  split_ifs
  · exact hadvance.clearQueue 1
  · exact hadvance

/-! ### Runs -/

/-- While the client connects, what was sent is part of the current packet, and that is not a published one if
the client waits for the CONNACK. -/
structure Ordered (c : MqttClient cfg) : Prop where
  proper : c.QueuesProper
  unheard : c.Unheard
  idle : c.Idle
  line : c.InLine
  touches : isConnecting c.state → c.Touches
  waiting : cfg.waitForConnack → isConnecting c.state →
    ∃ item rest, c.outbox = ⟨[], item :: rest⟩ ∧ item.added ∉ c.log.published

/-- The queue and what was sent of it are as they were, but there may be more behind it. -/
structure Prolongs (c c' : MqttClient cfg) : Prop where
  state : isConnecting c'.state → isConnecting c.state
  bytesSent : c'.bytesSent = c.bytesSent
  positions : ∀ added, c.log.positions added ≠ [] → c'.log.positions added ≠ []
  published : ∀ item ∈ c.outbox.items, item.added ∈ c'.log.published → item.added ∈ c.log.published
  outbox : isConnecting c'.state → ∃ more, c'.outbox = ⟨c.outbox.passed, c.outbox.pending ++ more⟩

theorem Ordered.prolongs {c c' : MqttClient cfg} (hc : c.Ordered) (h : Prolongs c c') (hproper : c'.QueuesProper)
    (hunheard : c'.Unheard) (hidle : c'.Idle) (hline : c'.InLine) : c'.Ordered := by
  refine ⟨hproper, hunheard, hidle, hline, fun hconnecting => ?_, fun hwait hconnecting => ?_⟩
  · obtain ⟨more, houtbox⟩ := h.outbox hconnecting
    rw [Touches, h.bytesSent, houtbox]
    refine (hc.touches (h.state hconnecting)).imp id ?_
    rintro ⟨item, rest, hpending, hpositions⟩
    exact ⟨item, rest ++ more, by rw [hpending, List.cons_append], h.positions _ hpositions⟩
  · obtain ⟨more, houtbox⟩ := h.outbox hconnecting
    obtain ⟨item, rest, hfront, hnot⟩ := hc.waiting hwait (h.state hconnecting)
    refine ⟨item, rest ++ more, by rw [houtbox, hfront, List.cons_append], fun hmem => hnot ?_⟩
    exact h.published item (by simp [hfront, CursorList.items]) hmem

/-- The client is not connecting afterwards. -/
theorem Ordered.away {c' : MqttClient cfg} (h : isConnecting c'.state = false) (hproper : c'.QueuesProper)
    (hunheard : c'.Unheard) (hidle : c'.Idle) (hline : c'.InLine) : c'.Ordered := by
  refine ⟨hproper, hunheard, hidle, hline, ?_, ?_⟩ <;> rw [h] <;> nofun

theorem prolongs_of_log {c c' : MqttClient cfg} (new : Log) (hlog : c'.log = new ++ c.log)
    (hnew : Log.published (new ++ c.log) = c.log.published)
    (hstate : isConnecting c'.state → isConnecting c.state) (hbytes : c'.bytesSent = c.bytesSent)
    (houtbox : isConnecting c'.state → ∃ more, c'.outbox = ⟨c.outbox.passed, c.outbox.pending ++ more⟩) :
    Prolongs c c' where
  state := hstate
  bytesSent := hbytes
  positions added hpositions hnil := by
    rw [hlog, Log.positions, List.flatMap_append, List.append_eq_nil_iff] at hnil
    exact hpositions hnil.2
  published item _ hmem := by rwa [hlog, hnew] at hmem
  outbox := houtbox

theorem same_outbox {c c' : MqttClient cfg} (h : c'.outbox = c.outbox) :
    ∃ more, c'.outbox = ⟨c.outbox.passed, c.outbox.pending ++ more⟩ := ⟨[], by rw [h, List.append_nil]⟩

/-- Something was noted. -/
theorem prolongs_of_cons {c c' : MqttClient cfg} {r : Record} (hlog : c'.log = r :: c.log)
    (hr : r.event.published = []) (hstate : isConnecting c'.state → isConnecting c.state)
    (hbytes : c'.bytesSent = c.bytesSent) (houtbox : c'.outbox = c.outbox) : Prolongs c c' :=
  prolongs_of_log [r] hlog (published_cons hr _) hstate hbytes fun _ => same_outbox houtbox

theorem published_of_isMute {event : Event} (h : event.isMute) : event.published = [] := by
  cases event <;> first | rfl | cases h

theorem InLine.request_prolongs {c : MqttClient cfg} (hc : c.InLine) {packet : Packet} {event : Event}
    (h : c.Requested packet event) : Prolongs c ((c.push packet).asked.note event) := by
  refine ⟨id, rfl, fun added hpositions hnil => ?_, fun item hmem hpublished => ?_, fun _ => ⟨_, rfl⟩⟩
  · have hnil : Log.positions (_ :: c.log) added = [] := hnil
    rw [positions_cons, List.append_eq_nil_iff] at hnil
    exact hpositions hnil.2
  · have hlt : item.added < c.tick := by
      apply hc.lined.added_lt
      rw [← List.map_append]
      exact List.mem_map_of_mem hmem
    have hpublished : item.added ∈ Log.published (_ :: c.log) := hpublished
    rw [Log.published, List.mem_append] at hpublished
    rcases hpublished with hpublished | hpublished
    · exact hpublished
    · have hevent : event.published = [] ∨ event.published = [c.tick] := by
        cases h <;> first | exact .inl rfl | exact .inr rfl
      have hpublished : item.added ∈ event.published := hpublished
      rcases hevent with hevent | hevent <;> rw [hevent] at hpublished
      · cases hpublished
      · exact absurd (List.mem_singleton.mp hpublished) (Nat.ne_of_lt hlt)

/-- When a CONNACK is accepted the cursor may leave the current packet. -/
theorem Ordered.leavable {c : MqttClient cfg} (hc : c.Ordered) (hheard : c.Heard)
    (hgreeted : c.log.greeted = false)
    (hhasty : cfg.waitForConnack ∨
      c.state = .connectingMqtt ∧ c.outbox.getCurrent.all (·.packet.size ≠ 0)) : c.connectedNow.Leavable := by
  intro item hcurrent hsize hpublished
  have hcurrent : c.outbox.getCurrent = some item := hcurrent
  have hsize : c.bytesSent = item.packet.size := hsize
  have hpublished : item.added ∈ Log.published (_ :: c.log) := hpublished
  show Log.positions (_ :: c.log) item.added ≠ []
  rw [published_cons rfl] at hpublished
  rw [positions_cons, positions_of_event rfl, List.nil_append]
  rcases hhasty with hwait | ⟨hstate, hbytes⟩
  · have hstate : c.state = .connectingMqtt := by
      rcases hheard hwait with hstate | h
      · exact hstate
      · rw [hgreeted] at h
        cases h
    obtain ⟨front, rest, hfront, hnot⟩ := hc.waiting hwait (by rw [hstate]; rfl)
    rw [hfront] at hcurrent
    obtain rfl := Option.some.inj hcurrent
    exact absurd hpublished hnot
  · rcases hc.touches (by rw [hstate]; rfl) with hzero | ⟨other, rest, hpending, hpositions⟩
    · rw [hcurrent, Option.all_some, decide_eq_true_iff] at hbytes
      exact absurd (hsize.symm.trans hzero) hbytes
    · rw [CursorList.getCurrent, hpending] at hcurrent
      obtain rfl := Option.some.inj hcurrent
      exact hpositions

/-- The CONNECT goes in front of a queue none of which was written to in this connection. -/
theorem InLine.connect {c : MqttClient cfg} (hc : c.InLine) (packet : Packet) (args : Packet.ConnectArgs) :
    (({ c with outbox := c.outbox.emplaceFront ⟨0, packet, c.tick⟩ }.asked.note
      (.connect args)).setState .connectingTcp1).InLine := by
  have hfront :
      ({ c with outbox := c.outbox.emplaceFront ⟨0, packet, c.tick⟩ } : MqttClient cfg).asked.InLine := by
    refine hc.moved rfl ?_
    show Lined c.log (c.tick + 1) [] (c.tick :: (c.outbox.items.map (·.added)))
    rw [CursorList.items, List.map_append]
    exact hc.lined.front
  have hnoted : (({ c with outbox := c.outbox.emplaceFront ⟨0, packet, c.tick⟩ } : MqttClient cfg).asked.note
      (.connect args)).InLine := hfront.noted rfl rfl rfl rfl rfl le_rfl
  exact hnoted.noted rfl rfl rfl rfl rfl le_rfl

/-- The cursor goes back to the front. -/
theorem InLine.rewind {c : MqttClient cfg} (hc : c.InLine) :
    ({ c with outbox := c.outbox.resetCurrent } : MqttClient cfg).InLine := by
  refine hc.moved rfl (hc.lined.sublist ?_ fun _ hmem => absurd hmem List.not_mem_nil)
  show (List.map _ c.outbox.items).Sublist _
  rw [CursorList.items, List.map_append]

/-- A packet in front of the queue stays there when it is sent, and is not published by that. -/
theorem front_sendPacket (env : Env cfg) {c : MqttClient cfg} {item : OutgoingPacket}
    {rest : List OutgoingPacket} (hfront : c.outbox = ⟨[], item :: rest⟩)
    (hnot : item.added ∉ c.log.published) :
    ∃ item' rest', (c.sendPacket env).2.outbox = ⟨[], item' :: rest'⟩ ∧
      item'.added ∉ (c.sendPacket env).2.log.published := by
  rcases sendPacket_cases env c with ⟨-, h⟩ | ⟨item', rest', available, packet, hpending, -, h⟩
  · rw [h]
    exact ⟨item, rest, hfront, hnot⟩
  rw [hfront] at hpending
  obtain ⟨rfl, rfl⟩ := List.cons.inj hpending
  rcases h with ⟨-, h⟩ | ⟨-, timeSent, activity, h⟩ <;> rw [h]
  · refine ⟨{ item with packet }, rest, ?_, hnot⟩
    show (⟨c.outbox.passed, _⟩ : CursorList OutgoingPacket) = _
    rw [hfront]
  · refine ⟨{ item with packet, timeSent }, rest, ?_, fun hmem => hnot ?_⟩
    · show (⟨c.outbox.passed, _⟩ : CursorList OutgoingPacket) = _
      rw [hfront]
    · dsimp only at hmem
      rwa [log_wrote, published_cons rfl] at hmem

/-- An accepted CONNACK takes the cursor on only from a packet that was written to. -/
theorem Ordered.line_admitted {c : MqttClient cfg} (hc : c.Ordered) (hheard : c.Heard)
    (horderly : Trace.Always (fun r earlier => r.isOrderly cfg earlier) c.accept.log) :
    c.admitted.InLine := by
  have hadmitted : Trace.Always (fun r earlier => r.isOrderly cfg earlier) c.admitted.log := horderly.2
  have hconnected : c.connectedNow.log <:+ c.admitted.log := by
    have hadvance : Grows (fun _ => true) c.connectedNow c.connectedNow.advanceOutbox.2 :=
      grows_advanceOutbox _ (fun _ => rfl) rfl
    rw [admitted]
    split_ifs
    · exact hadvance.log_suffix.trans (List.suffix_cons _ _)
    · exact hadvance.log_suffix
  obtain ⟨new, hnew⟩ := hconnected
  have hgreeted : c.admitted.log.greeted = false := of_decide_eq_true horderly.1
  rw [greeted_admitted] at hgreeted
  have hconnectedNow : Trace.Always (fun r earlier => r.isOrderly cfg earlier) c.connectedNow.log :=
    Trace.Always.of_append (hnew ▸ hadmitted)
  exact hc.line.admitted (hc.leavable hheard hgreeted (of_decide_eq_true hconnectedNow.1))

theorem Flow.ordered {c c' : MqttClient cfg} (h : Flow env c c')
    (hwrite : ∀ tick size, 0 ≤ env.write tick size)
    (horderly : Trace.Always (fun r earlier => r.isOrderly cfg earlier) c'.log) (hc : c.Ordered) :
    c'.Ordered := by
  have hproper := h.queuesProper hc.proper
  have hunheard := h.unheard hc.unheard
  have hidle := h.idle hc.idle
  cases h with
  | keep h =>
    have hprolongs : Prolongs c c' := by
      refine prolongs_of_log [] h.log rfl (by rw [h.state]; exact id) h.bytesSent fun _ => ?_
      exact same_outbox h.outbox
    refine hc.prolongs hprolongs hproper hunheard hidle (hc.line.moved h.log ?_)
    rw [h.outbox]
    exact hc.line.lined.later [] h.tick rfl
  | note event hmute =>
    have hnone := published_of_isMute hmute
    have hline : (c.note event).InLine := hc.line.noted rfl rfl (isWrite_of_isMute hmute) hnone rfl le_rfl
    exact hc.prolongs (prolongs_of_cons rfl hnone id rfl rfl) hproper hunheard hidle hline
  | transportConnect success =>
    have hline : (c.note (.transportConnect success)).InLine := hc.line.noted rfl rfl rfl rfl rfl le_rfl
    exact hc.prolongs (prolongs_of_cons rfl rfl id rfl rfl) hproper hunheard hidle hline
  | move next hleads =>
    have hline : (c.setState next).InLine := hc.line.noted rfl rfl rfl rfl rfl le_rfl
    exact hc.prolongs (prolongs_of_cons rfl rfl (leads_isConnecting hleads) rfl rfl) hproper hunheard hidle hline
  | @connect args packet hstate =>
    refine ⟨hproper, hunheard, hidle, hc.line.connect packet args, fun _ => .inl (hc.idle hstate),
      fun _ _ => ⟨⟨0, packet, c.tick⟩, c.outbox.items, rfl, ?_⟩⟩
    -- it is asked for only now, so it was not published
    show c.tick ∉ Log.published (_ :: _ :: c.log)
    rw [published_cons rfl, published_cons rfl]
    exact hc.line.lined.not_published
  | rewind h =>
    refine ⟨hproper, hunheard, hidle, hc.line.rewind, fun _ => ?_, fun hwait hconnecting => ?_⟩
    · rcases h with h | ⟨-, -, h⟩
      · exact .inl (hc.idle h)
      · exact .inl h
    · have hconnecting : isConnecting c.state := hconnecting
      rcases h with h | ⟨h, -, -⟩
      · rw [h] at hconnecting
        cases hconnecting
      · rw [hc.unheard.not_connecting hwait h] at hconnecting
        cases hconnecting
  | request h =>
    exact hc.prolongs (hc.line.request_prolongs h) hproper hunheard hidle (hc.line.request h)
  | answer hlistens =>
    have hnot := not_connecting_of_listens hlistens
    exact .away hnot hproper hunheard hidle (hc.line.push _)
  | @addDisconnect packet =>
    have hline := hc.line.push packet
    exact .away rfl hproper hunheard hidle (hline.noted rfl rfl rfl rfl rfl le_rfl)
  | remove hlistens =>
    have hnot := not_connecting_of_listens hlistens
    exact .away hnot hproper hunheard hidle (hc.line.remove _)
  | clearQueue deleteSessionData =>
    -- only the end of a connection clears the queue, not a user
    have hclear := of_decide_eq_true horderly.1
    have hstate : c.state = .disconnectingTcp2 := by
      rcases hclear with h | h
      · have h : (if deleteSessionData then 2 else 0) = 1 := h
        split_ifs at h
        cases h
      · exact h.2
    refine .away ?_ hproper hunheard hidle (hc.line.clearQueue _)
    show isConnecting c.state = false
    rw [hstate]
    rfl
  | sendConnect hstate =>
    have hline := hc.line.sendPacket env
    refine ⟨hproper, hunheard, hidle, hline, fun _ => ?_, fun hwait _ => ?_⟩
    · exact (positions_sendPacket hwrite hc.proper horderly).1 (hc.touches (by rw [hstate]; rfl))
    · obtain ⟨item, rest, hfront, hnot⟩ := hc.waiting hwait (by rw [hstate]; rfl)
      exact front_sendPacket env hfront hnot
  | sendRound hsends =>
    have hline := hc.line.sendRound hwrite hc.proper horderly
    have hstate := state_sendRound env c
    refine ⟨hproper, hunheard, hidle, hline, fun hconnecting => ?_, fun hwait hconnecting => ?_⟩
    · rcases hstate with h | h <;> rw [h] at hconnecting
      · exact (hc.touches hconnecting).sendRound hwrite hc.proper horderly
      · cases hconnecting
    · rcases hstate with h | h <;> rw [h] at hconnecting
      · rw [hc.unheard.not_connecting hwait hsends.1] at hconnecting
        cases hconnecting
      · cases hconnecting
  | accept hstate hheard =>
    have hline := hc.line_admitted hheard horderly
    refine .away ?_ hproper hunheard hidle (hline.noted rfl rfl rfl rfl rfl le_rfl)
    show isConnecting c.admitted.state = false
    rcases state_admitted c with h | h <;> rw [h] <;> rfl
  | close => exact .away rfl hproper hunheard hidle hc.line.close

/-- **Publish order**: in every run in which the queue is not cleared and the server sends one CONNACK in a
connection. -/
theorem run_inTurn (env : Env cfg) (hwrite : ∀ tick size, 0 ≤ env.write tick size) (generatedClientId : CString)
    (actions : List Action)
    (h : Trace.Always (fun r earlier => r.isOrderly cfg earlier)
      ((new cfg generatedClientId).run env actions).log) :
    Trace.Always (fun r earlier => r.keepsOrder earlier) ((new cfg generatedClientId).run env actions).log ∧
      InPublishOrder ((new cfg generatedClientId).run env actions).log.published
        ((new cfg generatedClientId).run env actions).outbox := by
  have hnew : (new cfg generatedClientId).Ordered := by
    refine ⟨fun _ hmem => absurd hmem List.not_mem_nil, fun _ => rfl, fun _ => rfl, ⟨?_, trivial⟩, nofun, nofun⟩
    exact ⟨nofun, nofun, .nil, .nil, nofun⟩
  have hordered : ((new cfg generatedClientId).run env actions).Ordered :=
    run_flow_always env (fun r earlier => r.isOrderly cfg earlier) Ordered generatedClientId hnew
      (fun h => h.ordered hwrite) actions h
  exact ⟨hordered.line.keepsOrder, hordered.line.lined.inPublishOrder⟩

/-- Two messages, the first one of which is sent in pieces. -/
theorem run_inTurn_piecemeal :
    Trace.Always (fun r earlier => r.keepsOrder earlier) (piecemealScript.run [.call .connect,
      .call (.publish ⟨[0x61], by decide⟩ 1 false [1, 2]),
        .call (.publish ⟨[0x61], by decide⟩ 0 false [3]), .loop,
      .loop, .loop]).log ∧
    InPublishOrder (piecemealScript.run [.call .connect, .call (.publish ⟨[0x61], by decide⟩ 1 false [1, 2]),
        .call (.publish ⟨[0x61], by decide⟩ 0 false [3]), .loop, .loop, .loop]).log.published
      (piecemealScript.run [.call .connect, .call (.publish ⟨[0x61], by decide⟩ 1 false [1, 2]),
        .call (.publish ⟨[0x61], by decide⟩ 0 false [3]), .loop, .loop, .loop]).outbox := by
  apply run_inTurn
  · exact Script.write_nonneg .linux piecemealScript
  · decide +kernel

/-- A client that sends before the CONNACK. -/
def hastyConfig : Config :=
  { Config.linux with rxBufferSize := 16, waitForConnack := false, rxBufferSize_pos := by decide }

/-- The first message is so long that its size comes out as 0.  The CONNACK lets the cursor leave it, and the
second message goes out first. -/
theorem not_keepsOrder_empty : ¬ Trace.Always (fun r earlier => r.keepsOrder earlier)
    ((new hastyConfig ⟨[0x63], by decide⟩).run (Script.env hastyConfig { read := [(12, [0x20, 2, 1, 0])] })
      [.call .connect, .call (.publishChunked ⟨[0x61], by decide⟩ 1 false (.oneByte []) (2 ^ 64 - 11)),
        .call (.publish ⟨[0x61], by decide⟩ 1 false [1, 2]), .loop, .loop, .loop]).log := by
  decide +kernel

end MqttClient

end EspMqttClient
