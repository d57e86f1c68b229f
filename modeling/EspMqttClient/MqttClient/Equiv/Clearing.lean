/-
  `_clearQueue` on the linked queue.

  The loops remove through an iterator that carries its own predecessor, while the pointers of the
  queue move under it.  Every round takes the iterator to the next node, be it by `++it` or by
  `remove` (`clearRound_represents`), so there are as many rounds as there are nodes, and what is
  left is a filter of the sequence on either side of the cursor (`clearQueue_filters`).
-/
import EspMqttClient.MqttClient.Equiv.Queued
import EspMqttClient.Outbox.Equiv.Refinement

namespace EspMqttClient

namespace MqttClient

/-! ### The loops -/

/-- One round of the loop of `_clearQueue`, `none` when it follows a null or freed pointer. -/
def clearRound (clearData : ℕ) (o : Outbox OutgoingPacket) (it : Outbox.Iterator) :
    Option (Outbox OutgoingPacket × Outbox.Iterator) :=
  if clearData = 0 then do
    let item ← (← it.get o)
    let type := item.packet.packetType
    if type = PacketType.PUBREC ∨ type = PacketType.PUBREL ∨
        (type = PacketType.PUBLISH ∧ item.packet.packetId ≠ 0) then do
      let it ← it.advance o
      some (o, it)
    else o.remove it
  else if clearData = 1 then do
    let item ← (← it.get o)
    if item.packet.packetType = PacketType.PUBLISH then do
      let it ← it.advance o
      some (o, it)
    else o.remove it
  else o.remove it

/-- From this queue and this iterator the loop ends after so many rounds with a queue. -/
inductive Clears (clearData : ℕ) : Outbox OutgoingPacket → Outbox.Iterator → ℕ → Outbox OutgoingPacket → Prop
  | done {o : Outbox OutgoingPacket} {it : Outbox.Iterator} (h : it.node = none) : Clears clearData o it 0 o
  | round {o o' o'' : Outbox OutgoingPacket} {it it' : Outbox.Iterator} {n : ℕ} (h : it.node ≠ none)
      (hround : clearRound clearData o it = some (o', it')) (hrest : Clears clearData o' it' n o'') :
      Clears clearData o it (n + 1) o''

/-- The loop ends in one way. -/
theorem Clears.unique {clearData : ℕ} {o o' o'' : Outbox OutgoingPacket} {it : Outbox.Iterator} {n n' : ℕ}
    (h : Clears clearData o it n o') (h' : Clears clearData o it n' o'') : n' = n ∧ o'' = o' := by
  induction h generalizing n' with
  | done hnode =>
    cases h' with
    | done => exact ⟨rfl, rfl⟩
    | round hne => exact absurd hnode hne
  | round hne hround hrest ih =>
    cases h' with
    | done hnode => exact absurd hnode hne
    | round _ hround' hrest' =>
      obtain ⟨rfl, rfl⟩ := Prod.mk.inj (Option.some.inj (hround.symm.trans hround'))
      obtain ⟨rfl, rfl⟩ := ih hrest'
      exact ⟨rfl, rfl⟩

/-! ### One round -/

/-- A round goes over an item that is kept and removes any other. -/
theorem clearRound_eq (clearData : ℕ) {o : Outbox OutgoingPacket} {it : Outbox.Iterator} {item : OutgoingPacket}
    (hget : it.get o = some (some item)) :
    clearRound clearData o it =
      if keeps clearData item then (it.advance o).map fun it => (o, it) else o.remove it := by
  have hadvance : (do let it ← it.advance o; some (o, it)) = (it.advance o).map fun it => (o, it) := by
    cases it.advance o <;> rfl
  rw [clearRound, keeps, hget]
  by_cases hzero : clearData = 0
  · simp [hzero, hadvance, OutgoingPacket.isType]
  · by_cases hone : clearData = 1
    · simp [hone, hadvance, OutgoingPacket.isType]
    · simp [hzero, hone]

/-- A round at position `i` is a step of the sweep. -/
theorem clearRound_represents (clearData : ℕ) {o : Outbox OutgoingPacket} {l : CursorList OutgoingPacket}
    {addrs : List Addr} (h : o.Represents l addrs) {it : Outbox.Iterator} {i : ℕ} (hi : i < l.items.length)
    (hit : it.Represents (some i) addrs) :
    ∃ o' it' addrs', clearRound clearData o it = some (o', it') ∧
      if keeps clearData l.items[i] then
        o'.Represents l addrs' ∧ it'.Represents (ListSession.at? l (i + 1)) addrs'
      else o'.Represents (l.remove i) addrs' ∧ it'.Represents (ListSession.at? (l.remove i) i) addrs' := by
  have hget : it.get o = some (some l.items[i]) := by
    rw [hit.get h, Option.bind_some, List.getElem?_eq_getElem hi]
  rw [clearRound_eq clearData hget]
  split_ifs with hkeep
  · obtain ⟨it', hadvance, hit'⟩ := hit.advance h
    exact ⟨o, it', addrs, by rw [hadvance]; rfl, h, hit'⟩
  · obtain ⟨o', it', addrs', hremove, h', hit'⟩ := hit.remove h
    exact ⟨o', it', addrs', hremove, h', hit'⟩

/-! ### All rounds -/

/-- From position `i` on the loop sweeps the rest of the queue. -/
theorem clears_represents (clearData : ℕ) (n : ℕ) {o : Outbox OutgoingPacket} {l : CursorList OutgoingPacket}
    {addrs : List Addr} (h : o.Represents l addrs) {it : Outbox.Iterator} {i : ℕ} (hn : i + n = l.items.length)
    (hit : it.Represents (ListSession.at? l i) addrs) :
    ∃ o' addrs', Clears clearData o it n o' ∧ o'.Represents (.sweep (keeps clearData) n i l) addrs' := by
  induction n generalizing o l addrs it i with
  | zero =>
    rw [ListSession.at?, if_neg (by omega)] at hit
    exact ⟨o, addrs, .done hit, h⟩
  | succ n ih =>
    have hi : i < l.items.length := by omega
    rw [ListSession.at?, if_pos hi] at hit
    obtain ⟨o', it', addrs', hround, h'⟩ := clearRound_represents clearData h hi hit
    -- the loop goes on as long as the iterator is on a node
    have hnode : it.node ≠ none := by
      obtain ⟨hlt, hnode, -⟩ := hit
      rw [hnode, List.getElem?_eq_getElem hlt]
      exact Option.some_ne_none _
    rw [CursorList.sweep, List.getElem?_eq_getElem hi]
    dsimp only
    split_ifs at h' ⊢
    · -- kept: the next position
      obtain ⟨o'', addrs'', hclears, h''⟩ := ih h'.1 (by omega) h'.2
      exact ⟨o'', addrs'', .round hnode hround hclears, h''⟩
    · -- removed: the same position, with one item less behind it
      have hlength : i + n = (l.remove i).items.length := by
        rw [CursorList.items_remove, List.length_eraseIdx_of_lt hi]
        omega
      obtain ⟨o'', addrs'', hclears, h''⟩ := ih h'.1 hlength h'.2
      exact ⟨o'', addrs'', .round hnode hround hclears, h''⟩

/-! ### What is left -/

/-- What is kept is left, in order; the cursor is on the first item left at or behind its old place, if there is
one. -/
structure Cleared (clearData : ℕ) (l l' : CursorList OutgoingPacket) : Prop where
  items : l'.items = l.items.filter (keeps clearData)
  cursor : l'.cursor = ((l.items.take l.cursor).filter (keeps clearData)).length
  current : l'.getCurrent = (l.items.drop l.cursor).find? (keeps clearData)

theorem cleared_filter (clearData : ℕ) (l : CursorList OutgoingPacket) :
    Cleared clearData l (l.filter (keeps clearData)) where
  items := l.items_filter _
  cursor := by
    rw [CursorList.items, CursorList.cursor, CursorList.cursor, List.take_left]
    rfl
  current := by
    rw [CursorList.items, CursorList.cursor, List.drop_left, CursorList.getCurrent, CursorList.filter,
      List.head?_filter]

/-- **`_clearQueue` is a filter that keeps the cursor.** On every queue the loop ends, after one round for
each node and without following a null or freed pointer, and leaves the queue for what is kept; which is
what the client has. -/
theorem clearQueue_filters (clearData : ℕ) (o : Outbox OutgoingPacket) (l : CursorList OutgoingPacket)
    (addrs : List Addr) (h : o.Represents l addrs) :
    ∃ (o' : Outbox OutgoingPacket) (l' : CursorList OutgoingPacket) (addrs' : List Addr),
      Clears clearData o o.front l.items.length o' ∧
      (∀ n o'', Clears clearData o o.front n o'' → n = l.items.length ∧ o'' = o') ∧
      o'.Represents l' addrs' ∧ Cleared clearData l l' ∧
      ∀ (cfg : Config) (c : MqttClient cfg), c.outbox = l → (c.clearQueue clearData).outbox = l' := by
  obtain ⟨o', addrs', hclears, h'⟩ := clears_represents clearData l.items.length h (Nat.zero_add _) h.front
  have hsweep := CursorList.sweep_eq_filter (keeps clearData) l
  rw [CursorList.size] at hsweep
  rw [hsweep] at h'
  refine ⟨o', l.filter (keeps clearData), addrs', hclears, fun n o'' hother => hclears.unique hother, h',
    cleared_filter clearData l, fun cfg c hc => ?_⟩
  rw [outbox_clearQueue, hc]

/-- A PINGREQ in front of a message of quality 1, the cursor on the PINGREQ: the message is left, and the
cursor is on it. -/
theorem clearQueue_filters_ping :
    let alloc : Alloc := ⟨20000, true, true⟩
    let ping : OutgoingPacket := ⟨0, (Packet.control .linux alloc PacketType.PINGREQ).2, 0⟩
    let message : OutgoingPacket := ⟨0, (Packet.publish .linux alloc 7 .empty [1] 1 false).2, 0⟩
    let o := ((Outbox.new.emplaceFront (some 0) message).1.emplaceFront (some 1) ping).1
    let l : CursorList OutgoingPacket := ⟨[], [ping, message]⟩
    ∃ (o' : Outbox OutgoingPacket) (l' : CursorList OutgoingPacket) (addrs' : List Addr),
      Clears 0 o o.front 2 o' ∧ (∀ n o'', Clears 0 o o.front n o'' → n = 2 ∧ o'' = o') ∧
      o'.Represents l' addrs' ∧ Cleared 0 l l' ∧
      ∀ (cfg : Config) (c : MqttClient cfg), c.outbox = l → (c.clearQueue 0).outbox = l' := by
  intro alloc ping message o l
  have hone := (Outbox.new_represents.emplaceFront
    (rfl : (Outbox.new : Outbox OutgoingPacket).heap 0 = none) message).1
  exact clearQueue_filters 0 o l [1, 0] (hone.emplaceFront rfl ping).1

end MqttClient

end EspMqttClient
