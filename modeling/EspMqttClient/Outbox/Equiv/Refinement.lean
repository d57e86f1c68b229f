/-
  The linked `Outbox` refines a sequence with a cursor (`CursorList`).

  `Represents o l addrs` relates the two: `addrs` are the addresses of the nodes in order, without
  repetition; following `next` from `first` visits exactly them and ends at `last`; nothing else is
  allocated; `current` is the node at the cursor.  Of `prev` it asks only what the code needs: it is
  the node in front of the cursor unless the cursor is on the first node.  (`resetCurrent` leaves
  `prev` as it is, so with the cursor on the first node it can be any address, freed ones included.)

  Each operation keeps the relation (`emplace_represents` … `removeNode_represents`), and
  `Session.run_refines` puts them together: every sequence of operations runs without following a
  null or freed pointer, and what the caller sees is what it sees of the sequence with a cursor.
-/
import EspMqttClient.Outbox.Basic
import EspMqttClient.Data.CursorList
import Mathlib.Data.List.Infix
import Mathlib.Data.Finset.Basic
import Mathlib.Order.Interval.Finset.Nat

namespace EspMqttClient

variable {T : Type}

/-! ### The sequence a session stands for -/

/-- A sequence with a cursor and the live iterators into it: a position or past the end. -/
structure ListSession (T : Type) where
  outbox : CursorList T
  iterators : ℕ → Option (Option ℕ)

namespace ListSession

/-- The empty sequence and no iterator. -/
def new : ListSession T := ⟨.empty, fun _ => none⟩

/-- The iterator at position `i`. -/
def at? (l : CursorList T) (i : ℕ) : Option ℕ := if i < l.items.length then some i else none

/-- One operation on the sequence. -/
def step (s : ListSession T) : Op T → ListSession T × Obs T
  | .emplace slot x ok =>
    if ok then
      (⟨s.outbox.emplace x, Function.update s.iterators slot (some (some s.outbox.items.length))⟩,
        .bool true)
    else (⟨s.outbox, Function.update s.iterators slot (some none)⟩, .bool false)
  | .emplaceFront slot x ok =>
    if ok then
      (⟨s.outbox.emplaceFront x, Function.update (fun _ => none) slot (some (some 0))⟩, .bool true)
    else (⟨s.outbox, Function.update (fun _ => none) slot (some none)⟩, .bool false)
  | .next => (⟨s.outbox.next, s.iterators⟩, .unit)
  | .resetCurrent => (⟨s.outbox.resetCurrent, s.iterators⟩, .unit)
  | .removeCurrent => (⟨s.outbox.removeCurrent, fun _ => none⟩, .unit)
  | .getCurrent => (s, .item s.outbox.getCurrent)
  | .size => (s, .nat s.outbox.items.length)
  | .empty => (s, .bool s.outbox.items.isEmpty)
  | .front slot => (⟨s.outbox, Function.update s.iterators slot (some (at? s.outbox 0))⟩, .unit)
  | .advance slot =>
    match s.iterators slot with
    | none => (s, .dead)
    | some it =>
      (⟨s.outbox, Function.update s.iterators slot (some (it.bind fun i => at? s.outbox (i + 1)))⟩,
        .unit)
  | .get slot =>
    match s.iterators slot with
    | none => (s, .dead)
    | some it => (s, .item (it.bind fun i => s.outbox.items[i]?))
  | .remove slot =>
    match s.iterators slot with
    | none => (s, .dead)
    | some none => (⟨s.outbox, Function.update (fun _ => none) slot (some none)⟩, .unit)
    | some (some i) =>
      (⟨s.outbox.remove i, Function.update (fun _ => none) slot (some (at? (s.outbox.remove i) i))⟩,
        .unit)

/-- A sequence of operations: the final sequence and what was seen. -/
def run (s : ListSession T) : List (Op T) → ListSession T × List (Obs T)
  | [] => (s, [])
  | op :: ops =>
    let (s, seen) := s.step op
    let (s, rest) := s.run ops
    (s, seen :: rest)

end ListSession

/-! ### The representation relation -/

namespace Outbox

/-- The nodes at `addrs`, in this order, hold the items of `l`. -/
structure Represents (o : Outbox T) (l : CursorList T) (addrs : List Addr) : Prop where
  nodup : addrs.Nodup
  length : addrs.length = l.items.length
  /-- The chain: each node holds its item and points to the next one, the last one to null. -/
  node : ∀ i a, addrs[i]? = some a → ∃ x, l.items[i]? = some x ∧ o.heap a = some ⟨x, addrs[i + 1]?⟩
  /-- Nothing else is allocated. -/
  allocated : ∀ a, o.heap a ≠ none → a ∈ addrs
  count : o.allocated = addrs.length
  first : o.first = addrs[0]?
  last : o.last = addrs[addrs.length - 1]?
  current : o.current = addrs[l.cursor]?
  /-- Only behind the first node is `prev` the node in front of the cursor. -/
  prev : l.cursor = 0 ∨ o.prev = addrs[l.cursor - 1]?

/-- An iterator is on the node at a position, with the node in front of it, or past the end. -/
def Iterator.Represents (it : Iterator) (pos : Option ℕ) (addrs : List Addr) : Prop :=
  match pos with
  | none => it.node = none
  | some i => i < addrs.length ∧ it.node = addrs[i]? ∧ (i = 0 ∨ it.prev = addrs[i - 1]?)

theorem new_represents : (new : Outbox T).Represents .empty [] where
  nodup := List.nodup_nil
  length := rfl
  node := by simp
  allocated := by simp [new]
  count := rfl
  first := rfl
  last := rfl
  current := rfl
  prev := .inl rfl

variable {o : Outbox T} {l : CursorList T} {addrs : List Addr}

/-- A free address exists: only finitely many are allocated. -/
theorem Represents.exists_free (h : o.Represents l addrs) : ∃ a, o.heap a = none := by
  obtain ⟨a, ha⟩ := Infinite.exists_notMem_finset addrs.toFinset
  refine ⟨a, ?_⟩
  by_contra hne
  exact ha (List.mem_toFinset.mpr (h.allocated a hne))

/-- Two positions with the same address are the same. -/
theorem Represents.inj (h : o.Represents l addrs) {i j : ℕ} {a : Addr} (hi : addrs[i]? = some a)
    (hj : addrs[j]? = some a) : i = j := by
  obtain ⟨hi', rfl⟩ := List.getElem?_eq_some_iff.mp hi
  obtain ⟨hj', hij⟩ := List.getElem?_eq_some_iff.mp hj
  exact (h.nodup.getElem_inj_iff.mp hij).symm

/-- The node under the cursor is live and holds the current item. -/
theorem Represents.getCurrent (h : o.Represents l addrs) : o.getCurrent = some l.getCurrent := by
  rw [CursorList.getCurrent_eq, Outbox.getCurrent, h.current]
  rcases hc : addrs[l.cursor]? with _ | a
  · have : addrs.length ≤ l.cursor := List.getElem?_eq_none_iff.mp hc
    rw [List.getElem?_eq_none (h.length ▸ this)]
  · obtain ⟨x, hx, hn⟩ := h.node _ _ hc
    simp [hn, hx]

theorem Represents.isEmpty (h : o.Represents l addrs) : o.isEmpty = l.items.isEmpty := by
  rw [Outbox.isEmpty, h.first]
  rcases addrs with _ | ⟨a, as⟩
  · simp [List.length_eq_zero_iff.mp h.length.symm]
  · rcases hl : l.items with _ | ⟨x, xs⟩
    · simpa [hl] using h.length
    · simp

/-! ### Walking the chain -/

/-- From position `i` the counting loop finds the nodes that are left. -/
theorem Represents.sizeLoop (h : o.Represents l addrs) : ∀ (fuel i count : ℕ),
    addrs.length ≤ i + fuel → i ≤ addrs.length →
      o.sizeLoop fuel addrs[i]? count = some (count + (addrs.length - i)) := by
  intro fuel
  induction fuel with
  | zero =>
    intro i count hfuel hi
    rw [List.getElem?_eq_none (by omega), Outbox.sizeLoop]
    congr 1
    omega
  | succ fuel ih =>
    intro i count hfuel hi
    rcases hlt : addrs[i]? with _ | a
    · have := List.getElem?_eq_none_iff.mp hlt
      rw [Outbox.sizeLoop]
      congr 1
      omega
    · obtain ⟨x, -, hn⟩ := h.node _ _ hlt
      obtain ⟨hlt', -⟩ := List.getElem?_eq_some_iff.mp hlt
      have hstep : o.sizeLoop (fuel + 1) (some a) count = o.sizeLoop fuel addrs[i + 1]? (count + 1) := by
        simp [Outbox.sizeLoop, hn]
      rw [hstep, ih (i + 1) (count + 1) (by omega) (by omega)]
      congr 1
      omega

theorem Represents.size (h : o.Represents l addrs) : o.size = some l.items.length := by
  rw [Outbox.size, h.first, h.sizeLoop _ _ _ (by rw [h.count]; omega) (Nat.zero_le _), h.length]
  simp

/-! ### The cursor moves -/

theorem Represents.resetCurrent (h : o.Represents l addrs) :
    o.resetCurrent.Represents l.resetCurrent addrs :=
  { h with
    current := h.first
    prev := .inl rfl }

theorem Represents.next (h : o.Represents l addrs) :
    ∃ o', o.next = some o' ∧ o'.Represents l.next addrs := by
  rw [Outbox.next]
  rcases hc : o.current with _ | a
  · -- the cursor is past the end already
    have hend : addrs.length ≤ l.cursor := List.getElem?_eq_none_iff.mp (h.current ▸ hc)
    have hcur : l.next.cursor = l.cursor := by
      have := l.cursor_le
      rw [CursorList.cursor_next, ← h.length]
      have := h.length ▸ this
      omega
    exact ⟨o, rfl, { h with
      length := by simpa using h.length
      node := by simpa using h.node
      current := by rw [hcur, h.current]
      prev := by rw [hcur]; exact h.prev }⟩
  · have hcur := h.current.symm.trans hc
    obtain ⟨x, -, hn⟩ := h.node _ _ hcur
    obtain ⟨hlt, -⟩ := List.getElem?_eq_some_iff.mp hcur
    have hnext : l.next.cursor = l.cursor + 1 := by
      rw [CursorList.cursor_next, ← h.length]; omega
    refine ⟨{ o with prev := o.current, current := addrs[l.cursor + 1]? }, by simp [hn, hc], { h with
      length := by simpa using h.length
      node := by simpa using h.node
      current := by rw [hnext]
      prev := ?_ }⟩
    rw [hnext]
    exact .inr (by simpa using h.current)

/-! ### Insertion -/

theorem Represents.notMem_of_free (h : o.Represents l addrs) {a : Addr} (ha : o.heap a = none) :
    a ∉ addrs := by
  intro hmem
  obtain ⟨i, hi, rfl⟩ := List.getElem_of_mem hmem
  obtain ⟨y, -, hn⟩ := h.node i addrs[i] (List.getElem?_eq_getElem hi)
  rw [ha] at hn
  cases hn

theorem Represents.nodup_concat (h : o.Represents l addrs) {a : Addr} (ha : o.heap a = none) :
    (addrs ++ [a]).Nodup := by
  rw [List.nodup_append]
  refine ⟨h.nodup, List.nodup_singleton a, ?_⟩
  rintro b hb c hc rfl
  exact h.notMem_of_free ha (List.mem_singleton.mp hc ▸ hb)

/-- In an empty queue a new node becomes first, last and current. -/
theorem Represents.emplace_nil (h : o.Represents l []) {a : Addr} (ha : o.heap a = none) (x : T) :
    ∃ o' it, o.emplace (some a) x = some (o', it) ∧ o'.Represents (l.emplace x) ([] ++ [a]) ∧
      it.Represents (some l.items.length) ([] ++ [a]) := by
  have hcur := l.cursor_le
  have hitems : l.items = [] := List.length_eq_zero_iff.mp h.length.symm
  have hzero : l.cursor = 0 := by rw [hitems] at hcur; exact Nat.le_zero.mp hcur
  have hfirst : o.first = none := h.first
  refine ⟨{ o.alloc a ⟨x, none⟩ with first := some a, current := some a, last := some a },
    { node := some a }, by simp [Outbox.emplace, alloc, hfirst], ?_, ?_⟩
  · exact {
      nodup := h.nodup_concat ha
      length := by simp [hitems]
      node := by
        intro i b hb
        rcases i with _ | i
        · obtain rfl : a = b := by simpa using hb
          exact ⟨x, by simp [hitems], by simp [alloc]⟩
        · simp at hb
      allocated := by
        intro b hb
        by_contra hne
        have hba : b ≠ a := by simpa using hne
        exact absurd (h.allocated b (by simpa [alloc, hba] using hb)) (by simp)
      count := by simp [alloc, h.count]
      first := rfl
      last := rfl
      current := by simp [hzero]
      prev := .inl (by simp [hzero]) }
  · simp [Iterator.Represents, hitems]

/-- Behind a last node `z`, which gets the new one as its successor. -/
theorem Represents.emplace_concat {pre : List Addr} {z : Addr} (h : o.Represents l (pre ++ [z])) {a : Addr}
    (ha : o.heap a = none) (x : T) :
    ∃ o' it, o.emplace (some a) x = some (o', it) ∧ o'.Represents (l.emplace x) (pre ++ [z] ++ [a]) ∧
      it.Represents (some l.items.length) (pre ++ [z] ++ [a]) := by
  generalize hz' : pre ++ [z] = addrs at h ⊢
  have hmem := h.notMem_of_free ha
  have hlen := h.length
  have hcur := l.cursor_le
  have hzpos : addrs[addrs.length - 1]? = some z := by simp [← hz']
  have hlast : o.last = some z := h.last.trans hzpos
  obtain ⟨y, hy, hn⟩ := h.node _ _ hzpos
  have hnone : addrs[addrs.length - 1 + 1]? = none := List.getElem?_eq_none (by simp [← hz'])
  have hpos : 0 < addrs.length := by simp [← hz']
  have hfirst : o.first = some addrs[0] := by rw [h.first, List.getElem?_eq_getElem hpos]
  have hza : z ≠ a := fun hza => hmem (by rw [← hza, ← hz']; simp)
  set heap' := Function.update (Function.update o.heap a (some ⟨x, none⟩)) z (some ⟨y, some a⟩)
    with hheap'
  set o' : Outbox T :=
    { o with
      heap := heap'
      allocated := o.allocated + 1
      last := some a
      current := if o.current.isNone then some a else o.current } with ho'
  refine ⟨o', { node := some a, prev := some z }, ?_, ?_, ?_⟩
  · have hz : Function.update o.heap a (some ⟨x, none⟩) z = some ⟨y, none⟩ := by
      rw [Function.update_of_ne hza, hn, hnone]
    simp only [Outbox.emplace, alloc, hfirst, hlast, setNext, Option.bind_eq_bind, Option.bind_some,
      hz, Option.isNone_some, Bool.false_eq_true, if_false]
    rcases hc : o.current with _ | c <;> simp [ho', hheap', hfirst, hc]
  · exact {
      nodup := h.nodup_concat ha
      length := by simp [hlen]
      node := by
        intro i b hb
        rcases Nat.lt_trichotomy i (addrs.length - 1) with hi | hi | hi
        · -- a node in front of the old last one is as it was
          rw [List.getElem?_append_left (by omega)] at hb
          obtain ⟨w, hw, hnw⟩ := h.node i b hb
          have hbz : b ≠ z := fun hbz => by
            have := h.inj hb (hbz ▸ hzpos); omega
          have hba : b ≠ a := fun hba => hmem (hba ▸ List.mem_of_getElem? hb)
          refine ⟨w, ?_, ?_⟩
          · rw [CursorList.items_emplace, List.getElem?_append_left (by omega), hw]
          · rw [List.getElem?_append_left (by omega)]
            simp [ho', hheap', hbz, hba, hnw]
        · -- the old last node
          subst hi
          rw [List.getElem?_append_left (by omega), hzpos] at hb
          obtain rfl := Option.some.inj hb
          refine ⟨y, ?_, ?_⟩
          · rw [CursorList.items_emplace, List.getElem?_append_left (by omega), hy]
          · rw [Nat.sub_add_cancel hpos]
            simp [ho', hheap']
        · -- the new node
          have hi' : i = addrs.length := by
            have := (List.getElem?_eq_some_iff.mp hb).1
            simp only [List.length_append, List.length_singleton] at this
            omega
          subst hi'
          obtain rfl : a = b := by simpa using hb
          refine ⟨x, by simp [hlen], ?_⟩
          rw [List.getElem?_eq_none (by simp)]
          simp [ho', hheap', Function.update_of_ne hza.symm]
      allocated := by
        intro b hb
        by_contra hne
        have hne' : b ∉ addrs ∧ b ≠ a := by simpa using hne
        have hbz : b ≠ z := fun hbz => hne'.1 (by rw [hbz, ← hz']; simp)
        exact hne'.1 (h.allocated b (by simpa [ho', hheap', hbz, hne'.2] using hb))
      count := by simp [ho', h.count]
      first := by rw [List.getElem?_append_left hpos, ← h.first]
      last := by simp [ho']
      current := by
        simp only [ho', CursorList.cursor_emplace, h.current]
        by_cases hend : l.cursor < addrs.length
        · rw [List.getElem?_append_left hend, List.getElem?_eq_getElem hend]; rfl
        · have : l.cursor = addrs.length := by omega
          simp [this]
      prev := by
        rcases h.prev with h0 | hp
        · exact .inl h0
        · by_cases h0 : l.cursor = 0
          · exact .inl h0
          · exact .inr (by
              rw [CursorList.cursor_emplace, List.getElem?_append_left (by omega)]; exact hp) }
  · refine ⟨by simp [hlen], by simp [← hlen], .inr ?_⟩
    rw [← hlen, List.getElem?_append_left (by omega), hzpos]

/-- A new node goes behind the last one and the iterator returned is on it. -/
theorem Represents.emplace (h : o.Represents l addrs) {a : Addr} (ha : o.heap a = none) (x : T) :
    ∃ o' it, o.emplace (some a) x = some (o', it) ∧ o'.Represents (l.emplace x) (addrs ++ [a]) ∧
      it.Represents (some l.items.length) (addrs ++ [a]) := by
  rcases List.eq_nil_or_concat addrs with rfl | ⟨pre, z, rfl⟩
  · exact h.emplace_nil ha x
  · rw [List.concat_eq_append] at h ⊢
    exact h.emplace_concat ha x

/-- A new node goes in front of the first one, the cursor on it. -/
theorem Represents.emplaceFront (h : o.Represents l addrs) {a : Addr} (ha : o.heap a = none) (x : T) :
    (o.emplaceFront (some a) x).1.Represents (l.emplaceFront x) (a :: addrs) ∧
      (o.emplaceFront (some a) x).2.Represents (some 0) (a :: addrs) := by
  have hmem := h.notMem_of_free ha
  refine ⟨?_, by simp [Outbox.emplaceFront, Iterator.Represents]⟩
  have hheap : (o.emplaceFront (some a) x).1.heap
      = Function.update o.heap a (some ⟨x, addrs[0]?⟩) := by
    rw [← h.first]
    rcases hf : o.first with _ | b <;> simp [Outbox.emplaceFront, alloc, hf]
  exact {
    nodup := List.nodup_cons.mpr ⟨hmem, h.nodup⟩
    length := by simp [h.length]
    node := by
      intro i b hb
      rw [hheap]
      rcases i with _ | i
      · obtain rfl : a = b := by simpa using hb
        exact ⟨x, by simp, by simp⟩
      · have hb' : addrs[i]? = some b := by simpa using hb
        obtain ⟨w, hw, hn⟩ := h.node i b hb'
        have hba : b ≠ a := fun hba => hmem (hba ▸ List.mem_of_getElem? hb')
        exact ⟨w, by simpa using hw, by simp [Function.update_of_ne hba, hn]⟩
    allocated := by
      intro b hb
      rw [hheap] at hb
      by_cases hba : b = a
      · simp [hba]
      · rw [Function.update_of_ne hba] at hb
        exact List.mem_cons_of_mem _ (h.allocated b hb)
    count := by
      rcases hf : o.first with _ | b <;> simp [Outbox.emplaceFront, alloc, hf, h.count]
    first := by simp [Outbox.emplaceFront]
    last := by
      rcases addrs with _ | ⟨b, as⟩
      · have hf : o.first = none := h.first
        simp [Outbox.emplaceFront, hf]
      · have hf : o.first = some b := h.first
        have hl : o.last = (b :: as)[as.length]? := by simpa using h.last
        simp [Outbox.emplaceFront, hf, alloc, hl]
    current := by simp [Outbox.emplaceFront]
    prev := .inl rfl }

/-! ### Removal -/

/-- The first half of `_remove`: `_current` and `_prev` leave the node. -/
def retarget (o : Outbox T) (a : Addr) (next prev : Option Addr) : Outbox T :=
  { o with
    current := if o.current = some a then next else o.current
    prev := if o.prev = some a then prev else o.prev }

@[simp] theorem retarget_heap (a : Addr) (next prev : Option Addr) :
    (o.retarget a next prev).heap = o.heap := rfl

@[simp] theorem retarget_first (a : Addr) (next prev : Option Addr) :
    (o.retarget a next prev).first = o.first := rfl

@[simp] theorem retarget_last (a : Addr) (next prev : Option Addr) :
    (o.retarget a next prev).last = o.last := rfl

/-- The second half of `_remove`: the node is taken out of the chain. -/
def unlink (o : Outbox T) (a : Addr) (next prev : Option Addr) : Option (Outbox T) :=
  if o.first = o.last then some { o with first := none, last := none }
  else if o.first = some a then some { o with first := next }
  else if o.last = some a then setNext { o with last := prev } prev none
  else o.setNext prev next

theorem removeNode_eq {a : Addr} {n : Node T} (hn : o.heap a = some n) (prev : Option Addr) :
    o.removeNode prev (some a) =
      ((o.retarget a n.next prev).unlink a n.next prev).map fun o' => o'.delete a := by
  have hretarget : (if (if o.current = some a then { o with current := n.next } else o).prev = some a
      then { (if o.current = some a then { o with current := n.next } else o) with prev }
      else (if o.current = some a then { o with current := n.next } else o))
      = o.retarget a n.next prev := by
    rw [retarget]
    split_ifs <;> simp_all
  simp only [Outbox.removeNode, hn, Option.bind_eq_bind, Option.bind_some, hretarget, unlink]
  rw [Option.map_eq_bind]
  split_ifs <;> rfl

/-- What `_remove` changes when it takes out the node at position `i`: the two pointers that were on
the node move, the node in front of it gets its successor, and `first` and `last` follow. -/
structure Unlinks (o o' : Outbox T) (addrs : List Addr) (i : ℕ) (a : Addr) (prev : Option Addr) :
    Prop where
  heap : ∀ b, o'.heap b = if b = a then none else
    if 0 < i ∧ prev = some b then (o.heap b).map fun n => { n with next := addrs[i + 1]? }
    else o.heap b
  allocated : o'.allocated = o.allocated - 1
  first : o'.first = if i = 0 then addrs[1]? else o.first
  last : o'.last = if i + 1 = addrs.length then (if i = 0 then none else prev) else o.last
  current : o'.current = if o.current = some a then addrs[i + 1]? else o.current
  prev : o'.prev = if o.prev = some a then prev else o.prev

/-- The first node is unlinked without touching another one. -/
theorem Represents.removeNode_front (h : o.Represents l addrs) {a : Addr} (hi : addrs[0]? = some a)
    (prev : Option Addr) :
    ∃ o', o.removeNode prev (some a) = some o' ∧ Unlinks o o' addrs 0 a prev := by
  obtain ⟨x, -, hn⟩ := h.node 0 a hi
  have hfirst : o.first = some a := h.first.trans hi
  rw [removeNode_eq hn]
  by_cases hlen : addrs.length = 1
  · -- only one element in outbox
    have hlast : o.last = some a := by rw [h.last, hlen, ← hi]
    have hunlink := hfirst.trans hlast.symm
    refine ⟨_, by simp only [unlink, retarget_first, retarget_last, hunlink, if_true, Option.map_some]; rfl,
      ?_⟩
    exact {
      heap := by simp [delete, Function.update_apply]
      allocated := rfl
      first := by rw [if_pos rfl, List.getElem?_eq_none (by omega)]; rfl
      last := by rw [if_pos (by omega), if_pos rfl]; rfl
      current := rfl
      prev := rfl }
  · -- delete first el in longer outbox
    have hlt : 0 < addrs.length := (List.getElem?_eq_some_iff.mp hi).1
    have hne : some a ≠ o.last := by
      intro heq
      have := h.inj hi (h.last.symm.trans heq.symm)
      omega
    refine ⟨_, by
      simp only [unlink, retarget_first, retarget_last, hfirst, hne, if_true, if_false, Option.map_some]
      rfl, ?_⟩
    exact {
      heap := by simp [delete, Function.update_apply]
      allocated := rfl
      first := rfl
      last := by rw [if_neg (by omega)]; rfl
      current := rfl
      prev := rfl }

/-- A node further behind is unlinked by giving its successor to the node in front of it. -/
theorem Represents.removeNode_behind (h : o.Represents l addrs) {i : ℕ} {a : Addr} {prev : Option Addr}
    (hi : addrs[i]? = some a) (hpos : 0 < i) (hprev : prev = addrs[i - 1]?) :
    ∃ o', o.removeNode prev (some a) = some o' ∧ Unlinks o o' addrs i a prev := by
  obtain ⟨x, -, hn⟩ := h.node i a hi
  obtain ⟨hlt, -⟩ := List.getElem?_eq_some_iff.mp hi
  obtain ⟨p, hp⟩ : ∃ p, addrs[i - 1]? = some p := ⟨_, List.getElem?_eq_getElem (by omega)⟩
  obtain ⟨y, -, hnp⟩ := h.node (i - 1) p hp
  rw [hp] at hprev
  have hfirst : o.first ≠ some a := fun heq => by
    have := h.inj hi (h.first.symm.trans heq); omega
  have hne : o.first ≠ o.last := by
    intro heq
    obtain ⟨b, hb⟩ : ∃ b, addrs[0]? = some b := ⟨_, List.getElem?_eq_getElem (by omega)⟩
    have := h.inj hb ((h.last.symm.trans heq.symm).trans (h.first.trans hb))
    omega
  have hheap : ∀ (n : Node T) (b : Addr), n = { (⟨y, addrs[i - 1 + 1]?⟩ : Node T) with next := addrs[i + 1]? } →
      Function.update (Function.update o.heap p (some n)) a none b
        = if b = a then none else
          if 0 < i ∧ prev = some b then (o.heap b).map fun n => { n with next := addrs[i + 1]? }
          else o.heap b := by
    rintro n b rfl
    rw [Function.update_apply]
    by_cases hba : b = a
    · rw [if_pos hba, if_pos hba]
    rw [if_neg hba, if_neg hba, Function.update_apply]
    by_cases hbp : b = p
    · rw [if_pos hbp, if_pos ⟨hpos, by rw [hprev, hbp]⟩, hbp, hnp]; rfl
    · rw [if_neg hbp, if_neg fun hb => hbp (Option.some.inj (hb.2.symm.trans hprev))]
  rw [removeNode_eq hn]
  simp only [unlink, retarget_first, retarget_last, hne, hfirst, if_false]
  by_cases hend : i + 1 = addrs.length
  · -- delete last in longer outbox
    have hlast : o.last = some a := by rw [h.last, ← hi, ← hend]; rfl
    have hnone : addrs[i + 1]? = none := List.getElem?_eq_none (by omega)
    refine ⟨_, by
      simp only [hlast, if_true, setNext, hprev, retarget_heap, hnp, Option.bind_eq_bind, Option.bind_some,
        Option.map_some]
      rfl, ?_⟩
    exact {
      heap := fun b => hheap _ b (by rw [hnone])
      allocated := rfl
      first := by rw [if_neg (by omega)]; rfl
      last := by rw [if_pos hend, if_neg (by omega), hprev]; rfl
      current := rfl
      prev := by rw [hprev]; rfl }
  · -- delete somewhere in the middle
    have hlast : o.last ≠ some a := fun heq => by
      have := h.inj hi (h.last.symm.trans heq); omega
    refine ⟨_, by
      simp only [hlast, if_false, setNext, hprev, retarget_heap, hnp, Option.bind_eq_bind, Option.bind_some,
        Option.map_some]
      rfl, ?_⟩
    exact {
      heap := fun b => hheap _ b rfl
      allocated := rfl
      first := by rw [if_neg (by omega)]; rfl
      last := by rw [if_neg hend]; rfl
      current := rfl
      prev := by rw [hprev]; rfl }

/-- An address in front of `i` keeps its position, one behind `i` moves up. -/
theorem getElem?_eraseIdx_shift (addrs : List Addr) (i j : ℕ) :
    (addrs.eraseIdx i)[if i < j then j - 1 else j]? = if j = i then addrs[i + 1]? else addrs[j]? := by
  rcases Nat.lt_trichotomy j i with hj | rfl | hj
  · rw [if_neg (by omega), if_neg (by omega), List.getElem?_eraseIdx_of_lt hj]
  · rw [if_neg (by omega), if_pos rfl, List.getElem?_eraseIdx_of_ge le_rfl]
  · rw [if_pos hj, if_neg (by omega), List.getElem?_eraseIdx_of_ge (by omega),
      Nat.sub_add_cancel (by omega)]

/-- **Removal.** What `_remove` leaves is the sequence without the item at position `i`. -/
theorem Unlinks.represents {o' : Outbox T} {i : ℕ} {a : Addr} {prev : Option Addr}
    (hu : Unlinks o o' addrs i a prev) (h : o.Represents l addrs) (hi : addrs[i]? = some a)
    (hprev : i = 0 ∨ prev = addrs[i - 1]?) : o'.Represents (l.remove i) (addrs.eraseIdx i) := by
  obtain ⟨hlt, -⟩ := List.getElem?_eq_some_iff.mp hi
  have hlen := h.length
  have hcurle := l.cursor_le
  have hlen' : (addrs.eraseIdx i).length = addrs.length - 1 := List.length_eraseIdx_of_lt hlt
  have hcursor : o.current = some a ↔ l.cursor = i := by
    rw [h.current]
    exact ⟨fun hc => h.inj hc hi, fun hc => hc ▸ hi⟩
  exact {
    nodup := h.nodup.eraseIdx i
    length := by
      rw [hlen', CursorList.items_remove, List.length_eraseIdx_of_lt (by omega), hlen]
    node := by
      intro j b hb
      rw [CursorList.items_remove, hu.heap]
      rcases Nat.lt_or_ge j i with hj | hj
      · -- in front of `i`: only the node just in front of it gets a new successor
        rw [List.getElem?_eraseIdx_of_lt hj] at hb
        obtain ⟨y, hy, hn⟩ := h.node j b hb
        have hba : b ≠ a := fun hba => by have := h.inj hb (hba ▸ hi); omega
        have hprev' : prev = addrs[i - 1]? := hprev.resolve_left (by omega)
        refine ⟨y, by rw [List.getElem?_eraseIdx_of_lt hj, hy], ?_⟩
        rw [if_neg hba, hn]
        by_cases hji : j + 1 = i
        · obtain rfl : i - 1 = j := by omega
          rw [if_pos ⟨by omega, hprev'.trans hb⟩, List.getElem?_eraseIdx_of_ge (by omega), hji]
          rfl
        · rw [if_neg fun hp => by have := h.inj hb (hprev' ▸ hp.2); omega,
            List.getElem?_eraseIdx_of_lt (by omega)]
      · -- behind `i`: nothing changes but the position
        rw [List.getElem?_eraseIdx_of_ge hj] at hb
        obtain ⟨y, hy, hn⟩ := h.node (j + 1) b hb
        have hba : b ≠ a := fun hba => by have := h.inj hb (hba ▸ hi); omega
        refine ⟨y, by rw [List.getElem?_eraseIdx_of_ge hj, hy], ?_⟩
        rw [if_neg hba, hn, List.getElem?_eraseIdx_of_ge (by omega), if_neg]
        rintro ⟨hpos, hp⟩
        have := h.inj hb (hprev.resolve_left (by omega) ▸ hp)
        omega
    allocated := by
      intro b hb
      rw [hu.heap] at hb
      have hba : b ≠ a := fun hba => hb (if_pos hba)
      have hlive : o.heap b ≠ none := by
        intro hnone
        simp [hba, hnone] at hb
      obtain ⟨j, hj⟩ := List.mem_iff_getElem?.mp (h.allocated b hlive)
      refine List.mem_eraseIdx_iff_getElem?.mpr ⟨j, fun hji => hba ?_, hj⟩
      exact Option.some.inj (hj.symm.trans (hji ▸ hi))
    count := by rw [hlen', hu.allocated, h.count]
    first := by
      rw [hu.first, List.getElem?_eraseIdx]
      rcases Nat.eq_zero_or_pos i with rfl | hpos
      · simp
      · rw [if_neg (by omega), if_pos hpos, h.first]
    last := by
      rw [hu.last, hlen']
      by_cases hend : i + 1 = addrs.length
      · rw [if_pos hend]
        rcases Nat.eq_zero_or_pos i with rfl | hpos
        · rw [if_pos rfl, List.getElem?_eq_none (by omega)]
        · rw [if_neg (by omega), hprev.resolve_left (by omega), List.getElem?_eraseIdx_of_lt (by omega)]
          congr 1
          omega
      · rw [if_neg hend, h.last, List.getElem?_eraseIdx_of_ge (by omega)]
        congr 1
        omega
    current := by
      rw [hu.current, CursorList.cursor_remove, getElem?_eraseIdx_shift, h.current]
      simp only [← h.current, hcursor]
    prev := by
      rw [CursorList.cursor_remove]
      rcases Nat.eq_zero_or_pos l.cursor with hzero | hpos
      · exact .inl (by rw [if_neg (by omega), hzero])
      have hp : o.prev = addrs[l.cursor - 1]? := h.prev.resolve_left (by omega)
      have hiff : addrs[l.cursor - 1]? = some a ↔ l.cursor - 1 = i :=
        ⟨fun hc => h.inj hc hi, fun hc => hc ▸ hi⟩
      have hp' : o'.prev = if l.cursor - 1 = i then prev else addrs[l.cursor - 1]? := by
        rw [hu.prev, hp]
        simp only [hiff]
      rcases Nat.lt_trichotomy i (l.cursor - 1) with hlt' | heq | hgt
      · -- the node in front of the cursor moves up together with the cursor
        rw [hp', if_neg (show ¬ l.cursor - 1 = i by omega), if_pos (show i < l.cursor by omega),
          List.getElem?_eraseIdx_of_ge (by omega)]
        exact .inr (by congr 1; omega)
      · -- it is the node taken out, `prev` steps back
        rw [hp', if_pos heq.symm, if_pos (show i < l.cursor by omega), ← heq]
        rcases Nat.eq_zero_or_pos i with hzero | hpos'
        · exact .inl hzero
        · rw [List.getElem?_eraseIdx_of_lt (by omega), hprev.resolve_left (by omega)]
          exact .inr rfl
      · rw [hp', if_neg (show ¬ l.cursor - 1 = i by omega), if_neg (show ¬ i < l.cursor by omega),
          List.getElem?_eraseIdx_of_lt (by omega)]
        exact .inr rfl }

/-- `_remove` takes out the node at position `i`, given its predecessor; the predecessor of the first
node can be anything. -/
theorem Represents.removeNode (h : o.Represents l addrs) {i : ℕ} {a : Addr} {prev : Option Addr}
    (hi : addrs[i]? = some a) (hprev : i = 0 ∨ prev = addrs[i - 1]?) :
    ∃ o', o.removeNode prev (some a) = some o' ∧ o'.Represents (l.remove i) (addrs.eraseIdx i) := by
  obtain ⟨o', ho', hu⟩ : ∃ o', o.removeNode prev (some a) = some o' ∧ Unlinks o o' addrs i a prev := by
    rcases Nat.eq_zero_or_pos i with rfl | hpos
    · exact h.removeNode_front hi prev
    · exact h.removeNode_behind hi hpos (hprev.resolve_left (by omega))
  exact ⟨o', ho', hu.represents h hi hprev⟩

theorem Represents.removeCurrent (h : o.Represents l addrs) :
    ∃ o' addrs', o.removeCurrent = some o' ∧ o'.Represents l.removeCurrent addrs' := by
  rw [Outbox.removeCurrent, h.current, CursorList.removeCurrent_eq]
  rcases hc : addrs[l.cursor]? with _ | a
  · -- nothing under the cursor, nothing to remove
    have hend : l.items.length ≤ l.cursor := h.length ▸ List.getElem?_eq_none_iff.mp hc
    have hsame : l.remove l.cursor = l := by
      apply CursorList.ext_items
      · rw [CursorList.items_remove, List.eraseIdx_of_length_le hend]
      · rw [CursorList.cursor_remove, if_neg (lt_irrefl _)]
    exact ⟨o, addrs, rfl, by rw [hsame]; exact h⟩
  · obtain ⟨o', ho', hr⟩ := h.removeNode hc h.prev
    exact ⟨o', _, ho', hr⟩

/-! ### Iterators -/

/-- The iterator at a position, if it is one. -/
theorem Iterator.represents_at? (h : o.Represents l addrs) (i : ℕ) {it : Iterator}
    (hnode : it.node = addrs[i]?) (hprev : i = 0 ∨ it.prev = addrs[i - 1]?) :
    it.Represents (ListSession.at? l i) addrs := by
  rw [ListSession.at?]
  split_ifs with hi
  · exact ⟨h.length ▸ hi, hnode, hprev⟩
  · exact hnode.trans (List.getElem?_eq_none (by rw [h.length]; omega))

theorem Represents.front (h : o.Represents l addrs) :
    o.front.Represents (ListSession.at? l 0) addrs :=
  Iterator.represents_at? h 0 h.first (.inl rfl)

theorem Iterator.Represents.advance {it : Iterator} {pos : Option ℕ} (hit : it.Represents pos addrs)
    (h : o.Represents l addrs) :
    ∃ it', it.advance o = some it' ∧
      it'.Represents (pos.bind fun i => ListSession.at? l (i + 1)) addrs := by
  rcases pos with _ | i
  · have hnode : it.node = none := hit
    exact ⟨it, by simp [Iterator.advance, hnode], hnode⟩
  · obtain ⟨hlt, hnode, -⟩ := hit
    obtain ⟨x, -, hn⟩ := h.node i addrs[i] (List.getElem?_eq_getElem hlt)
    refine ⟨{ prev := it.node, node := addrs[i + 1]? }, ?_, ?_⟩
    · rw [Iterator.advance, hnode, List.getElem?_eq_getElem hlt]
      simp [hn]
    · exact Iterator.represents_at? h (i + 1) rfl (.inr (by simpa using hnode))

theorem Iterator.Represents.get {it : Iterator} {pos : Option ℕ} (hit : it.Represents pos addrs)
    (h : o.Represents l addrs) : it.get o = some (pos.bind fun i => l.items[i]?) := by
  rcases pos with _ | i
  · have hnode : it.node = none := hit
    simp [Iterator.get, hnode]
  · obtain ⟨hlt, hnode, -⟩ := hit
    obtain ⟨x, hx, hn⟩ := h.node i addrs[i] (List.getElem?_eq_getElem hlt)
    rw [Iterator.get, hnode, List.getElem?_eq_getElem hlt]
    simp [hn, hx]

/-- An iterator past the end removes nothing, one on a node takes it out and moves to the next. -/
theorem Iterator.Represents.remove {it : Iterator} {i : ℕ} (hit : it.Represents (some i) addrs)
    (h : o.Represents l addrs) :
    ∃ o' it' addrs', o.remove it = some (o', it') ∧ o'.Represents (l.remove i) addrs' ∧
      it'.Represents (ListSession.at? (l.remove i) i) addrs' := by
  obtain ⟨hlt, hnode, hprev⟩ := hit
  have hi := List.getElem?_eq_getElem hlt
  rw [hi] at hnode
  obtain ⟨x, -, hn⟩ := h.node i addrs[i] hi
  obtain ⟨o', ho', hr⟩ := h.removeNode hi hprev
  refine ⟨o', { prev := it.prev, node := addrs[i + 1]? }, addrs.eraseIdx i, ?_, hr, ?_⟩
  · simp only [Outbox.remove, hnode, hn, ho', Option.bind_eq_bind, Option.bind_some]
  · refine Iterator.represents_at? hr i ?_ ?_
    · rw [List.getElem?_eraseIdx_of_ge le_rfl]
    · rcases Nat.eq_zero_or_pos i with hzero | hpos
      · exact .inl hzero
      · rw [List.getElem?_eraseIdx_of_lt (by omega)]
        exact .inr (hprev.resolve_left (by omega))

/-- Taking a node out right after it was appended undoes every change. -/
theorem Represents.emplace_remove (h : o.Represents l addrs) {a : Addr} (ha : o.heap a = none) (x : T) :
    ∃ o₁ it₁ o₂ it₂ addrs', o.emplace (some a) x = some (o₁, it₁) ∧ o₁.remove it₁ = some (o₂, it₂) ∧
      o₂.Represents l addrs' := by
  obtain ⟨o₁, it₁, hemplace, h₁, hit₁⟩ := h.emplace ha x
  obtain ⟨o₂, it₂, addrs', hremove, h₂, -⟩ := hit₁.remove h₁
  rw [CursorList.remove_emplace] at h₂
  exact ⟨o₁, it₁, o₂, it₂, addrs', hemplace, hremove, h₂⟩

/-- Appending a node leaves every iterator where it was. -/
theorem Iterator.Represents.append {it : Iterator} {pos : Option ℕ} (hit : it.Represents pos addrs)
    (a : Addr) : it.Represents pos (addrs ++ [a]) := by
  rcases pos with _ | i
  · exact hit
  · obtain ⟨hlt, hnode, hprev⟩ := hit
    refine ⟨by simp; omega, by rw [List.getElem?_append_left hlt, hnode], hprev.imp id fun hprev => ?_⟩
    rw [List.getElem?_append_left (by omega), hprev]

end Outbox

/-! ### Sequences of operations -/

/-- The outbox of a session stands for the sequence, each live iterator for its position. -/
structure Session.Represents (s : Session T) (ls : ListSession T) (addrs : List Addr) : Prop where
  outbox : s.outbox.Represents ls.outbox addrs
  iterators : ∀ slot, Option.Rel (fun it pos => it.Represents pos addrs) (s.iterators slot)
    (ls.iterators slot)

namespace Session

variable {s : Session T} {ls : ListSession T} {addrs : List Addr}

theorem new_represents : (new : Session T).Represents .new [] where
  outbox := Outbox.new_represents
  iterators := fun _ => .none

/-- Iterators stay related when one slot is overwritten with a related pair. -/
theorem rel_update {its : ℕ → Option Outbox.Iterator} {poss : ℕ → Option (Option ℕ)}
    (h : ∀ slot, Option.Rel (fun it pos => it.Represents pos addrs) (its slot) (poss slot))
    {it : Outbox.Iterator} {pos : Option ℕ} (hit : it.Represents pos addrs) (slot slot' : ℕ) :
    Option.Rel (fun it pos => it.Represents pos addrs) (Function.update its slot (some it) slot')
      (Function.update poss slot (some pos) slot') := by
  rw [Function.update_apply, Function.update_apply]
  split_ifs
  · exact .some hit
  · exact h slot'

/-- Iterators stay related when a node is appended. -/
theorem rel_append {it : Option Outbox.Iterator} {pos : Option (Option ℕ)}
    (h : Option.Rel (fun it pos => it.Represents pos addrs) it pos) (a : Addr) :
    Option.Rel (fun it pos => it.Represents pos (addrs ++ [a])) it pos := by
  cases h with
  | some hit => exact .some (hit.append a)
  | none => exact .none

/-- A slot holds no iterator, or one on a position of the sequence. -/
theorem Represents.slot (h : s.Represents ls addrs) (slot : ℕ) :
    (s.iterators slot = none ∧ ls.iterators slot = none) ∨
      ∃ it pos, s.iterators slot = some it ∧ ls.iterators slot = some pos ∧ it.Represents pos addrs := by
  have hrel := h.iterators slot
  generalize s.iterators slot = it at hrel ⊢
  generalize ls.iterators slot = pos at hrel ⊢
  cases hrel with
  | none => exact .inl ⟨rfl, rfl⟩
  | some hit => exact .inr ⟨_, _, rfl, rfl, hit⟩

/-- **One step.** An operation that the caller may do never follows a null or freed pointer, shows
what the sequence with a cursor shows, and leaves a session that stands for the new sequence. -/
theorem Represents.step (h : s.Represents ls addrs) (al : Allocator T) (time : ℕ) (op : Op T) :
    ∃ s' addrs', s.step al time op = some (s', (ls.step op).2) ∧
      s'.Represents (ls.step op).1 addrs' := by
  have hfree := al.pick_free time s.outbox.heap h.outbox.exists_free
  have hnull : ({} : Outbox.Iterator).Represents none addrs := rfl
  have hdead : ∀ slot, Option.Rel (fun (it : Outbox.Iterator) pos => it.Represents pos addrs)
      ((fun _ => none : ℕ → Option Outbox.Iterator) slot) ((fun _ => none) slot) := fun _ => .none
  cases op with
  | emplace slot x ok =>
    cases ok
    · exact ⟨_, addrs, rfl, h.outbox, rel_update h.iterators hnull slot⟩
    · obtain ⟨o', it, ho', hr, hit⟩ := h.outbox.emplace hfree x
      refine ⟨⟨o', Function.update s.iterators slot (some it)⟩, _, ?_, hr, rel_update ?_ hit slot⟩
      · obtain ⟨hlt, hnode, -⟩ := hit
        rw [List.getElem?_eq_getElem hlt] at hnode
        simp [Session.step, ho', hnode, ListSession.step]
      · exact fun slot' => rel_append (h.iterators slot') _
  | emplaceFront slot x ok =>
    cases ok
    · exact ⟨_, addrs, rfl, h.outbox, rel_update hdead hnull slot⟩
    · obtain ⟨hr, hit⟩ := h.outbox.emplaceFront hfree x
      exact ⟨_, _, rfl, hr, rel_update (fun _ => .none) hit slot⟩
  | next =>
    obtain ⟨o', ho', hr⟩ := h.outbox.next
    exact ⟨⟨o', s.iterators⟩, addrs, by simp [Session.step, ho', ListSession.step], hr, h.iterators⟩
  | resetCurrent => exact ⟨_, addrs, rfl, h.outbox.resetCurrent, h.iterators⟩
  | removeCurrent =>
    obtain ⟨o', addrs', ho', hr⟩ := h.outbox.removeCurrent
    exact ⟨⟨o', fun _ => none⟩, addrs', by simp [Session.step, ho', ListSession.step], hr, fun _ => .none⟩
  | getCurrent =>
    exact ⟨s, addrs, by simp [Session.step, h.outbox.getCurrent, ListSession.step], h⟩
  | size => exact ⟨s, addrs, by simp [Session.step, h.outbox.size, ListSession.step], h⟩
  | empty => exact ⟨s, addrs, by simp [Session.step, h.outbox.isEmpty, ListSession.step], h⟩
  | front slot => exact ⟨_, addrs, rfl, h.outbox, rel_update h.iterators h.outbox.front slot⟩
  | advance slot =>
    rcases h.slot slot with ⟨hs, hls⟩ | ⟨it, pos, hs, hls, hit⟩
    · exact ⟨s, addrs, by simp [Session.step, ListSession.step, hs, hls],
        by simpa [ListSession.step, hls] using h⟩
    · obtain ⟨it', hit', hr⟩ := hit.advance h.outbox
      refine ⟨⟨s.outbox, Function.update s.iterators slot (some it')⟩, addrs,
        by simp [Session.step, ListSession.step, hs, hls, hit'], ?_⟩
      simp only [ListSession.step, hls]
      exact ⟨h.outbox, rel_update h.iterators hr slot⟩
  | get slot =>
    rcases h.slot slot with ⟨hs, hls⟩ | ⟨it, pos, hs, hls, hit⟩
    · exact ⟨s, addrs, by simp [Session.step, ListSession.step, hs, hls],
        by simpa [ListSession.step, hls] using h⟩
    · exact ⟨s, addrs, by simp [Session.step, ListSession.step, hs, hls, hit.get h.outbox],
        by simpa [ListSession.step, hls] using h⟩
  | remove slot =>
    rcases h.slot slot with ⟨hs, hls⟩ | ⟨it, _ | i, hs, hls, hit⟩
    · exact ⟨s, addrs, by simp [Session.step, ListSession.step, hs, hls],
        by simpa [ListSession.step, hls] using h⟩
    · -- past the end
      have hnode : it.node = none := hit
      refine ⟨⟨s.outbox, Function.update (fun _ => none) slot (some it)⟩, addrs,
        by simp [Session.step, ListSession.step, hs, hls, Outbox.remove, hnode], ?_⟩
      simp only [ListSession.step, hls]
      exact ⟨h.outbox, rel_update hdead hit slot⟩
    · obtain ⟨o', it', addrs', ho', hr, hit'⟩ := hit.remove h.outbox
      refine ⟨⟨o', Function.update (fun _ => none) slot (some it')⟩, addrs',
        by simp [Session.step, ListSession.step, hs, hls, ho'], ?_⟩
      simp only [ListSession.step, hls]
      exact ⟨hr, rel_update (fun _ => .none) hit' slot⟩

/-- A whole sequence of operations, from any session that stands for a sequence. -/
theorem Represents.run (al : Allocator T) : ∀ (ops : List (Op T)) (time : ℕ) (s : Session T)
    (ls : ListSession T) (addrs : List Addr), s.Represents ls addrs →
      ∃ s' addrs', s.run al time ops = some (s', (ls.run ops).2) ∧
        s'.Represents (ls.run ops).1 addrs'
  | [], _, s, ls, addrs, h => ⟨s, addrs, rfl, h⟩
  | op :: ops, time, s, ls, addrs, h => by
    obtain ⟨s', addrs', hs', h'⟩ := h.step al time op
    obtain ⟨s'', addrs'', hs'', h''⟩ := Represents.run al ops (time + 1) s' _ addrs' h'
    exact ⟨s'', addrs'', by simp [Session.run, hs', hs'', ListSession.run], h''⟩

/-- **The outbox refines a sequence with a cursor.** Whatever addresses the allocator hands out, any
sequence of operations on a new outbox runs without following a null or freed pointer, the caller
sees what it sees of the sequence, and at the end the queue stands for the sequence: same items in
the same order, `current` on the item at the cursor, `prev` on the node in front of it. -/
theorem run_refines (al : Allocator T) (ops : List (Op T)) :
    ∃ s addrs, (new : Session T).run al 0 ops = some (s, ((ListSession.new : ListSession T).run ops).2) ∧
      s.Represents ((ListSession.new : ListSession T).run ops).1 addrs :=
  Represents.run al ops 0 new .new [] new_represents

end Session

end EspMqttClient
