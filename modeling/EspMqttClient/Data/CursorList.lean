/-
  `CursorList` — a finite sequence with a cursor.

  The cursor is on one of the items or past the end.  The sequence is kept as the two lists on
  either side of it: `passed`, the items in front of the cursor in order, and `pending`, the item
  under the cursor followed by the rest.  Every pair of lists is a legal value, so no operation
  carries a bound: the cursor is past the end exactly when `pending` is empty.

  Operations that go by position (`remove`) are read off at `items` and `cursor`
  (`items_remove`, `cursor_remove`); operations at the cursor are read off at the two lists.
  `sweep` walks the whole sequence and removes what it is told not to keep, the way a loop over an
  iterator does; `sweep_eq_filter` says what is left of both sides.
-/
import Mathlib.Data.List.Basic
import Mathlib.Data.Nat.Basic
import Mathlib.Tactic.SplitIfs
import Mathlib.Order.Basic

/-- A finite sequence with a cursor on one of its items or past the end. -/
@[ext]
structure CursorList (α : Type*) where
  /-- The items in front of the cursor, in order. -/
  passed : List α
  /-- The item under the cursor and the ones behind it. -/
  pending : List α
deriving DecidableEq, Repr

namespace CursorList

variable {α : Type*}

/-- The empty sequence. -/
def empty : CursorList α := ⟨[], []⟩

/-- All the items, in order. -/
def items (l : CursorList α) : List α := l.passed ++ l.pending

/-- The position of the cursor. -/
def cursor (l : CursorList α) : ℕ := l.passed.length

/-- The number of items. -/
def size (l : CursorList α) : ℕ := l.items.length

/-- The item under the cursor. -/
def getCurrent (l : CursorList α) : Option α := l.pending.head?

/-- Append an item.  A cursor past the end ends up on it. -/
def emplace (l : CursorList α) (a : α) : CursorList α := ⟨l.passed, l.pending ++ [a]⟩

/-- Prepend an item and put the cursor on it. -/
def emplaceFront (l : CursorList α) (a : α) : CursorList α := ⟨[], a :: l.items⟩

/-- Advance the cursor. -/
def next (l : CursorList α) : CursorList α :=
  match l.pending with
  | [] => l
  | a :: as => ⟨l.passed ++ [a], as⟩

/-- Put the cursor on the first item. -/
def resetCurrent (l : CursorList α) : CursorList α := ⟨[], l.items⟩

/-- Delete the item under the cursor. -/
def removeCurrent (l : CursorList α) : CursorList α := ⟨l.passed, l.pending.tail⟩

/-- Replace the item under the cursor. -/
def modifyCurrent (l : CursorList α) (f : α → α) : CursorList α := ⟨l.passed, l.pending.modifyHead f⟩

/-- Delete the item at a position. -/
def remove (l : CursorList α) (i : ℕ) : CursorList α :=
  if i < l.cursor then ⟨l.passed.eraseIdx i, l.pending⟩
  else ⟨l.passed, l.pending.eraseIdx (i - l.cursor)⟩

/-- The position of the first item that satisfies `p`. -/
def find (l : CursorList α) (p : α → Bool) : Option ℕ := l.items.findIdx? p

/-- Keep the items that satisfy `keep`, on either side of the cursor. -/
def filter (l : CursorList α) (keep : α → Bool) : CursorList α :=
  ⟨l.passed.filter keep, l.pending.filter keep⟩

/-- Walk `fuel` items from position `i` on and delete those that `keep` refuses. -/
def sweep (keep : α → Bool) : ℕ → ℕ → CursorList α → CursorList α
  | 0, _, l => l
  | fuel + 1, i, l =>
    match l.items[i]? with
    | none => l
    | some a => if keep a then sweep keep fuel (i + 1) l else sweep keep fuel i (l.remove i)

/-! ### Items and cursor after each operation -/

@[simp] theorem items_empty : (empty : CursorList α).items = [] := rfl
@[simp] theorem cursor_empty : (empty : CursorList α).cursor = 0 := rfl

theorem cursor_le (l : CursorList α) : l.cursor ≤ l.items.length := by
  simp [cursor, items]

/-- A sequence is determined by its items and the position of its cursor. -/
theorem ext_items {l l' : CursorList α} (hitems : l.items = l'.items) (hcursor : l.cursor = l'.cursor) :
    l = l' := by
  obtain ⟨h1, h2⟩ := List.append_inj hitems hcursor
  exact CursorList.ext h1 h2

theorem getCurrent_eq (l : CursorList α) : l.getCurrent = l.items[l.cursor]? := by
  rw [getCurrent, items, cursor, List.getElem?_append_right le_rfl, Nat.sub_self, List.head?_eq_getElem?]

@[simp] theorem items_emplace (l : CursorList α) (a : α) : (l.emplace a).items = l.items ++ [a] := by
  simp [emplace, items]

@[simp] theorem cursor_emplace (l : CursorList α) (a : α) : (l.emplace a).cursor = l.cursor := rfl

@[simp] theorem items_emplaceFront (l : CursorList α) (a : α) :
    (l.emplaceFront a).items = a :: l.items := rfl

@[simp] theorem cursor_emplaceFront (l : CursorList α) (a : α) : (l.emplaceFront a).cursor = 0 := rfl

@[simp] theorem items_next (l : CursorList α) : l.next.items = l.items := by
  rcases l with ⟨passed, _ | ⟨a, as⟩⟩ <;> simp [next, items]

theorem cursor_next (l : CursorList α) : l.next.cursor = min (l.cursor + 1) l.items.length := by
  rcases l with ⟨passed, _ | ⟨a, as⟩⟩ <;> simp [next, items, cursor]

@[simp] theorem items_resetCurrent (l : CursorList α) : l.resetCurrent.items = l.items := rfl

@[simp] theorem cursor_resetCurrent (l : CursorList α) : l.resetCurrent.cursor = 0 := rfl

@[simp] theorem items_remove (l : CursorList α) (i : ℕ) : (l.remove i).items = l.items.eraseIdx i := by
  unfold remove
  split_ifs with h
  · simp [items, List.eraseIdx_append_of_lt_length h]
  · simp only [items]
    rw [List.eraseIdx_append_of_length_le (Nat.not_lt.mp h)]
    rfl

theorem cursor_remove (l : CursorList α) (i : ℕ) :
    (l.remove i).cursor = if i < l.cursor then l.cursor - 1 else l.cursor := by
  unfold remove
  split_ifs with h
  · exact List.length_eraseIdx_of_lt h
  · rfl

theorem removeCurrent_eq (l : CursorList α) : l.removeCurrent = l.remove l.cursor := by
  simp [removeCurrent, remove]

@[simp] theorem items_modifyCurrent (l : CursorList α) (f : α → α) :
    (l.modifyCurrent f).items = l.passed ++ l.pending.modifyHead f := rfl

@[simp] theorem cursor_modifyCurrent (l : CursorList α) (f : α → α) :
    (l.modifyCurrent f).cursor = l.cursor := rfl

/-! ### Taking back an insertion -/

/-- Removing the item that was just appended gives the old sequence back, cursor included. -/
theorem remove_emplace (l : CursorList α) (a : α) : (l.emplace a).remove l.items.length = l := by
  apply ext_items
  · rw [items_remove, items_emplace, List.eraseIdx_append_of_length_le le_rfl]
    simp
  · have := l.cursor_le
    rw [cursor_remove, cursor_emplace, if_neg (by omega)]

/-- Removing the item that was just prepended leaves the cursor on the first of the old items. -/
theorem remove_emplaceFront (l : CursorList α) (a : α) : (l.emplaceFront a).remove 0 = l.resetCurrent :=
  rfl

/-! ### Searching -/

theorem find_eq_some_iff {l : CursorList α} {p : α → Bool} {i : ℕ} :
    l.find p = some i ↔
      ∃ h : i < l.items.length, p l.items[i] ∧ ∀ (j : ℕ) (hj : j < i), ¬ p (l.items.get ⟨j, by omega⟩) := by
  simp only [find, List.findIdx?_eq_some_iff_getElem, List.get_eq_getElem]

/-! ### Membership -/

theorem mem_items_of_mem_remove {l : CursorList α} {i : ℕ} {a : α} (h : a ∈ (l.remove i).items) :
    a ∈ l.items := by
  rw [items_remove] at h
  exact List.mem_of_mem_eraseIdx h

theorem getCurrent_mem {l : CursorList α} {a : α} (h : l.getCurrent = some a) : a ∈ l.items := by
  rw [getCurrent_eq] at h
  exact List.mem_of_getElem? h

/-! ### Sweeping -/

@[simp] theorem items_filter (l : CursorList α) (keep : α → Bool) :
    (l.filter keep).items = l.items.filter keep := by
  simp [filter, items]

/-- A list with everything from position `j` on filtered. -/
def filterFrom (keep : α → Bool) (j : ℕ) (xs : List α) : List α := xs.take j ++ (xs.drop j).filter keep

@[simp] theorem filterFrom_zero (keep : α → Bool) (xs : List α) :
    filterFrom keep 0 xs = xs.filter keep := by
  simp [filterFrom]

theorem filterFrom_of_length_le {keep : α → Bool} {j : ℕ} {xs : List α} (h : xs.length ≤ j) :
    filterFrom keep j xs = xs := by
  simp [filterFrom, List.take_of_length_le, List.drop_of_length_le, h]

/-- An item that is kept is passed over. -/
theorem filterFrom_succ {keep : α → Bool} {j : ℕ} {xs : List α} (h : j < xs.length)
    (hkeep : keep xs[j]) : filterFrom keep (j + 1) xs = filterFrom keep j xs := by
  rw [filterFrom, filterFrom, List.drop_eq_getElem_cons h, List.filter_cons_of_pos hkeep,
    List.take_succ_eq_append_getElem h, List.append_assoc]
  rfl

/-- An item that is refused makes room for the one behind it. -/
theorem filterFrom_eraseIdx {keep : α → Bool} {j : ℕ} {xs : List α} (h : j < xs.length)
    (hkeep : ¬ keep xs[j]) : filterFrom keep j (xs.eraseIdx j) = filterFrom keep j xs := by
  have hlen : (xs.take j).length = j := by rw [List.length_take]; omega
  rw [filterFrom, filterFrom, List.drop_eq_getElem_cons h, List.filter_cons_of_neg hkeep,
    List.eraseIdx_eq_take_drop_succ, List.take_left' hlen, List.drop_left' hlen]

/-- What a sweep from position `i` leaves: nothing changes in front of `i`, everything from `i` on
is filtered. -/
theorem sweep_spec (keep : α → Bool) : ∀ (fuel i : ℕ) (l : CursorList α), l.items.length ≤ i + fuel →
    sweep keep fuel i l = ⟨filterFrom keep i l.passed, filterFrom keep (i - l.cursor) l.pending⟩ := by
  have hdone : ∀ (i : ℕ) (l : CursorList α), l.items.length ≤ i →
      l = ⟨filterFrom keep i l.passed, filterFrom keep (i - l.cursor) l.pending⟩ := by
    intro i l hi
    have hlen : l.passed.length + l.pending.length ≤ i := by simpa [items] using hi
    have hp : l.passed.length ≤ i := by omega
    have hq : l.pending.length ≤ i - l.cursor := by simp only [cursor]; omega
    rw [filterFrom_of_length_le hp, filterFrom_of_length_le hq]
  intro fuel
  induction fuel with
  | zero => exact hdone
  | succ fuel ih =>
    intro i l hfuel
    simp only [sweep]
    by_cases hi : i < l.items.length
    · rw [List.getElem?_eq_getElem hi]
      simp only
      have hlen : (l.remove i).items.length ≤ i + fuel := by
        rw [items_remove, List.length_eraseIdx_of_lt hi]; omega
      by_cases hcur : i < l.cursor
      · -- the walk is still in front of the cursor
        have hget : l.items[i] = l.passed.get ⟨i, hcur⟩ := List.getElem_append_left hcur
        have hzero : i - l.cursor = 0 := by omega
        rw [hget, hzero]
        split_ifs with hkeep
        · rw [ih (i + 1) l (by omega), filterFrom_succ hcur hkeep, show i + 1 - l.cursor = 0 by omega]
        · have hz : i - (l.remove i).cursor ≤ 0 := by rw [cursor_remove, if_pos hcur]; omega
          rw [ih i _ hlen, Nat.le_zero.mp hz, remove, if_pos hcur, filterFrom_eraseIdx hcur hkeep]
      · -- the walk is at or behind the cursor
        have hle : l.passed.length ≤ i := Nat.not_lt.mp hcur
        have hj : i - l.cursor < l.pending.length := by
          simp only [items, List.length_append, cursor] at hi hle ⊢; omega
        have hget : l.items[i] = l.pending[i - l.cursor] := List.getElem_append_right hle
        rw [hget]
        split_ifs with hkeep
        · rw [ih (i + 1) l (by omega), show i + 1 - l.cursor = i - l.cursor + 1 by omega,
            filterFrom_succ hj hkeep, filterFrom_of_length_le hle, filterFrom_of_length_le (by omega)]
        · rw [ih i _ hlen, cursor_remove, if_neg hcur, remove, if_neg hcur, filterFrom_eraseIdx hj hkeep]
    · rw [List.getElem?_eq_none (Nat.not_lt.mp hi)]
      exact hdone i l (Nat.not_lt.mp hi)

/-- A sweep over the whole sequence is a filter of both sides of the cursor. -/
theorem sweep_eq_filter (keep : α → Bool) (l : CursorList α) :
    sweep keep l.size 0 l = l.filter keep := by
  rw [sweep_spec keep _ _ _ (by simp [size])]
  simp [filter]

end CursorList
