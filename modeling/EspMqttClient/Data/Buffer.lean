/-
  `Buffer` — an array of fixed size that is filled from front to back.

  `put` writes a run of items at the write position and advances it; what would fall behind the end
  is dropped, so the size never changes.  `Holds` says what was written in front of the write
  position: as long as everything fits, the concatenation of the runs (`Holds.put`), and once the write
  position is at the end that is the whole array (`Holds.data_eq`).
-/
import Mathlib.Data.List.Basic
import Mathlib.Tactic.SplitIfs

/-- An array of fixed size with a write position. -/
structure Buffer (α : Type*) where
  data : List α
  pos : ℕ
deriving DecidableEq, Repr

namespace Buffer

variable {α : Type*}

/-- A buffer of `n` equal items, the write position at the front. -/
def fill (n : ℕ) (a : α) : Buffer α := ⟨List.replicate n a, 0⟩

/-- Overwrite the items from the write position on. -/
def put (b : Buffer α) (xs : List α) : Buffer α where
  data := b.data.take b.pos ++ xs.take (b.data.length - b.pos) ++ b.data.drop (b.pos + xs.length)
  pos := b.pos + xs.length

/-- Put the write position back to the front. -/
def rewind (b : Buffer α) : Buffer α := { b with pos := 0 }

/-- The items in front of the write position. -/
def written (b : Buffer α) : List α := b.data.take b.pos

@[simp] theorem length_data_fill (n : ℕ) (a : α) : (fill n a).data.length = n := by simp [fill]

@[simp] theorem written_fill (n : ℕ) (a : α) : (fill n a).written = [] := rfl

@[simp] theorem pos_fill (n : ℕ) (a : α) : (fill n a).pos = 0 := rfl

@[simp] theorem pos_put (b : Buffer α) (xs : List α) : (b.put xs).pos = b.pos + xs.length := rfl

@[simp] theorem length_data_put (b : Buffer α) (xs : List α) :
    (b.put xs).data.length = b.data.length := by
  simp only [put, List.length_append, List.length_take, List.length_drop]
  omega

@[simp] theorem length_data_rewind (b : Buffer α) : b.rewind.data.length = b.data.length := rfl

/-- What was written in front of the write position stays. -/
theorem take_data_put (b : Buffer α) (xs : List α) {k : ℕ} (hk : k ≤ b.pos) :
    (b.put xs).data.take k = b.data.take k := by
  rcases Nat.le_total b.pos b.data.length with h | h
  · have hlen : (b.data.take b.pos).length = b.pos := List.length_take_of_le h
    rw [put, List.append_assoc, List.take_append_of_le_length (by omega), List.take_take,
      Nat.min_eq_left hk]
  · rw [put, List.take_of_length_le h, Nat.sub_eq_zero_of_le h, List.drop_of_length_le (by omega)]
    simp

/-- A run that fits is appended to what was written. -/
theorem written_put (b : Buffer α) (xs : List α) (h : b.pos + xs.length ≤ b.data.length) :
    (b.put xs).written = b.written ++ xs := by
  have hlen : (b.data.take b.pos).length = b.pos := List.length_take_of_le (by omega)
  have hxs : xs.take (b.data.length - b.pos) = xs := List.take_of_length_le (by omega)
  have hall : (b.data.take b.pos ++ xs).length = b.pos + xs.length := by
    rw [List.length_append, hlen]
  rw [written, pos_put, put, written, hxs, List.take_append_of_le_length (Nat.le_of_eq hall.symm),
    List.take_of_length_le (Nat.le_of_eq hall)]

/-- A buffer of `n` items that holds `xs` in front of its write position. -/
structure Holds (b : Buffer α) (n : ℕ) (xs : List α) : Prop where
  length : b.data.length = n
  pos : b.pos = xs.length
  written : b.written = xs

theorem holds_fill (n : ℕ) (a : α) : (fill n a).Holds n [] := ⟨by simp, rfl, rfl⟩

theorem Holds.put {b : Buffer α} {n : ℕ} {xs : List α} (h : b.Holds n xs) (ys : List α)
    (hfit : xs.length + ys.length ≤ n) : (b.put ys).Holds n (xs ++ ys) where
  length := by rw [length_data_put, h.length]
  pos := by rw [pos_put, h.pos, List.length_append]
  written := by rw [written_put _ _ (by rw [h.pos, h.length]; exact hfit), h.written]

/-- A run for each of a list of values. -/
theorem Holds.foldl {β : Type*} {f : Buffer α → β → Buffer α} {enc : β → List α} {n : ℕ} {list : List β}
    (hf : ∀ a ∈ list, ∀ b xs, b.Holds n xs → xs.length + (enc a).length ≤ n → (f b a).Holds n (xs ++ enc a))
    {b : Buffer α} {xs : List α} (h : b.Holds n xs) (hfit : xs.length + (list.flatMap enc).length ≤ n) :
    (list.foldl f b).Holds n (xs ++ list.flatMap enc) := by
  induction list generalizing b xs with
  | nil => simpa using h
  | cons a list ih =>
    rw [List.flatMap_cons, List.length_append] at hfit
    have hfirst := hf a List.mem_cons_self b xs h (by omega)
    rw [List.foldl_cons, List.flatMap_cons, ← List.append_assoc]
    exact ih (fun c hc => hf c (List.mem_cons_of_mem _ hc)) hfirst (by rw [List.length_append]; omega)

/-- A buffer that is full is what it holds. -/
theorem Holds.data_eq {b : Buffer α} {n : ℕ} {xs : List α} (h : b.Holds n xs) (hfull : xs.length = n) :
    b.data = xs := by
  have hle : b.data.length ≤ b.pos := by simp only [h.length, h.pos, hfull, Nat.le_refl]
  rw [← List.take_of_length_le hle]
  exact h.written

/-- A buffer of `n` items that holds `xs`, and behind that nothing but `a`. -/
structure HoldsThen (b : Buffer α) (n : ℕ) (a : α) (xs : List α) : Prop where
  le : xs.length ≤ n
  pos : b.pos = xs.length
  data : b.data = xs ++ List.replicate (n - xs.length) a

theorem holdsThen_fill (n : ℕ) (a : α) : (fill n a).HoldsThen n a [] := ⟨Nat.zero_le n, rfl, by simp [fill]⟩

theorem HoldsThen.put {b : Buffer α} {n : ℕ} {a : α} {xs : List α} (h : b.HoldsThen n a xs) (ys : List α)
    (hfit : xs.length + ys.length ≤ n) : (b.put ys).HoldsThen n a (xs ++ ys) where
  le := by rw [List.length_append]; exact hfit
  pos := by rw [pos_put, h.pos, List.length_append]
  data := by
    have hlen : b.data.length = n := by
      rw [h.data, List.length_append, List.length_replicate]
      omega
    have hys : ys.take (n - xs.length) = ys := List.take_of_length_le (by omega)
    have hrest : b.data.drop (xs.length + ys.length) = List.replicate (n - (xs ++ ys).length) a := by
      rw [h.data, ← List.drop_drop, List.drop_left, List.drop_replicate, List.length_append]
      congr 1
      omega
    rw [Buffer.put, hlen, h.pos, hrest, hys, h.data, List.take_left]

/-- One run after the other. -/
theorem HoldsThen.foldl_put {n : ℕ} {a : α} (runs : List (List α)) {b : Buffer α} {xs : List α}
    (h : b.HoldsThen n a xs) (hfit : xs.length + runs.flatten.length ≤ n) :
    (runs.foldl Buffer.put b).HoldsThen n a (xs ++ runs.flatten) := by
  induction runs generalizing b xs with
  | nil => simpa using h
  | cons run runs ih =>
    rw [List.flatten_cons, List.length_append] at hfit
    rw [List.foldl_cons, List.flatten_cons, ← List.append_assoc]
    exact ih (h.put run (by omega)) (by rw [List.length_append]; omega)

end Buffer
