/-
  `coalesce` — put adjoining elements of a list together.

  `Adjoining` says when one element is followed by its continuation and what the two are as one.
  The laws make it immaterial in which order neighbours are joined, so coalescing a concatenation
  only depends on the coalesced parts (`coalesce_append`).
-/
import Mathlib.Data.List.Basic
import Mathlib.Tactic.SplitIfs

/-- When two elements adjoin and what they are together. -/
structure Adjoining (α : Type*) where
  next : α → α → Bool
  join : α → α → α
  next_join_left : ∀ {r s t : α}, next r s → next (join r s) t = next s t
  next_join_right : ∀ {r s t : α}, next r s → next s t → next r (join s t)
  join_assoc : ∀ {r s t : α}, next r s → next s t → join (join r s) t = join r (join s t)

namespace Adjoining

variable {α : Type*} (J : Adjoining α)

/-- Put an element in front, as part of the first one if that continues it. -/
def glue (r : α) : List α → List α
  | [] => [r]
  | s :: rest => if J.next r s then J.join r s :: rest else r :: s :: rest

/-- Put adjoining elements together. -/
def coalesce (xs : List α) : List α := xs.foldr J.glue []

@[simp] theorem coalesce_nil : J.coalesce [] = [] := rfl

@[simp] theorem coalesce_cons (r : α) (xs : List α) :
    J.coalesce (r :: xs) = J.glue r (J.coalesce xs) := rfl

/-- Two adjoining elements can be joined first. -/
theorem glue_glue {r s : α} (h : J.next r s) (xs : List α) :
    J.glue r (J.glue s xs) = J.glue (J.join r s) xs := by
  rcases xs with _ | ⟨t, ts⟩
  · simp [glue, h]
  · by_cases hst : J.next s t
    · simp only [glue, hst, if_true, J.next_join_right h hst, J.next_join_left h, J.join_assoc h hst]
    · simp only [glue, hst, if_false, h, if_true, J.next_join_left h, Bool.false_eq_true]

/-- Gluing elements to a list, one by one or coalesced. -/
theorem foldr_glue_coalesce (xs ys : List α) :
    (J.coalesce xs).foldr J.glue ys = xs.foldr J.glue ys := by
  induction xs with
  | nil => rfl
  | cons r xs ih =>
    rw [coalesce_cons, List.foldr_cons, ← ih]
    rcases J.coalesce xs with _ | ⟨s, rest⟩
    · rfl
    · by_cases h : J.next r s
      · rw [glue, if_pos h, List.foldr_cons, List.foldr_cons, J.glue_glue h]
      · rw [glue, if_neg h, List.foldr_cons]

/-- What a concatenation coalesces to depends on what its parts coalesce to. -/
theorem coalesce_append {xs xs' ys ys' : List α} (hx : J.coalesce xs = J.coalesce xs')
    (hy : J.coalesce ys = J.coalesce ys') : J.coalesce (xs ++ ys) = J.coalesce (xs' ++ ys') := by
  have hsplit : ∀ xs ys : List α, J.coalesce (xs ++ ys) = (J.coalesce xs).foldr J.glue (J.coalesce ys) := by
    intro xs ys
    rw [foldr_glue_coalesce, coalesce, List.foldr_append]
    rfl
  rw [hsplit, hsplit, hx, hy]

/-- An element in front of two lists that coalesce alike. -/
theorem coalesce_cons_congr {xs ys : List α} (h : J.coalesce xs = J.coalesce ys) (r : α) :
    J.coalesce (r :: xs) = J.coalesce (r :: ys) := by
  rw [coalesce_cons, coalesce_cons, h]

/-- Two adjoining elements in front of a list, joined or not. -/
theorem coalesce_cons_cons {r s : α} (h : J.next r s) (xs : List α) :
    J.coalesce (r :: s :: xs) = J.coalesce (J.join r s :: xs) := by
  rw [coalesce_cons, coalesce_cons, coalesce_cons, J.glue_glue h]

/-- What leads to the first element stands in front. -/
theorem coalesce_split {xs : List α} {r : α} {rs : List α} (h : J.coalesce xs = r :: rs) :
    ∃ ys zs, xs = ys ++ zs ∧ J.coalesce ys = [r] ∧ J.coalesce zs = rs := by
  induction xs generalizing r rs with
  | nil => cases h
  | cons s xs ih =>
    rw [coalesce_cons] at h
    cases hrest : J.coalesce xs with
    | nil =>
      rw [hrest, glue] at h
      obtain ⟨rfl, rfl⟩ := List.cons.inj h
      exact ⟨[s], xs, rfl, rfl, hrest⟩
    | cons t ts =>
      rw [hrest, glue] at h
      split_ifs at h with hnext
      · obtain ⟨rfl, rfl⟩ := List.cons.inj h
        obtain ⟨ys, zs, rfl, hys, hzs⟩ := ih hrest
        refine ⟨s :: ys, zs, rfl, ?_, hzs⟩
        rw [coalesce_cons, hys, glue, if_pos hnext]
      · obtain ⟨rfl, rfl⟩ := List.cons.inj h
        exact ⟨[s], xs, rfl, rfl, hrest⟩

end Adjoining
