/-
  Lists of items drawn from a sequence.

  What is in use was drawn once, each item by a draw of its own (`exists_draws`), whatever has been given back
  since and in whatever order the items now stand.
-/
import Mathlib.Data.List.NodupEquivFin
import Mathlib.Data.List.Perm.Basic
import Mathlib.Data.List.Perm.Subperm

namespace List

variable {α : Type*} {used drawn : List α}

/-- A permutation of values is one of the arguments. -/
theorem exists_perm_map {β : Type*} {bs : List β} {as : List α} {f : α → β} (h : bs.Perm (as.map f)) :
    ∃ as' : List α, as'.Perm as ∧ bs = as'.map f := by
  have hcomp : Relation.Comp (· = List.map f ·) (· ~ ·) bs as := by
    rw [eq_map_comp_perm]
    exact h
  obtain ⟨as', rfl, hperm⟩ := hcomp
  exact ⟨as', hperm, rfl⟩

/-- What is in order was drawn by different draws. -/
theorem exists_draws_of_sublist (h : used.Sublist drawn) :
    ∃ draws : List ℕ, draws.Nodup ∧ used.map some = draws.map (drawn[·]?) := by
  obtain ⟨f, hf⟩ := sublist_iff_exists_orderEmbedding_getElem?_eq.mp h
  refine ⟨(range used.length).map f, nodup_range.map f.injective, ?_⟩
  apply ext_getElem?
  intro i
  rcases lt_or_ge i used.length with hlt | hge
  · simp [← hf, hlt]
  · simp [hge]

/-- Each item has a draw of its own. -/
theorem exists_draws (h : used <+~ drawn) :
    ∃ draws : List ℕ, draws.Nodup ∧ used.map some = draws.map (drawn[·]?) := by
  obtain ⟨used', hperm, hsub⟩ := h
  obtain ⟨draws, hnodup, hdraws⟩ := exists_draws_of_sublist hsub
  have hmap : (used.map some).Perm (draws.map (drawn[·]?)) := hdraws ▸ (hperm.map some).symm
  obtain ⟨draws', hperm', hdraws'⟩ := exists_perm_map hmap
  exact ⟨draws', hperm'.nodup_iff.mpr hnodup, hdraws'⟩

end List
