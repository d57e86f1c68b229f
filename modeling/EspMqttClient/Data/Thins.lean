/-
  `Thins` — lists that lose items while the items that stay change.

  `Thins R gone as bs` says that `bs` is `as` without some of its items, each of which satisfies `gone`, and with
  each of the others replaced by one it is related to by `R`.  So every item of `bs` comes from one of `as`
  (`exists_mem_left`), every item of `as` is gone or still there (`gone_or_exists_mem`), and no count grows
  (`countP_le`).
-/
import Mathlib.Data.List.Basic
import Mathlib.Data.List.Count

/-- The second list is what is left of the first one. -/
inductive Thins {α β : Type*} (R : α → β → Prop) (gone : α → Prop) : List α → List β → Prop
  | nil : Thins R gone [] []
  | keep {a b as bs} (h : R a b) (hrest : Thins R gone as bs) : Thins R gone (a :: as) (b :: bs)
  | drop {a as bs} (h : gone a) (hrest : Thins R gone as bs) : Thins R gone (a :: as) bs

namespace Thins

variable {α β γ : Type*} {R : α → β → Prop} {gone : α → Prop} {as : List α} {bs : List β}

/-! ### Building -/

theorem refl {R : α → α → Prop} (hR : ∀ a, R a a) (as : List α) : Thins R gone as as := by
  induction as with
  | nil => exact nil
  | cons a as ih => exact keep (hR a) ih

theorem append {as' : List α} {bs' : List β} (h : Thins R gone as bs) (h' : Thins R gone as' bs') :
    Thins R gone (as ++ as') (bs ++ bs') := by
  induction h with
  | nil => exact h'
  | keep h _ ih => exact keep h ih
  | drop h _ ih => exact drop h ih

/-- A filter drops what it refuses. -/
theorem filter {R : α → α → Prop} (hR : ∀ a, R a a) {keeps : α → Bool}
    (hgone : ∀ a, keeps a = false → gone a) (as : List α) : Thins R gone as (as.filter keeps) := by
  induction as with
  | nil => exact nil
  | cons a as ih =>
    by_cases hkeeps : keeps a
    · rw [List.filter_cons_of_pos hkeeps]
      exact keep (hR a) ih
    · rw [List.filter_cons_of_neg hkeeps]
      exact drop (hgone a (by simpa using hkeeps)) ih

/-- One item is dropped. -/
theorem eraseIdx {R : α → α → Prop} (hR : ∀ a, R a a) {i : ℕ} {a : α} (hitem : as[i]? = some a)
    (hgone : gone a) :
    Thins R gone as (as.eraseIdx i) := by
  obtain ⟨hlt, rfl⟩ := List.getElem?_eq_some_iff.mp hitem
  have hsplit : as = as.take i ++ as[i] :: as.drop (i + 1) := by
    rw [← List.drop_eq_getElem_cons hlt, List.take_append_drop]
  rw [List.eraseIdx_eq_take_drop_succ]
  conv => arg 3; rw [hsplit]
  exact (refl hR _).append (drop hgone (refl hR _))

/-- One loss after the other. -/
theorem trans {R : α → α → Prop} (hR : ∀ {a b c}, R a b → R b c → R a c) {as bs cs : List α}
    (hgone : ∀ {a b}, R a b → gone b → gone a) (h : Thins R gone as bs) (h' : Thins R gone bs cs) :
    Thins R gone as cs := by
  induction h generalizing cs with
  | nil => exact h'
  | keep h _ ih =>
    cases h' with
    | keep h' hrest => exact keep (hR h h') (ih hrest)
    | drop h' hrest => exact drop (hgone h h') (ih hrest)
  | drop h _ ih => exact drop h (ih h')

/-! ### Reading off -/

theorem exists_mem_left (h : Thins R gone as bs) {b : β} (hmem : b ∈ bs) : ∃ a ∈ as, R a b := by
  induction h with
  | nil => exact absurd hmem List.not_mem_nil
  | keep h _ ih =>
    rcases List.mem_cons.mp hmem with rfl | hmem
    · exact ⟨_, List.mem_cons_self, h⟩
    · obtain ⟨a, ha, hab⟩ := ih hmem
      exact ⟨a, List.mem_cons_of_mem _ ha, hab⟩
  | drop _ _ ih =>
    obtain ⟨a, ha, hab⟩ := ih hmem
    exact ⟨a, List.mem_cons_of_mem _ ha, hab⟩

theorem gone_or_exists_mem (h : Thins R gone as bs) {a : α} (hmem : a ∈ as) : gone a ∨ ∃ b ∈ bs, R a b := by
  induction h with
  | nil => exact absurd hmem List.not_mem_nil
  | keep h _ ih =>
    rcases List.mem_cons.mp hmem with rfl | hmem
    · exact .inr ⟨_, List.mem_cons_self, h⟩
    · refine (ih hmem).imp_right ?_
      rintro ⟨b, hb, hab⟩
      exact ⟨b, List.mem_cons_of_mem _ hb, hab⟩
  | drop h _ ih =>
    rcases List.mem_cons.mp hmem with rfl | hmem
    · exact .inl h
    · exact ih hmem

/-- What does not change is lost or kept. -/
theorem map_sublist {f : α → γ} {g : β → γ} (h : Thins R gone as bs) (hR : ∀ a ∈ as, ∀ b, R a b → g b = f a) :
    (bs.map g).Sublist (as.map f) := by
  induction h with
  | nil => exact .slnil
  | @keep a b _ _ h _ ih =>
    rw [List.forall_mem_cons] at hR
    rw [List.map_cons, List.map_cons, hR.1 b h]
    exact (ih hR.2).cons_cons _
  | drop _ _ ih =>
    rw [List.forall_mem_cons] at hR
    exact (ih hR.2).cons _

/-- What is not lost and does not change stays in place. -/
theorem filterMap_eq {f : α → Option γ} {g : β → Option γ} (h : Thins R gone as bs)
    (hR : ∀ a ∈ as, ∀ b, R a b → g b = f a) (hgone : ∀ a ∈ as, gone a → f a = none) :
    bs.filterMap g = as.filterMap f := by
  induction h with
  | nil => rfl
  | @keep a b _ _ h _ ih =>
    rw [List.forall_mem_cons] at hR hgone
    rw [List.filterMap_cons, List.filterMap_cons, hR.1 b h, ih hR.2 hgone.2]
  | drop h _ ih =>
    rw [List.forall_mem_cons] at hR hgone
    rw [List.filterMap_cons_none (hgone.1 h)]
    exact ih hR.2 hgone.2

/-- No count grows. -/
theorem countP_le {p : α → Bool} {q : β → Bool} (h : Thins R gone as bs)
    (hR : ∀ a ∈ as, ∀ b, R a b → q b = p a) : bs.countP q ≤ as.countP p := by
  have hsub := (h.map_sublist hR).countP_le (p := id)
  rwa [List.countP_map, List.countP_map] at hsub

end Thins
