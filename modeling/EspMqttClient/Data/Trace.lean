/-
  Traces — what happened, newest first.

  `Always p` says that `p` holds of every entry of a trace and of what was before it.  `since start hit`
  asks whether there was a hit after the last start, and `gather start f` puts together what `f` finds in
  the entries after the last start, oldest first.
-/
import Mathlib.Data.List.Basic

namespace Trace

variable {α β : Type*}

/-- Holds of every entry and of what was before it. -/
def Always (p : α → List α → Prop) : List α → Prop
  | [] => True
  | a :: past => p a past ∧ Always p past

instance decidableAlways (p : α → List α → Prop) [∀ a past, Decidable (p a past)] :
    ∀ trace, Decidable (Always p trace)
  | [] => .isTrue trivial
  | a :: past =>
    have := decidableAlways p past
    inferInstanceAs (Decidable (p a past ∧ Always p past))

/-- Was there a hit after the last start? -/
def since (start hit : α → Bool) : List α → Bool
  | [] => false
  | a :: past => hit a || (!start a && since start hit past)

/-- What there is to find after the last start, oldest first. -/
def gather (start : α → Bool) (f : α → List β) : List α → List β
  | [] => []
  | a :: past => if start a then [] else gather start f past ++ f a

/-! ### Always -/

variable {p q : α → List α → Prop}

@[simp] theorem always_nil : Always p [] := trivial

@[simp] theorem always_cons {a : α} {past : List α} :
    Always p (a :: past) ↔ p a past ∧ Always p past := Iff.rfl

/-- What always holds always held. -/
theorem Always.of_append {new past : List α} (h : Always p (new ++ past)) : Always p past := by
  induction new with
  | nil => exact h
  | cons a new ih => exact ih h.2

theorem Always.append {new past : List α} (h : Always p past)
    (hnew : ∀ a ∈ new, ∀ before, p a before) : Always p (new ++ past) := by
  induction new with
  | nil => exact h
  | cons a new ih =>
    rw [List.forall_mem_cons] at hnew
    exact ⟨hnew.1 _, ih hnew.2⟩

/-- It holds at every moment of the trace. -/
theorem always_iff {trace : List α} :
    Always p trace ↔ ∀ a past, a :: past <:+ trace → p a past := by
  induction trace with
  | nil => simp
  | cons b trace ih =>
    rw [always_cons, ih]
    constructor
    · rintro ⟨hb, htrace⟩ a past h
      rcases List.suffix_cons_iff.mp h with h | h
      · obtain ⟨rfl, rfl⟩ := List.cons.inj h
        exact hb
      · exact htrace a past h
    · intro h
      exact ⟨h b trace List.suffix_rfl, fun a past ha => h a past (ha.trans (List.suffix_cons b trace))⟩

theorem Always.imp {trace : List α} (h : Always p trace) (hpq : ∀ a past, p a past → q a past) :
    Always q trace := by
  induction trace with
  | nil => trivial
  | cons a past ih => exact ⟨hpq a past h.1, ih h.2⟩

/-! ### Since -/

variable {start hit : α → Bool}

@[simp] theorem since_nil : since start hit [] = false := rfl

theorem since_cons (a : α) (past : List α) :
    since start hit (a :: past) = (hit a || (!start a && since start hit past)) := rfl

theorem since_of_hit {a : α} (h : hit a) (past : List α) : since start hit (a :: past) := by
  rw [since_cons, h]
  rfl

theorem not_since_of_start {a : α} (hstart : start a) (hhit : hit a = false) (past : List α) :
    ¬ since start hit (a :: past) := by
  rw [since_cons, hstart, hhit]
  exact Bool.false_ne_true

theorem since_append {new : List α} (h : ∀ a ∈ new, hit a = false ∧ start a = false) (past : List α) :
    since start hit (new ++ past) = since start hit past := by
  induction new with
  | nil => rfl
  | cons a new ih =>
    rw [List.forall_mem_cons] at h
    rw [List.cons_append, since_cons, ih h.2, h.1.1, h.1.2]
    rfl

/-- A hit stays one as long as there is no new start. -/
theorem since_of_past {new past : List α} (h : ∀ a ∈ new, start a = false) (hpast : since start hit past) :
    since start hit (new ++ past) := by
  induction new with
  | nil => exact hpast
  | cons a new ih =>
    rw [List.forall_mem_cons] at h
    rw [List.cons_append, since_cons, h.1, ih h.2]
    exact Bool.or_true _

/-- Without a new hit there was one before. -/
theorem past_of_since {new past : List α} (h : ∀ a ∈ new, hit a = false)
    (hsince : since start hit (new ++ past)) : since start hit past := by
  induction new with
  | nil => exact hsince
  | cons a new ih =>
    rw [List.forall_mem_cons] at h
    rw [List.cons_append, since_cons, h.1, Bool.false_or, Bool.and_eq_true] at hsince
    exact ih h.2 hsince.2

/-! ### Gather -/

variable {f : α → List β}

theorem gather_cons (a : α) (past : List α) :
    gather start f (a :: past) = if start a then [] else gather start f past ++ f a := rfl

theorem gather_append {new : List α} (h : ∀ a ∈ new, f a = [] ∧ start a = false) (past : List α) :
    gather start f (new ++ past) = gather start f past := by
  induction new with
  | nil => rfl
  | cons a new ih =>
    rw [List.forall_mem_cons] at h
    rw [List.cons_append, gather_cons, ih h.2, h.1.1, h.1.2]
    simp

end Trace
