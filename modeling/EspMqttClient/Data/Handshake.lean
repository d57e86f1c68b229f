/-
  Delivery in two phases — a message comes with an identifier, which is released afterwards.

  A `Receiver` stores the identifier of what it delivers until that is released, and takes what comes with a
  stored identifier for a repetition.  A message is delivered at most once if it does not come again after its
  identifier was released (`count_delivered_le_one`), whatever is lost on the way, and it is delivered if the
  identifier is its own (`mem_delivered`).
-/
import Mathlib.Data.List.Basic
import Mathlib.Data.List.Induction
import Mathlib.Tactic.SplitIfs

/-- What is sent to a receiver. -/
inductive Signal (ι α : Type*)
  | message (id : ι) (a : α)
  | release (id : ι)

structure Receiver (ι α : Type*) where
  stored : List ι
  /-- Newest first. -/
  delivered : List (ι × α)

namespace Receiver

variable {ι α : Type*} [DecidableEq ι]

def new : Receiver ι α := ⟨[], []⟩

def step (r : Receiver ι α) : Signal ι α → Receiver ι α
  | .message id a => if id ∈ r.stored then r else ⟨id :: r.stored, (id, a) :: r.delivered⟩
  | .release id => { r with stored := r.stored.filter (· ≠ id) }

/-- The receiver after all that was sent to it, oldest first. -/
def run (signals : List (Signal ι α)) : Receiver ι α := signals.foldl step new

@[simp] theorem run_nil : run ([] : List (Signal ι α)) = new := rfl

theorem run_append (signals : List (Signal ι α)) (signal : Signal ι α) :
    run (signals ++ [signal]) = (run signals).step signal := by
  rw [run, List.foldl_append, List.foldl_cons, List.foldl_nil]
  rfl

variable {signals : List (Signal ι α)} {id : ι} {a : α}

/-- What is delivered was sent. -/
theorem message_mem (h : (id, a) ∈ (run signals).delivered) : .message id a ∈ signals := by
  induction signals using List.reverseRecOn with
  | nil => cases h
  | append_singleton signals signal ih =>
    rw [run_append] at h
    rw [List.mem_append, List.mem_singleton]
    cases signal with
    | release id' => exact .inl (ih h)
    | message id' a' =>
      rw [step] at h
      split_ifs at h
      · exact .inl (ih h)
      · rcases List.mem_cons.mp h with h | h
        · rw [(Prod.mk.inj h).1, (Prod.mk.inj h).2]
          exact .inr rfl
        · exact .inl (ih h)

/-- What is stored came with a message that was delivered. -/
theorem exists_delivered (h : id ∈ (run signals).stored) : ∃ a, (id, a) ∈ (run signals).delivered := by
  induction signals using List.reverseRecOn with
  | nil => cases h
  | append_singleton signals signal ih =>
    rw [run_append] at h ⊢
    cases signal with
    | release id' => exact ih (List.mem_of_mem_filter h)
    | message id' a' =>
      rw [step] at h ⊢
      split_ifs at h ⊢
      · exact ih h
      · rcases List.mem_cons.mp h with rfl | h
        · exact ⟨a', List.mem_cons_self⟩
        · obtain ⟨a, ha⟩ := ih h
          exact ⟨a, List.mem_cons_of_mem _ ha⟩

/-- The identifier of what was delivered is stored until it is released. -/
theorem stored_or_released (h : (id, a) ∈ (run signals).delivered) :
    id ∈ (run signals).stored ∨ [.message id a, .release id].Sublist signals := by
  induction signals using List.reverseRecOn with
  | nil => cases h
  | append_singleton signals signal ih =>
    rw [run_append] at h ⊢
    have hlater : [.message id a, .release id].Sublist signals →
        [.message id a, .release id].Sublist (signals ++ [signal]) := fun hsub =>
      hsub.trans (List.sublist_append_left _ _)
    cases signal with
    | release id' =>
      by_cases hid : id = id'
      · right
        rw [← hid]
        exact (List.singleton_sublist.mpr (message_mem h)).append (List.Sublist.refl [Signal.release id])
      · refine (ih h).imp (fun hstored => ?_) hlater
        exact List.mem_filter.mpr ⟨hstored, decide_eq_true hid⟩
    | message id' a' =>
      rw [step] at h ⊢
      split_ifs at h ⊢
      · exact (ih h).imp_right hlater
      · rcases List.mem_cons.mp h with h | h
        · exact .inl (List.mem_cons.mpr (.inl (Prod.mk.inj h).1))
        · exact (ih h).imp (List.mem_cons_of_mem _) hlater

/-- **At most once**: a message that does not come again after its identifier was released. -/
theorem count_delivered_le_one [DecidableEq α]
    (h : ¬ [.message id a, .release id, .message id a].Sublist signals) :
    (run signals).delivered.count (id, a) ≤ 1 := by
  induction signals using List.reverseRecOn with
  | nil => exact Nat.zero_le _
  | append_singleton signals signal ih =>
    have hcount := ih fun hsub => h (hsub.trans (List.sublist_append_left _ _))
    rw [run_append]
    cases signal with
    | release id' => exact hcount
    | message id' a' =>
      rw [step]
      split_ifs with hstored
      · exact hcount
      by_cases heq : (id', a') = (id, a)
      · obtain ⟨rfl, rfl⟩ := Prod.mk.inj heq
        have hnone : (id', a') ∉ (run signals).delivered := by
          intro hmem
          rcases stored_or_released hmem with hmem | hsub
          · exact hstored hmem
          · exact h (hsub.append (List.Sublist.refl [Signal.message id' a']))
        have hzero := List.count_eq_zero_of_not_mem hnone
        rw [List.count_cons_self]
        omega
      · rw [List.count_cons_of_ne heq]
        exact hcount

/-- **At least once**: a message whose identifier is its own. -/
theorem mem_delivered (hmem : .message id a ∈ signals) (hown : ∀ b, .message id b ∈ signals → b = a) :
    (id, a) ∈ (run signals).delivered := by
  induction signals using List.reverseRecOn with
  | nil => cases hmem
  | append_singleton signals signal ih =>
    rw [run_append]
    have hown' : ∀ b, .message id b ∈ signals → b = a := fun b hb => hown b (List.mem_append_left _ hb)
    rcases List.mem_append.mp hmem with hmem | hmem
    · have hdelivered := ih hmem hown'
      cases signal with
      | release id' => exact hdelivered
      | message id' a' =>
        rw [step]
        split_ifs
        · exact hdelivered
        · exact List.mem_cons_of_mem _ hdelivered
    · rw [← List.mem_singleton.mp hmem, step]
      split_ifs with hstored
      · -- only the message itself can have stored it
        obtain ⟨b, hb⟩ := exists_delivered hstored
        rwa [hown' b (message_mem hb)] at hb
      · exact List.mem_cons_self

end Receiver
