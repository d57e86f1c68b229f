/-
  A receiver with a queue — another way to remember what was delivered.

  A queueing receiver stores an identifier for every message that comes in, also for one that comes again, and
  a release takes out the oldest one only.  So what the plain receiver stores the queueing one stores too
  (`mem_stored_enqueues`), and what it delivers the plain one delivers.  It delivers the same if it stores
  nothing that the plain receiver does not when a message comes in (`delivered_enqueues_of_released`), and fewer
  messages if it does (`released_of_length`).
-/
import EspMqttClient.Data.Handshake
import Mathlib.Data.List.Forall2

/-- The same signal, but for what is said in it. -/
inductive Signal.Agrees {ι α β : Type*} (R : α → β → Prop) : Signal ι α → Signal ι β → Prop
  | message (id : ι) {a : α} {b : β} (h : R a b) : Signal.Agrees R (.message id a) (.message id b)
  | release (id : ι) : Signal.Agrees R (.release id) (.release id)

namespace Receiver

variable {ι α β : Type*} [DecidableEq ι]

/-- A step of a queueing receiver. -/
def enqueue (r : Receiver ι α) : Signal ι α → Receiver ι α
  | .message id a => ⟨r.stored ++ [id], if id ∈ r.stored then r.delivered else (id, a) :: r.delivered⟩
  | .release id => { r with stored := if r.stored.head? = some id then r.stored.tail else r.stored }

/-- The queueing receiver after all that was sent to it, oldest first. -/
def enqueues (signals : List (Signal ι α)) : Receiver ι α := signals.foldl enqueue new

theorem enqueues_append (signals : List (Signal ι α)) (signal : Signal ι α) :
    enqueues (signals ++ [signal]) = (enqueues signals).enqueue signal := by
  rw [enqueues, List.foldl_append, List.foldl_cons, List.foldl_nil]
  rfl

/-- Whenever a message comes in, an identifier that the queueing receiver stores is stored by the plain one. -/
def Released (signals : List (Signal ι α)) : Prop :=
  ∀ (earlier : List (Signal ι α)) (id : ι) (a : α), earlier ++ [.message id a] <+: signals →
    id ∉ (run earlier).stored → id ∉ (enqueues earlier).stored

variable {signals : List (Signal ι α)} {id : ι}

/-! ### Two receivers -/

/-- A release takes out its own identifier, and that of no other one. -/
theorem mem_stored_enqueues (h : id ∈ (run signals).stored) : id ∈ (enqueues signals).stored := by
  induction signals using List.reverseRecOn with
  | nil => cases h
  | append_singleton signals signal ih =>
    rw [run_append] at h
    rw [enqueues_append]
    cases signal with
    | message id' a' =>
      rw [step] at h
      rw [enqueue, List.mem_append, List.mem_singleton]
      split_ifs at h
      · exact .inl (ih h)
      · rcases List.mem_cons.mp h with rfl | h
        · exact .inr rfl
        · exact .inl (ih h)
    | release id' =>
      obtain ⟨h, hne⟩ := List.mem_filter.mp h
      have hmem := ih h
      rw [enqueue]
      dsimp only
      split_ifs with hhead
      · obtain ⟨rest, hrest⟩ := List.head?_eq_some_iff.mp hhead
        rw [hrest, List.mem_cons] at hmem
        rw [hrest]
        exact hmem.resolve_left (of_decide_eq_true hne)
      · exact hmem

theorem length_delivered_enqueues_le (signals : List (Signal ι α)) :
    (enqueues signals).delivered.length ≤ (run signals).delivered.length := by
  induction signals using List.reverseRecOn with
  | nil => exact Nat.le_refl _
  | append_singleton signals signal ih =>
    rw [run_append, enqueues_append]
    cases signal with
    | release id' => exact ih
    | message id' a' =>
      rw [step, enqueue]
      dsimp only
      split_ifs with hqueued hstored
      · exact ih
      · exact Nat.le_succ_of_le ih
      · exact absurd (mem_stored_enqueues ‹_›) hqueued
      · exact Nat.succ_le_succ ih

/-! ### The same messages -/

theorem released_append {signal : Signal ι α} : Released (signals ++ [signal]) ↔
    Released signals ∧ ∀ id a, signal = .message id a → id ∉ (run signals).stored →
      id ∉ (enqueues signals).stored := by
  constructor
  · intro h
    refine ⟨fun earlier id a hearlier => h earlier id a (hearlier.trans (List.prefix_append _ _)), ?_⟩
    rintro id a rfl
    exact h signals id a List.prefix_rfl
  · rintro ⟨hsignals, hsignal⟩ earlier id a hearlier
    rcases List.prefix_concat_iff.mp hearlier with heq | hprefix
    · obtain ⟨rfl, hlast⟩ := List.append_inj' heq rfl
      exact hsignal id a (List.cons.inj hlast).1.symm
    · exact hsignals earlier id a hprefix

/-- **As many messages** are delivered only if no identifier is stored too long. -/
theorem released_of_length (h : (enqueues signals).delivered.length = (run signals).delivered.length) :
    Released signals := by
  induction signals using List.reverseRecOn with
  | nil =>
    intro earlier id a hearlier
    exact absurd (List.prefix_nil.mp hearlier) (List.append_ne_nil_of_right_ne_nil _ (List.cons_ne_nil _ _))
  | append_singleton signals signal ih =>
    rw [run_append, enqueues_append] at h
    have hle := length_delivered_enqueues_le signals
    rw [released_append]
    cases signal with
    | release id' => exact ⟨ih h, nofun⟩
    | message id' a' =>
      rw [step, enqueue] at h
      dsimp only at h
      split_ifs at h with hqueued hstored
      · refine ⟨ih h, ?_⟩
        rintro id a ⟨⟩ hnew
        exact absurd hstored hnew
      · rw [List.length_cons] at h
        omega
      · exact absurd (mem_stored_enqueues ‹_›) hqueued
      · refine ⟨ih (Nat.succ.inj h), ?_⟩
        rintro id a ⟨⟩ -
        exact hqueued

/-- **The same messages** are delivered if no identifier is stored too long. -/
theorem delivered_enqueues_of_released (h : Released signals) :
    (enqueues signals).delivered = (run signals).delivered := by
  induction signals using List.reverseRecOn with
  | nil => rfl
  | append_singleton signals signal ih =>
    obtain ⟨hsignals, hsignal⟩ := released_append.mp h
    have hsame := ih hsignals
    rw [run_append, enqueues_append]
    cases signal with
    | release id' => exact hsame
    | message id' a' =>
      rw [step, enqueue]
      dsimp only
      split_ifs with hqueued hstored
      · exact hsame
      · exact absurd hqueued (hsignal id' a' rfl hstored)
      · exact absurd (mem_stored_enqueues ‹_›) hqueued
      · rw [hsame]

/-! ### The same signals -/

variable {R : α → β → Prop} {signals' : List (Signal ι β)}

/-- What is said in the signals matters to neither receiver. -/
theorem enqueues_agrees (h : List.Forall₂ (Signal.Agrees R) signals signals') :
    (enqueues signals).stored = (enqueues signals').stored ∧
      List.Forall₂ (fun x y => x.1 = y.1 ∧ R x.2 y.2) (enqueues signals).delivered
        (enqueues signals').delivered := by
  suffices hfold : ∀ {r : Receiver ι α} {r' : Receiver ι β}, r.stored = r'.stored →
      List.Forall₂ (fun x y => x.1 = y.1 ∧ R x.2 y.2) r.delivered r'.delivered →
      (signals.foldl enqueue r).stored = (signals'.foldl enqueue r').stored ∧
        List.Forall₂ (fun x y => x.1 = y.1 ∧ R x.2 y.2) (signals.foldl enqueue r).delivered
          (signals'.foldl enqueue r').delivered from hfold rfl .nil
  induction h with
  | nil => exact fun hstored hdelivered => ⟨hstored, hdelivered⟩
  | cons hsignal _ ih =>
    intro r r' hstored hdelivered
    cases hsignal with
    | release id => exact ih (by rw [enqueue, enqueue, hstored]) hdelivered
    | message id hR =>
      refine ih (by rw [enqueue, enqueue, hstored]) ?_
      rw [enqueue, enqueue, hstored]
      dsimp only
      split_ifs
      · exact hdelivered
      · exact .cons ⟨rfl, hR⟩ hdelivered

end Receiver
