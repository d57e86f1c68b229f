/-
  `Decoder` — reading a value off the front of a list.

  A decoder takes some items off the front and gives a value and what is left, or it
  fails.  Decoders are a monad, so a format is written down as a `do` block of its
  fields.  `Decodes` says which items a decoder reads as which value, whatever is behind them;
  fields in a row are decoded one after the other (`Decodes.bind`), a list of values until the input
  ends (`many_eq_some`).
-/
import Mathlib.Data.List.Basic
import Mathlib.Tactic.SplitIfs

/-- Takes a value off the front of a list. -/
def Decoder (σ α : Type) := List σ → Option (α × List σ)

namespace Decoder

variable {σ α β : Type}

instance : Monad (Decoder σ) where
  pure a := fun s => some (a, s)
  bind d f := fun s => (d s).bind fun r => f r.1 r.2

/-! ### Decoders -/

/-- The next item. -/
def item : Decoder σ σ
  | [] => none
  | x :: s => some (x, s)

/-- The next `n` items. -/
def exactly (n : ℕ) : Decoder σ (List σ) := fun s => if n ≤ s.length then some (s.take n, s.drop n) else none

/-- Everything that is left. -/
def rest : Decoder σ (List σ) := fun s => some (s, [])

/-- How much is left. -/
def left : Decoder σ ℕ := fun s => some (s.length, s)

/-- No value. -/
def fail : Decoder σ α := fun _ => none

/-- Go on only if this holds. -/
def ensure (p : Prop) [Decidable p] : Decoder σ Unit := fun s => if p then some ((), s) else none

/-- A field that may be missing. -/
def optional (present : Bool) (d : Decoder σ α) : Decoder σ (Option α) :=
  if present then do return some (← d) else pure none

/-- The loop of `many`. -/
def manyLoop (d : Decoder σ α) : ℕ → Decoder σ (List α)
  | _, [] => some ([], [])
  | 0, _ :: _ => none
  | fuel + 1, x :: s => (d (x :: s)).bind fun r => (manyLoop d fuel r.2).map fun t => (r.1 :: t.1, t.2)

/-- One value after the other until the input ends.  Each takes an item at least. -/
def many (d : Decoder σ α) : Decoder σ (List α) := fun s => manyLoop d s.length s

/-- The value of a whole list. -/
def whole (d : Decoder σ α) (s : List σ) : Option α :=
  match d s with
  | some (a, []) => some a
  | _ => none

/-! ### What is decoded -/

/-- The decoder reads these items as this value, whatever is behind them. -/
def Decodes (d : Decoder σ α) (xs : List σ) (a : α) : Prop := ∀ s, d (xs ++ s) = some (a, s)

theorem bind_apply (d : Decoder σ α) (f : α → Decoder σ β) (s : List σ) :
    (d >>= f) s = (d s).bind fun r => f r.1 r.2 := rfl

theorem pure_apply (a : α) (s : List σ) : (pure a : Decoder σ α) s = some (a, s) := rfl

theorem ensure_apply {p : Prop} [Decidable p] (h : p) (f : Unit → Decoder σ β) (s : List σ) :
    (ensure p >>= f) s = f () s := by
  rw [bind_apply, ensure, if_pos h]
  rfl

theorem ensure_apply_neg {p : Prop} [Decidable p] (h : ¬ p) (f : Unit → Decoder σ β) (s : List σ) :
    (ensure p >>= f) s = none := by
  rw [bind_apply, ensure, if_neg h]
  rfl

theorem left_apply (f : ℕ → Decoder σ β) (s : List σ) : (left >>= f) s = f s.length s := rfl

theorem rest_apply (f : List σ → Decoder σ β) (s : List σ) : (rest >>= f) s = f s [] := rfl

/-- Behind what it decodes a decoder hands over to the next one. -/
theorem Decodes.apply {d : Decoder σ α} {xs : List σ} {a : α} (h : d.Decodes xs a) (f : α → Decoder σ β)
    (s : List σ) : (d >>= f) (xs ++ s) = f a s := by
  rw [bind_apply, h s]
  rfl

theorem decodes_pure (a : α) : (pure a : Decoder σ α).Decodes [] a := fun _ => rfl

theorem decodes_item (x : σ) : item.Decodes [x] x := fun _ => rfl

theorem decodes_exactly (xs : List σ) : (exactly xs.length).Decodes xs xs := by
  intro s
  rw [exactly, if_pos (by simp), List.take_left, List.drop_left]

theorem Decodes.bind {d : Decoder σ α} {f : α → Decoder σ β} {xs ys : List σ} {a : α} {b : β}
    (h : d.Decodes xs a) (h' : (f a).Decodes ys b) : (d >>= f).Decodes (xs ++ ys) b := by
  intro s
  rw [List.append_assoc, h.apply, h' s]

theorem Decodes.ensure {p : Prop} [Decidable p] (hp : p) {f : Unit → Decoder σ β} {ys : List σ} {b : β}
    (h : (f ()).Decodes ys b) : (Decoder.ensure p >>= f).Decodes ys b := by
  intro s
  rw [ensure_apply hp, h s]

theorem Decodes.map {d : Decoder σ α} {xs : List σ} {a : α} (h : d.Decodes xs a) (f : α → β) :
    (do return f (← d) : Decoder σ β).Decodes xs (f a) := by
  intro s
  rw [h.apply]
  rfl

/-- A field that is there. -/
theorem Decodes.present {d : Decoder σ α} {xs : List σ} {a : α} (h : d.Decodes xs a) :
    (Decoder.optional true d).Decodes xs (some a) := h.map some

/-- A field that is there or not. -/
theorem Decodes.optional {γ : Type} {d : Decoder σ α} {enc : γ → List σ} {value : γ → α} {o : Option γ}
    (h : ∀ c, o = some c → d.Decodes (enc c) (value c)) :
    (Decoder.optional o.isSome d).Decodes (o.elim [] enc) (o.map value) := by
  cases o with
  | none => exact decodes_pure none
  | some c => exact (h c rfl).present

/-- Values in a row, to the end. -/
theorem many_eq_some {γ : Type} {d : Decoder σ α} {enc : γ → List σ} {value : γ → α} (henc : ∀ c, enc c ≠ [])
    {cs : List γ} (h : ∀ c ∈ cs, d.Decodes (enc c) (value c)) :
    many d (cs.flatMap enc) = some (cs.map value, []) := by
  have hloop : ∀ fuel, (cs.flatMap enc).length ≤ fuel →
      manyLoop d fuel (cs.flatMap enc) = some (cs.map value, []) := by
    induction cs with
    | nil => exact fun fuel _ => by cases fuel <;> rfl
    | cons c cs ih =>
      intro fuel hfuel
      obtain ⟨x, s, hxs⟩ := List.exists_cons_of_ne_nil (henc c)
      have hc : d (enc c ++ cs.flatMap enc) = some (value c, cs.flatMap enc) := h c List.mem_cons_self _
      rw [List.flatMap_cons, List.length_append] at hfuel
      rw [List.flatMap_cons]
      rw [hxs, List.cons_append] at hc
      rw [hxs, List.length_cons] at hfuel
      obtain ⟨fuel, rfl⟩ : ∃ n, fuel = n + 1 := ⟨fuel - 1, by omega⟩
      have hrest := ih (fun c hc => h c (List.mem_cons_of_mem _ hc)) fuel (by omega)
      rw [hxs, List.cons_append, manyLoop, hc, Option.bind_some, hrest]
      rfl
  exact hloop _ (Nat.le_refl _)

theorem whole_eq_some {d : Decoder σ α} {s : List σ} {a : α} : d.whole s = some a ↔ d s = some (a, []) := by
  rw [whole]
  constructor
  · intro h
    split at h
    · next heq => rw [heq, Option.some.inj h]
    · cases h
  · intro h
    rw [h]

end Decoder
