/-
  The pool with blocks of one size is a stack of the blocks that are not in use.

  `FreeStack B p stack` says that following the pointers from `_head` visits the blocks of `stack`, each of
  them once.  `malloc` takes the top off and `free` puts a block on it; neither looks at a block that is
  in use, whose bytes can be anything (`FreeStack.congr`).
-/
import EspMqttClient.MemoryPool.Fixed
import Mathlib.Data.List.Nodup
import Mathlib.Data.List.Perm.Subperm

namespace EspMqttClient

namespace MemoryPool

namespace Fixed

/-- The geometry of a pool: `nrBlocks` blocks that have room for a pointer. -/
structure Blocks where
  word : ℕ
  nrBlocks : ℕ
  blocksize : ℕ
  word_pos : 0 < word
  nrBlocks_pos : 0 < nrBlocks

namespace Blocks

variable (B : Blocks)

/-- The size of a block. -/
def adjusted : ℕ := adjustedBlocksize B.word B.blocksize

/-- Where the blocks start. -/
def starts : List ℕ := (List.range B.nrBlocks).map (· * B.adjusted)

theorem word_le_adjusted : B.word ≤ B.adjusted := by
  rw [adjusted, adjustedBlocksize]
  split_ifs <;> omega

theorem adjusted_pos : 0 < B.adjusted := lt_of_lt_of_le B.word_pos B.word_le_adjusted

theorem mem_starts {a : ℕ} : a ∈ B.starts ↔ ∃ i < B.nrBlocks, i * B.adjusted = a := by
  simp [starts]

theorem nodup_starts : B.starts.Nodup :=
  List.nodup_range.map fun _ _ h => Nat.eq_of_mul_eq_mul_right B.adjusted_pos h

@[simp] theorem length_starts : B.starts.length = B.nrBlocks := by
  simp [starts]

/-- A pointer at the start of a block is inside the buffer. -/
theorem add_word_le {a : ℕ} (h : a ∈ B.starts) : a + B.word ≤ B.nrBlocks * B.adjusted := by
  obtain ⟨i, hi, rfl⟩ := B.mem_starts.mp h
  have hle := Nat.mul_le_mul_right B.adjusted (Nat.succ_le_of_lt hi)
  have hword := B.word_le_adjusted
  rw [Nat.succ_mul] at hle
  omega

end Blocks

variable {B : Blocks} {p : Fixed}

/-- Following the pointers from one visits the blocks of a list. -/
def Chain (p : Fixed) : Option ℕ → List ℕ → Prop
  | ptr, [] => ptr = none
  | ptr, b :: rest => ptr = some b ∧ Chain p (p.words b) rest

/-- The blocks that are not in use, the one to be given out next first. -/
structure FreeStack (B : Blocks) (p : Fixed) (stack : List ℕ) : Prop where
  size : p.size = B.nrBlocks * B.adjusted
  nodup : stack.Nodup
  subset : stack ⊆ B.starts
  chain : Chain p p.head stack

/-- A chain only depends on the pointers at its blocks. -/
theorem Chain.congr {p' : Fixed} {ptr : Option ℕ} {stack : List ℕ} (h : Chain p ptr stack)
    (hwords : ∀ b ∈ stack, p'.words b = p.words b) : Chain p' ptr stack := by
  induction stack generalizing ptr with
  | nil => exact h
  | cons b rest ih =>
    refine ⟨h.1, ?_⟩
    rw [hwords b List.mem_cons_self]
    exact ih h.2 fun c hc => hwords c (List.mem_cons_of_mem b hc)

variable {stack : List ℕ}

/-- What is written to the blocks in use is of no account. -/
theorem FreeStack.congr (h : FreeStack B p stack) {words : ℕ → Option ℕ}
    (hwords : ∀ b ∈ stack, words b = p.words b) : FreeStack B { p with words } stack :=
  ⟨h.size, h.nodup, h.subset, h.chain.congr hwords⟩

theorem FreeStack.load (h : FreeStack B p stack) {b : ℕ} (hb : b ∈ B.starts) :
    p.load B.word b = some (p.words b) := if_pos (h.size ▸ B.add_word_le hb)

theorem FreeStack.store (h : FreeStack B p stack) {b : ℕ} (hb : b ∈ B.starts) (ptr : Option ℕ) :
    p.store B.word b ptr = some { p with words := Function.update p.words b ptr } :=
  if_pos (h.size ▸ B.add_word_le hb)

/-- **`malloc` takes the top off the stack**, and returns null if it is empty. -/
theorem FreeStack.malloc (h : FreeStack B p stack) :
    ∃ p', p.malloc B.word = some (p', stack.head?) ∧ FreeStack B p' stack.tail := by
  rcases stack with _ | ⟨b, rest⟩
  · have hhead : p.head = none := h.chain
    exact ⟨p, by rw [Fixed.malloc, hhead]; rfl, h⟩
  · obtain ⟨hhead, hchain⟩ := h.chain
    obtain ⟨hb, hrest⟩ := List.cons_subset.mp h.subset
    refine ⟨{ p with head := p.words b }, ?_, h.size, h.nodup.of_cons, hrest, hchain.congr fun _ _ => rfl⟩
    simp [Fixed.malloc, hhead, h.load hb]

/-- **`free` puts a block on the stack.** -/
theorem FreeStack.free (h : FreeStack B p stack) {b : ℕ} (hb : b ∈ B.starts) (hnot : b ∉ stack) :
    ∃ p', p.free B.word (some b) = some p' ∧ FreeStack B p' (b :: stack) := by
  refine ⟨{ p with words := Function.update p.words b p.head, head := some b }, ?_, h.size,
    List.nodup_cons.mpr ⟨hnot, h.nodup⟩, List.cons_subset.mpr ⟨hb, h.subset⟩, rfl, ?_⟩
  · simp [Fixed.free, h.store hb]
  · simp only [Function.update_self]
    refine h.chain.congr fun c hc => Function.update_of_ne ?_ ..
    rintro rfl
    exact hnot hc

/-- There are no more blocks than bytes, so no walk runs out of fuel. -/
theorem FreeStack.length_le (h : FreeStack B p stack) : stack.length ≤ p.size := by
  have hlen := (List.subperm_of_subset h.nodup h.subset).length_le
  rw [B.length_starts] at hlen
  have := Nat.le_mul_of_pos_right B.nrBlocks B.adjusted_pos
  rw [h.size]
  omega

/-- `freeMemory` counts the blocks of the stack. -/
theorem FreeStack.freeMemory (h : FreeStack B p stack) :
    p.freeMemory B.word B.blocksize = some (stack.length * B.blocksize) := by
  have hwalk : ∀ (l : List ℕ) (fuel : ℕ) (ptr : Option ℕ) (retVal : ℕ), l ⊆ B.starts → Chain p ptr l →
      l.length ≤ fuel →
        p.freeMemoryLoop B.word B.blocksize fuel ptr retVal = some (retVal + l.length * B.blocksize) := by
    intro l
    induction l with
    | nil =>
      intro fuel ptr retVal _ hchain _
      obtain rfl : ptr = none := hchain
      simp [freeMemoryLoop]
    | cons b rest ih =>
      rintro (_ | fuel) ptr retVal hsub ⟨rfl, hrest⟩ hfuel
      · simp at hfuel
      obtain ⟨hb, hsub⟩ := List.cons_subset.mp hsub
      simp only [freeMemoryLoop, h.load hb, Option.bind_eq_bind, Option.bind_some]
      rw [ih fuel _ _ hsub hrest (Nat.le_of_succ_le_succ hfuel), List.length_cons, Nat.succ_mul]
      congr 1
      omega
  rw [Fixed.freeMemory, hwalk stack _ _ 0 h.subset h.chain h.length_le, Nat.zero_add]

/-- The constructor's loop links the blocks from `k` on, and leaves the ones in front as they are. -/
theorem linkLoop_eq (hsize : p.size = B.nrBlocks * B.adjusted) (n k : ℕ) (h : k + n < B.nrBlocks) :
    ∃ p', linkLoop B.word B.blocksize n (k * B.adjusted) p = some (p', (k + n) * B.adjusted) ∧
      p'.size = p.size ∧ p'.head = p.head ∧
      (∀ i < k, p'.words (i * B.adjusted) = p.words (i * B.adjusted)) ∧
      ∀ i, k ≤ i → i < k + n → p'.words (i * B.adjusted) = some ((i + 1) * B.adjusted) := by
  induction n generalizing k p with
  | zero => exact ⟨p, rfl, rfl, rfl, fun _ _ => rfl, fun i h1 h2 => by omega⟩
  | succ n ih =>
    have hstart : k * B.adjusted ∈ B.starts := B.mem_starts.mpr ⟨k, by omega, rfl⟩
    have hstore : p.store B.word (k * B.adjusted) (some ((k + 1) * B.adjusted)) = some
        { p with words := Function.update p.words (k * B.adjusted) (some ((k + 1) * B.adjusted)) } :=
      if_pos (hsize ▸ B.add_word_le hstart)
    obtain ⟨p', hloop, hsize', hhead, hbefore, hbehind⟩ := ih (k := k + 1)
      (p := { p with words := Function.update p.words (k * B.adjusted) (some ((k + 1) * B.adjusted)) }) hsize
      (by omega)
    have hne : ∀ {i}, i ≠ k → i * B.adjusted ≠ k * B.adjusted := fun hik heq =>
      hik (Nat.eq_of_mul_eq_mul_right B.adjusted_pos heq)
    refine ⟨p', ?_, hsize', hhead, fun i hi => ?_, fun i h1 h2 => ?_⟩
    · have hnext : k * B.adjusted + adjustedBlocksize B.word B.blocksize = (k + 1) * B.adjusted :=
        (Nat.succ_mul k B.adjusted).symm
      rw [linkLoop, hnext, hstore]
      simp only [Option.bind_eq_bind, Option.bind_some, hloop]
      rw [Nat.add_right_comm, Nat.add_assoc]
    · rw [hbefore i (by omega)]
      exact Function.update_of_ne (hne (by omega)) ..
    · rcases Nat.eq_or_lt_of_le h1 with rfl | hlt
      · rw [hbefore k (by omega)]
        exact Function.update_self ..
      · exact hbehind i hlt (by omega)

/-- In a new pool all blocks are on the stack, the lowest one on top. -/
theorem new_freeStack (B : Blocks) :
    ∃ p, new B.word B.nrBlocks B.blocksize = some p ∧ FreeStack B p B.starts := by
  have hpos := B.nrBlocks_pos
  set p₀ : Fixed := { size := B.nrBlocks * B.adjusted, words := fun _ => none, head := some 0 } with hp₀
  obtain ⟨p, hloop, hsize, hhead, -, hwords⟩ :=
    linkLoop_eq (B := B) (p := p₀) rfl (B.nrBlocks - 1) 0 (by omega)
  rw [Nat.zero_mul, Nat.zero_add] at hloop
  have hlast : (B.nrBlocks - 1) * B.adjusted ∈ B.starts := B.mem_starts.mpr ⟨_, by omega, rfl⟩
  have hstore : p.store B.word ((B.nrBlocks - 1) * B.adjusted) none =
      some { p with words := Function.update p.words ((B.nrBlocks - 1) * B.adjusted) none } :=
    if_pos (hsize ▸ B.add_word_le hlast)
  set p' : Fixed := { p with words := Function.update p.words ((B.nrBlocks - 1) * B.adjusted) none } with hp'
  have hnew : new B.word B.nrBlocks B.blocksize = some p' := by
    have hp₀' : p₀ = ⟨B.nrBlocks * adjustedBlocksize B.word B.blocksize, fun _ => none, some 0⟩ := rfl
    rw [new, ← hp₀', Option.bind_eq_bind, hloop]
    exact hstore
  -- from block `k` on there are the blocks behind it, down to the last one
  have hchain : ∀ n k, k + n = B.nrBlocks → 0 < n →
      Chain p' (some (k * B.adjusted)) ((List.range' k n).map (· * B.adjusted)) := by
    intro n
    induction n with
    | zero => intro k _ h; omega
    | succ n ih =>
      intro k hk _
      refine ⟨rfl, ?_⟩
      rcases Nat.eq_zero_or_pos n with rfl | hn
      · have hlast : k = B.nrBlocks - 1 := by omega
        rw [hlast, hp']
        simp [Chain]
      · have hword : p'.words (k * B.adjusted) = some ((k + 1) * B.adjusted) := by
          rw [hp']
          simp only
          rw [Function.update_of_ne]
          · exact hwords k (Nat.zero_le _) (by omega)
          · exact fun heq => by
              have := Nat.eq_of_mul_eq_mul_right B.adjusted_pos heq
              omega
        rw [hword]
        exact ih (k + 1) (by omega) hn
  refine ⟨p', hnew, hsize, B.nodup_starts, List.Subset.refl _, ?_⟩
  have h := hchain B.nrBlocks 0 (Nat.zero_add _) hpos
  rw [Nat.zero_mul, ← List.range_eq_range'] at h
  have hhead' : p'.head = some 0 := hhead
  rw [hhead']
  exact h

end Fixed

end MemoryPool

end EspMqttClient
