/-
  The pool with blocks of any size keeps its free blocks as the maximal free stretches of the buffer.

  `FreeList p l` says that following `next` from `_head` visits the stretches of `l`, and that `l` is
  separated: in order, none empty, no two of them adjacent.  On that list `malloc` is `Stretch.carve`
  (`FreeList.malloc`) and `free` is `Stretch.insert` (`FreeList.free`).  Both leave everything outside
  the free blocks as it was, the header of the block handed out or taken back apart.
-/
import EspMqttClient.MemoryPool.Variable
import EspMqttClient.Data.Stretches
import Mathlib.Data.List.Nodup
import Mathlib.Data.List.Perm.Subperm

namespace EspMqttClient

namespace MemoryPool

namespace Variable

open Stretch (cover Separated)

variable {p : Variable}

/-! ### Accesses inside the buffer -/

/-- A pool with another header at one unit. -/
def withHeader (p : Variable) (i : ℕ) (h : BlockHeader) : Variable :=
  { p with buffer := Function.update p.buffer i h }

@[simp] theorem units_withHeader (i : ℕ) (h : BlockHeader) : (p.withHeader i h).units = p.units := rfl

@[simp] theorem head_withHeader (i : ℕ) (h : BlockHeader) : (p.withHeader i h).head = p.head := rfl

@[simp] theorem buffer_withHeader (i : ℕ) (h : BlockHeader) : (p.withHeader i h).buffer i = h :=
  Function.update_self ..

@[simp] theorem buffer_withHeader_of_ne {i j : ℕ} (hne : j ≠ i) (h : BlockHeader) :
    (p.withHeader i h).buffer j = p.buffer j := Function.update_of_ne hne ..

theorem load_eq {i : ℕ} (hi : i < p.units) : p.load i = some (p.buffer i) := if_pos hi

theorem store_eq {i : ℕ} (hi : i < p.units) (h : BlockHeader) : p.store i h = some (p.withHeader i h) :=
  if_pos hi

theorem setNext_eq {i : ℕ} (hi : i < p.units) (next : Option ℕ) :
    p.setNext i next = some (p.withHeader i ⟨next, (p.buffer i).size⟩) := by
  rw [setNext, load_eq hi]
  exact store_eq hi _

theorem setSize_eq {i : ℕ} (hi : i < p.units) (size : ℕ) :
    p.setSize i size = some (p.withHeader i ⟨(p.buffer i).next, size⟩) := by
  rw [setSize, load_eq hi]
  exact store_eq hi _

/-! ### The linked list -/

/-- The pointer to the first stretch of a list, to `tail` if there is none. -/
def first (l : List Stretch) (tail : Option ℕ) : Option ℕ :=
  match l with
  | [] => tail
  | s :: _ => some s.start

/-- The pointer to the last stretch of a list, `front` if there is none. -/
def last (front : Option ℕ) : List Stretch → Option ℕ
  | [] => front
  | s :: rest => last (some s.start) rest

/-- The headers of the stretches of a list link each to the next and the last one to `tail`. -/
def Chain (p : Variable) : List Stretch → (tail : Option ℕ) → Prop
  | [], _ => True
  | s :: rest, tail =>
    s.start < p.units ∧ p.buffer s.start = ⟨first rest tail, s.size⟩ ∧ Chain p rest tail

theorem first_append (l l' : List Stretch) (tail : Option ℕ) :
    first (l ++ l') tail = first l (first l' tail) := by
  cases l <;> rfl

theorem last_concat (front : Option ℕ) (l : List Stretch) (s : Stretch) :
    last front (l ++ [s]) = some s.start := by
  induction l generalizing front with
  | nil => rfl
  | cons t rest ih => exact ih _

theorem chain_append {l l' : List Stretch} {tail : Option ℕ} :
    Chain p (l ++ l') tail ↔ Chain p l (first l' tail) ∧ Chain p l' tail := by
  induction l with
  | nil => simp [Chain]
  | cons s rest ih => simp only [List.cons_append, Chain, ih, first_append, and_assoc]

/-- A chain only depends on the headers of its stretches. -/
theorem Chain.congr {p' : Variable} {l : List Stretch} {tail : Option ℕ} (h : Chain p l tail)
    (hunits : p'.units = p.units) (hbuffer : ∀ s ∈ l, p'.buffer s.start = p.buffer s.start) :
    Chain p' l tail := by
  induction l with
  | nil => trivial
  | cons s rest ih =>
    obtain ⟨hlt, hs, hrest⟩ := h
    exact ⟨hunits ▸ hlt, by rw [hbuffer s List.mem_cons_self, hs],
      ih hrest fun t ht => hbuffer t (List.mem_cons_of_mem s ht)⟩

theorem Chain.withHeader {l : List Stretch} {tail : Option ℕ} (h : Chain p l tail) {i : ℕ}
    (hi : ∀ s ∈ l, s.start ≠ i) (header : BlockHeader) : Chain (p.withHeader i header) l tail :=
  h.congr rfl fun s hs => buffer_withHeader_of_ne (hi s hs) header

/-- A new header for one stretch of a chain: another size, and another rest of the list behind it. -/
theorem Chain.replace {pre post post' : List Stretch} {s : Stretch} {tail : Option ℕ}
    (h : Chain p (pre ++ s :: post) tail) (hpost : Chain p post' tail) (hpre' : ∀ t ∈ pre, t.start ≠ s.start)
    (hpost' : ∀ t ∈ post', t.start ≠ s.start) (size : ℕ) :
    Chain (p.withHeader s.start ⟨first post' tail, size⟩) (pre ++ ⟨s.start, size⟩ :: post') tail := by
  obtain ⟨hpre, hlt, -, -⟩ := chain_append.mp h
  exact chain_append.mpr ⟨hpre.withHeader hpre' _, hlt, buffer_withHeader .., hpost.withHeader hpost' _⟩

/-- Another successor for the last stretch of a chain, if there is one. -/
theorem Chain.link {pre : List Stretch} {tail : Option ℕ} (h : Chain p pre tail)
    (hasc : pre.Pairwise fun s t => s.start < t.start) (next : Option ℕ) :
    ∃ p', p.link (last none pre) next = some p' ∧ Chain p' pre next ∧ p'.units = p.units ∧
      p'.head = p.head ∧ ∀ i, (∀ s ∈ pre, s.start ≠ i) → p'.buffer i = p.buffer i := by
  rcases List.eq_nil_or_concat pre with rfl | ⟨pre, s, rfl⟩
  · exact ⟨p, rfl, trivial, rfl, rfl, fun _ _ => rfl⟩
  rw [List.concat_eq_append] at *
  obtain ⟨-, hlt, hs, -⟩ := chain_append.mp h
  have hne : ∀ t ∈ pre, t.start ≠ s.start := fun t ht =>
    ne_of_lt ((List.pairwise_append.mp hasc).2.2 t ht s List.mem_cons_self)
  refine ⟨p.withHeader s.start ⟨next, s.size⟩, ?_, ?_, rfl, rfl, fun i hi => ?_⟩
  · rw [last_concat, Variable.link, setNext_eq hlt, hs]
  · obtain ⟨hpre, -⟩ := chain_append.mp h
    exact chain_append.mpr ⟨hpre.withHeader hne _, hlt, buffer_withHeader .., trivial⟩
  · exact buffer_withHeader_of_ne (hi s (by simp)).symm _

/-! ### The free blocks -/

/-- The free blocks of a pool are the stretches of a separated list. -/
structure FreeList (p : Variable) (l : List Stretch) : Prop where
  separated : Separated l
  inside : ∀ s ∈ l, s.stop ≤ p.units
  head : p.head = first l none
  chain : Chain p l none

/-- The starts of a separated list ascend. -/
theorem ascending {l : List Stretch} (h : Separated l) : l.Pairwise fun s t => s.start < t.start :=
  h.gap.imp fun hst => lt_of_le_of_lt (Nat.le_add_right ..) hst

/-- There are no more stretches than units, so no walk runs out of fuel. -/
theorem FreeList.length_le {l : List Stretch} (h : FreeList p l) : l.length ≤ p.units := by
  have hnodup : (l.map Stretch.start).Nodup :=
    List.pairwise_map.mpr ((ascending h.separated).imp fun hst => ne_of_lt hst)
  have hsub : l.map Stretch.start ⊆ List.range p.units := by
    intro i hi
    obtain ⟨s, hs, rfl⟩ := List.mem_map.mp hi
    have hin := h.inside s hs
    have hpos := h.separated.pos s hs
    simp only [Stretch.stop] at hin
    exact List.mem_range.mpr (by omega)
  simpa using (List.subperm_of_subset hnodup hsub).length_le

/-! ### `malloc` -/

/-- The loop passes over the blocks that are too small. -/
theorem mallocLoop_skip {size : ℕ} {pre : List Stretch} {tail : Option ℕ} (h : Chain p pre tail)
    (hpre : ∀ s ∈ pre, s.size < size) (fuel : ℕ) (previous : Option ℕ) :
    mallocLoop size (fuel + pre.length) previous (first pre tail) p =
      mallocLoop size fuel (last previous pre) tail p := by
  induction pre generalizing previous with
  | nil => rfl
  | cons s rest ih =>
    obtain ⟨hlt, hs, hrest⟩ := h
    have hsize := hpre s List.mem_cons_self
    rw [List.length_cons, ← Nat.add_assoc]
    simp only [first, mallocLoop, load_eq hlt, hs, Option.bind_eq_bind, Option.bind_some]
    rw [if_neg (by omega), if_neg (by omega)]
    exact ih hrest (fun t ht => hpre t (List.mem_cons_of_mem s ht)) _

/-- At the first block that is large enough the loop ends.  The block is out of the list, and its header
still has the pointer to what comes behind. -/
theorem mallocLoop_found {size : ℕ} {pre post : List Stretch} {s : Stretch} (hsize : 0 < size)
    (hsep : Separated (pre ++ s :: post)) (hin : s.stop ≤ p.units) (h : Chain p (pre ++ s :: post) none)
    (hs : size ≤ s.size) (fuel : ℕ) :
    ∃ p' post', Stretch.carve size (s :: post) = some (s.start, post') ∧
      mallocLoop size (fuel + 1) (last none pre) (some s.start) p = some (p', some s.start) ∧
      p'.units = p.units ∧ p'.head = p.head ∧ Chain p' (pre ++ post') none ∧
      (p'.buffer s.start).next = first post' none ∧
      ∀ i, i ∉ cover (pre ++ s :: post) → p'.buffer i = p.buffer i := by
  obtain ⟨hpre, hlt, hheader, hpost⟩ := chain_append.mp h
  have hasc := List.pairwise_append.mp (ascending hsep)
  have hspos : 0 < s.size := lt_of_lt_of_le hsize hs
  -- a unit outside the free blocks is no start of one
  have hstart : ∀ {i : ℕ}, i ∉ cover (pre ++ s :: post) → ∀ t ∈ pre ++ s :: post, t.start ≠ i := by
    rintro i hi t ht rfl
    exact hi ⟨t, ht, Stretch.start_mem (hsep.pos t ht)⟩
  have hpreLt : ∀ t ∈ pre, t.start < s.start := fun t ht => hasc.2.2 t ht s List.mem_cons_self
  have hpreS : ∀ t ∈ pre, t.start ≠ s.start := fun t ht => ne_of_lt (hpreLt t ht)
  by_cases heq : s.size = size
  · obtain ⟨p', hlink, hpre', hunits, hhead, hframe⟩ := hpre.link hasc.1 (first post none)
    refine ⟨p', post, by rw [Stretch.carve, if_pos heq], ?_, hunits, hhead, ?_, ?_, fun i hi => ?_⟩
    · simp only [mallocLoop, load_eq hlt, hheader, heq, Option.bind_eq_bind, Option.bind_some, if_true, hlink]
    · refine chain_append.mpr ⟨hpre', hpost.congr hunits fun t ht => hframe _ fun u hu => ?_⟩
      exact ne_of_lt (hasc.2.2 u hu t (List.mem_cons_of_mem s ht))
    · rw [hframe _ hpreS, hheader]
    · exact hframe i fun t ht => hstart hi t (List.mem_append_left _ ht)
  · -- the second part of the block stays in the list
    have hlong : size < s.size := by omega
    obtain ⟨p', hlink, hpre', hunits, hhead, hframe⟩ := hpre.link hasc.1 (some (s.start + size))
    have hlt' : s.start < p'.units := hunits ▸ hlt
    have hnew : s.start + size < p'.units := by
      simp only [Stretch.stop] at hin
      omega
    have hheader' : p'.buffer s.start = ⟨first post none, s.size⟩ := by rw [hframe _ hpreS, hheader]
    have hne : s.start ≠ s.start + size := by omega
    have hpostLt : ∀ t ∈ post, s.start + size < t.start := fun t ht => by
      have := (List.pairwise_cons.mp (List.pairwise_append.mp hsep.gap).2.1).1 t ht
      simp only [Stretch.stop] at this
      omega
    have hbnew : (p'.withHeader (s.start + size) ⟨first post none,
        (p'.buffer (s.start + size)).size⟩).buffer s.start = ⟨first post none, s.size⟩ := by
      rw [buffer_withHeader_of_ne hne, hheader']
    refine ⟨((p'.withHeader (s.start + size) ⟨first post none, s.size - size⟩).withHeader s.start
      ⟨some (s.start + size), s.size⟩), ⟨s.start + size, s.size - size⟩ :: post,
      by rw [Stretch.carve, if_neg heq, if_pos hlong], ?_, hunits, hhead, ?_, ?_, fun i hi => ?_⟩
    · simp only [mallocLoop, load_eq hlt, hheader, Option.bind_eq_bind, Option.bind_some, if_neg heq,
        if_pos hlong, hlink, load_eq hlt', hheader', setNext_eq hnew]
      rw [setSize_eq (by exact hnew), Option.bind_some, setNext_eq (by exact hlt'), Option.bind_some]
      simp [withHeader, Function.update_of_ne hne, Function.update_self, hheader']
    · refine chain_append.mpr ⟨?_, hnew, ?_, ?_⟩
      · refine (hpre'.withHeader (fun t ht => ?_) _).withHeader hpreS _
        have := hpreLt t ht
        omega
      · rw [buffer_withHeader_of_ne hne.symm, buffer_withHeader]
      · refine ((hpost.congr hunits fun t ht => hframe _ fun u hu => ?_).withHeader
          (fun t ht => ?_) _).withHeader
          (fun t ht => ?_) _
        · exact ne_of_lt (hasc.2.2 u hu t (List.mem_cons_of_mem s ht))
        · exact (ne_of_lt (hpostLt t ht)).symm
        · have := hpostLt t ht
          omega
    · rw [buffer_withHeader]
      rfl
    · have hns : i ≠ s.start := (hstart hi s (by simp)).symm
      have hnn : i ≠ s.start + size := by
        rintro rfl
        exact hi ⟨s, by simp, Stretch.mem_iff.mpr (by omega)⟩
      rw [buffer_withHeader_of_ne hns, buffer_withHeader_of_ne hnn]
      exact hframe i fun t ht => hstart hi t (List.mem_append_left _ ht)

/-- **`malloc` carves the block off the free blocks**: at the lowest place where its units fit, the one
for the header included. -/
theorem FreeList.malloc {l : List Stretch} (h : FreeList p l) (header : ℕ) {size : ℕ} (hsize : size ≠ 0) :
    match Stretch.carve (normalized header size + 1) l with
    | none => p.malloc header size = some (p, none)
    | some (a, l') => ∃ p', p.malloc header size = some (p', some (a + 1)) ∧ FreeList p' l' ∧
        p'.units = p.units ∧ p'.buffer a = ⟨none, normalized header size + 1⟩ ∧
        ∀ i, i ∉ cover l → p'.buffer i = p.buffer i := by
  have hfuel := h.length_le
  rcases Stretch.exists_first_long (normalized header size + 1) l with hall | ⟨pre, s, post, rfl, hpre, hs⟩
  · rw [Stretch.carve_eq_none_iff.mpr hall]
    have hskip := mallocLoop_skip h.chain hall (p.units - l.length) none
    rw [Nat.sub_add_cancel hfuel] at hskip
    have hend : mallocLoop (normalized header size + 1) (p.units - l.length) (last none l) none p =
        some (p, none) := by
      rw [mallocLoop]
    simp only [Variable.malloc, if_neg hsize, h.head, hskip, hend, Option.bind_eq_bind, Option.bind_some]
  · have hpos : 0 < normalized header size + 1 := Nat.succ_pos _
    have hin := h.inside s (by simp)
    obtain ⟨fuel, hfuel⟩ : ∃ fuel, p.units = fuel + 1 + pre.length :=
      ⟨p.units - pre.length - 1, by simp only [List.length_append, List.length_cons] at hfuel; omega⟩
    obtain ⟨p', post', hcarve, hfound, hunits, hhead, hchain, hnext, hframe⟩ :=
      mallocLoop_found hpos h.separated hin h.chain hs fuel
    have hskip := mallocLoop_skip (chain_append.mp h.chain).1 hpre (fuel + 1) none
    rw [← hfuel] at hskip
    rw [Stretch.carve_append hpre, hcarve]
    have hcarve' : Stretch.carve (normalized header size + 1) (pre ++ s :: post) =
        some (s.start, pre ++ post') := by
      rw [Stretch.carve_append hpre, hcarve]
      rfl
    obtain ⟨hsep', hsub, hcov⟩ := h.separated.carve hpos hcarve'
    have hlt : s.start < p'.units := by
      have := h.separated.pos s (by simp)
      simp only [Stretch.stop] at hin
      omega
    have hhead' : (if some s.start = p'.head then { p' with head := (p'.buffer s.start).next } else p') =
        { p' with head := first (pre ++ post') none } := by
      rw [hnext, hhead, h.head]
      rcases pre with _ | ⟨t, rest⟩
      · rw [if_pos (show some s.start = first ([] ++ s :: post) none from rfl)]
        rfl
      · have hne : s.start ≠ t.start := (ne_of_lt ((List.pairwise_append.mp (ascending h.separated)).2.2
          t List.mem_cons_self s List.mem_cons_self)).symm
        have hhead'' : p'.head = some t.start := hhead.trans h.head
        rw [if_neg fun heq => hne (by simpa [first] using heq)]
        simp only [first, List.cons_append, ← hhead'']
    set p'' : Variable := { p' with head := first (pre ++ post') none } with hp''
    have hlt'' : s.start < p''.units := hlt
    have hchain'' : Chain p'' (pre ++ post') none := hchain.congr rfl fun _ _ => rfl
    have hloop : mallocLoop (normalized header size + 1) p.units none p.head p = some (p', some s.start) := by
      rw [h.head, first_append]
      exact hskip.trans hfound
    refine ⟨p''.withHeader s.start ⟨none, normalized header size + 1⟩, ?_, ⟨hsep', ?_, rfl, ?_⟩, hunits,
      buffer_withHeader .., fun i hi => ?_⟩
    · simp only [Variable.malloc, if_neg hsize, hloop, Option.bind_eq_bind, Option.bind_some, load_eq hlt,
        hhead']
      rw [setSize_eq hlt'', Option.bind_some, setNext_eq (by exact hlt''), Option.bind_some]
      simp [withHeader, Function.update_self]
    · intro t ht
      rw [units_withHeader]
      have hmem : t.stop - 1 ∈ t := by
        have := hsep'.pos t ht
        simp only [Stretch.mem_iff, Stretch.stop]
        omega
      obtain ⟨u, hu, hmem'⟩ := ((hcov _).mp ⟨t, ht, hmem⟩).1
      have h1 := hmem'.2
      have h2 := h.inside u hu
      have h3 : p''.units = p.units := hunits
      omega
    · refine hchain''.withHeader (fun t ht heq => ?_) _
      exact ((hcov t.start).mp ⟨t, ht, Stretch.start_mem (hsep'.pos t ht)⟩).2
        (heq ▸ Stretch.start_mem (by exact hpos))
    · have hne : i ≠ s.start := by
        rintro rfl
        exact hi ⟨s, by simp, Stretch.start_mem (h.separated.pos s (by simp))⟩
      rw [buffer_withHeader_of_ne hne]
      exact hframe i hi

/-! ### `free` -/

/-- The loop passes over the blocks in front of the one to free. -/
theorem freeLoop_skip {pre : List Stretch} {tail : Option ℕ} {toFree : ℕ} (h : Chain p pre tail)
    (hpre : ∀ s ∈ pre, s.start < toFree) (fuel : ℕ) (previous : ℕ) :
    freeLoop toFree (fuel + pre.length) previous (first pre tail) p =
      freeLoop toFree fuel ((last (some previous) pre).getD 0) tail p := by
  induction pre generalizing previous with
  | nil => rfl
  | cons s rest ih =>
    obtain ⟨hlt, hs, hrest⟩ := h
    have hstart := hpre s List.mem_cons_self
    have hnot : ¬ toFree < s.start := by omega
    rw [List.length_cons, ← Nat.add_assoc]
    simp only [first, freeLoop, Option.all_some, hnot, decide_false, Bool.false_eq_true, if_false,
      Option.bind_eq_bind, Option.bind_some, load_eq hlt, hs]
    exact ih hrest (fun t ht => hpre t (List.mem_cons_of_mem s ht)) _

/-- The block is in the list, its two neighbours link to it and it to them. -/
theorem addToList_eq {pre post : List Stretch} {b : Stretch} (hhead : p.head = first (pre ++ post) none)
    (hne : pre ++ post ≠ []) (h : Chain p (pre ++ post) none)
    (hasc : (pre ++ b :: post).Pairwise fun s t => s.start < t.start)
    (hb : b.start < p.units) (hheader : p.buffer b.start = ⟨none, b.size⟩) (previous : ℕ) :
    ∃ p', p.addToList b.start ((last (some previous) pre).getD 0) (first post none) = some p' ∧
      p'.units = p.units ∧ p'.head = first (pre ++ b :: post) none ∧ Chain p' (pre ++ b :: post) none ∧
      ∀ i, i ≠ b.start → (∀ s ∈ pre, s.start ≠ i) → p'.buffer i = p.buffer i := by
  obtain ⟨hpre, hpost⟩ := chain_append.mp h
  have hasc' := List.pairwise_append.mp hasc
  have hpostNe : ∀ t ∈ post, t.start ≠ b.start := fun t ht =>
    (ne_of_lt ((List.pairwise_cons.mp hasc'.2.1).1 t ht)).symm
  rcases List.eq_nil_or_concat pre with rfl | ⟨pre', q, rfl⟩
  · -- in front of all the free blocks
    obtain ⟨n, rest, rfl⟩ := List.exists_cons_of_ne_nil hne
    have hlt : b.start < n.start := (List.pairwise_cons.mp hasc'.2.1).1 n List.mem_cons_self
    refine ⟨{ p.withHeader b.start ⟨some n.start, b.size⟩ with head := some b.start }, ?_, rfl, rfl, ?_,
      fun i hi _ => buffer_withHeader_of_ne hi _⟩
    · rw [addToList, hhead]
      simp [first, hlt, setNext_eq hb, hheader]
    · exact ⟨hb, buffer_withHeader .., (hpost.withHeader hpostNe _).congr rfl fun _ _ => rfl⟩
  · rw [List.concat_eq_append] at *
    obtain ⟨-, hqlt, hq, -⟩ := chain_append.mp hpre
    have hqb : q.start < b.start := hasc'.2.2 q (by simp) b List.mem_cons_self
    have hqpost : ∀ t ∈ post, t.start ≠ q.start := fun t ht =>
      (ne_of_lt (hasc'.2.2 q (by simp) t (List.mem_cons_of_mem b ht))).symm
    have hpreq : ∀ t ∈ pre', t.start ≠ q.start := fun t ht =>
      ne_of_lt ((List.pairwise_append.mp hasc'.1).2.2 t ht q List.mem_cons_self)
    have hpreb : ∀ t ∈ pre', t.start ≠ b.start := fun t ht =>
      ne_of_lt (hasc'.2.2 t (by simp [ht]) b List.mem_cons_self)
    have hany : ¬ p.head.any (b.start < ·) := by
      rw [hhead]
      rcases pre' with _ | ⟨t, rest⟩
      · simp [first, hqb.le]
      · have := hasc'.2.2 t (by simp) b List.mem_cons_self
        simp [first, this.le]
    refine ⟨(p.withHeader q.start ⟨some b.start, q.size⟩).withHeader b.start ⟨first post none, b.size⟩, ?_,
      rfl, ?_, ?_, fun i hi hpi => ?_⟩
    · rw [addToList, if_neg hany, last_concat, Option.getD_some, setNext_eq hqlt, hq]
      simp only [Option.bind_eq_bind, Option.bind_some]
      rw [setNext_eq (by exact hb), buffer_withHeader_of_ne (ne_of_gt hqb), hheader]
    · rw [head_withHeader, head_withHeader, hhead]
      rcases pre' with _ | ⟨t, rest⟩ <;> rfl
    · refine chain_append.mpr ⟨chain_append.mpr ⟨?_, hqlt, ?_, trivial⟩, hb, buffer_withHeader .., ?_⟩
      · exact ((chain_append.mp hpre).1.withHeader hpreq _).withHeader hpreb _
      · rw [buffer_withHeader_of_ne (ne_of_lt hqb), buffer_withHeader]
        rfl
      · exact (hpost.withHeader hqpost _).withHeader hpostNe _
    · rw [buffer_withHeader_of_ne hi, buffer_withHeader_of_ne (hpi q (by simp)).symm]

/-- Merging a block with the one behind it glues the two. -/
theorem mergeNext_eq {pre post : List Stretch} {t : Stretch} (h : Chain p (pre ++ t :: post) none)
    (hasc : (pre ++ t :: post).Pairwise fun s t => s.start < t.start) :
    ∃ p', p.mergeNext t.start (first post none) = some p' ∧ p'.units = p.units ∧ p'.head = p.head ∧
      Chain p' (pre ++ Stretch.adjoining.glue t post) none ∧
      ∀ i, i ≠ t.start → p'.buffer i = p.buffer i := by
  obtain ⟨-, hlt, ht, hpost⟩ := chain_append.mp h
  have hasc' := List.pairwise_append.mp hasc
  rcases post with _ | ⟨n, rest⟩
  · refine ⟨p, ?_, rfl, rfl, h, fun _ _ => rfl⟩
    rw [mergeNext, load_eq hlt]
    rfl
  obtain ⟨hnlt, hn, hrest⟩ := hpost
  by_cases heq : t.start + t.size = n.start
  · have hglue : Stretch.adjoining.glue t (n :: rest) = ⟨t.start, t.size + n.size⟩ :: rest := by
      simp [Adjoining.glue, Stretch.adjoining, Stretch.stop, heq]
    have hpre : ∀ s ∈ pre, s.start ≠ t.start := fun s hs =>
      ne_of_lt (hasc'.2.2 s hs t List.mem_cons_self)
    have hrest' : ∀ s ∈ rest, s.start ≠ t.start := fun s hs =>
      (ne_of_lt ((List.pairwise_cons.mp hasc'.2.1).1 s (List.mem_cons_of_mem n hs))).symm
    refine ⟨p.withHeader t.start ⟨first rest none, t.size + n.size⟩, ?_, rfl, rfl, ?_,
      fun i hi => buffer_withHeader_of_ne hi _⟩
    · simp only [mergeNext, load_eq hlt, ht, first, Option.bind_eq_bind, Option.bind_some, if_pos heq,
        load_eq hnlt, hn, setSize_eq hlt]
      rw [setNext_eq (by exact hlt)]
      simp [withHeader]
    · rw [hglue]
      exact h.replace hrest hpre hrest' _
  · have hglue : Stretch.adjoining.glue t (n :: rest) = t :: n :: rest := by
      simp [Adjoining.glue, Stretch.adjoining, Stretch.stop, heq]
    refine ⟨p, ?_, rfl, rfl, hglue ▸ h, fun _ _ => rfl⟩
    simp only [mergeNext, load_eq hlt, ht, first, Option.bind_eq_bind, Option.bind_some, if_neg heq]

/-- Merging a block with the one in front of it.  With what comes behind glued on, the list is the old one
with the block inserted. -/
theorem mergePrevious_eq {pre post : List Stretch} {b : Stretch} (hsep : Separated (pre ++ post))
    (hasc : (pre ++ b :: post).Pairwise fun s t => s.start < t.start)
    (hhead : p.head = first (pre ++ b :: post) none) (h : Chain p (pre ++ b :: post) none)
    (previous : ℕ) :
    ∃ p' pre' t, p.mergePrevious b.start ((last (some previous) pre).getD 0) = some (p', t.start) ∧
      p'.units = p.units ∧ p'.head = first (pre' ++ t :: post) none ∧ Chain p' (pre' ++ t :: post) none ∧
      (pre' ++ t :: post).Pairwise (fun s t => s.start < t.start) ∧
      pre' ++ Stretch.adjoining.glue t post = Stretch.insert b (pre ++ post) ∧
      (∀ i, (∀ s ∈ pre, s.start ≠ i) → p'.buffer i = p.buffer i) ∧
      (t.start = b.start ∨ ∃ s ∈ pre, t.start = s.start) := by
  have hasc' := List.pairwise_append.mp hasc
  have hbpost : ∀ t ∈ post, b.start < t.start := (List.pairwise_cons.mp hasc'.2.1).1
  rcases List.eq_nil_or_concat pre with rfl | ⟨pre', q, rfl⟩
  · refine ⟨p, [], b, ?_, rfl, hhead, h, hasc, (Stretch.insert_of_lt hbpost).symm, fun _ _ => rfl, .inl rfl⟩
    rw [mergePrevious, hhead]
    simp [first]
  · rw [List.concat_eq_append] at *
    obtain ⟨hpre, hblt, hb, hpost⟩ := chain_append.mp h
    obtain ⟨-, hqlt, hq, -⟩ := chain_append.mp hpre
    have hpreq : ∀ t ∈ pre', t.start < q.start := fun t ht =>
      (List.pairwise_append.mp hasc'.1).2.2 t ht q List.mem_cons_self
    have hqb : q.start < b.start := hasc'.2.2 q (by simp) b List.mem_cons_self
    have hqpost : ∀ t ∈ post, q.start < t.start := fun t ht =>
      hasc'.2.2 q (by simp) t (List.mem_cons_of_mem b ht)
    have hall : p.head.all (· < b.start) := by
      rw [hhead]
      rcases pre' with _ | ⟨t, rest⟩
      · simp [first, hqb]
      · simpa [first] using hasc'.2.2 t (by simp) b List.mem_cons_self
    have hinsert : Stretch.insert b (pre' ++ [q] ++ post) =
        pre' ++ Stretch.adjoining.glue q (Stretch.adjoining.glue b post) := by
      rw [List.append_assoc] at hsep ⊢
      rw [Stretch.insert_append (fun t ht => ?_) hsep]
      · rw [List.singleton_append, Stretch.insert, if_neg (by omega), Stretch.insert_of_lt hbpost]
      · exact lt_trans ((List.pairwise_append.mp hsep.gap).2.2 t ht q (by simp)) hqb
    rw [mergePrevious, if_pos hall, last_concat, Option.getD_some, load_eq hqlt, hq]
    simp only [Option.bind_eq_bind, Option.bind_some]
    by_cases heq : b.start = q.start + q.size
    · have hchain : Chain p (pre' ++ q :: b :: post) none := by simpa using h
      refine ⟨p.withHeader q.start ⟨first post none, q.size + b.size⟩, pre', ⟨q.start, q.size + b.size⟩, ?_,
        rfl, ?_, ?_, ?_, ?_, fun i hi => buffer_withHeader_of_ne (hi q (by simp)).symm _,
        .inr ⟨q, by simp, rfl⟩⟩
      · rw [if_pos heq, load_eq hblt, hb, Option.bind_some, setSize_eq hqlt, Option.bind_some,
          setNext_eq (by exact hqlt), Option.bind_some]
        simp [withHeader]
      · rw [head_withHeader, hhead]
        rcases pre' with _ | ⟨t, rest⟩ <;> rfl
      · exact hchain.replace hpost (fun t ht => ne_of_lt (hpreq t ht))
          (fun t ht => (ne_of_lt (hqpost t ht)).symm) _
      · refine List.pairwise_append.mpr ⟨(List.pairwise_append.mp hasc'.1).1,
          List.pairwise_cons.mpr ⟨hqpost, (List.pairwise_cons.mp hasc'.2.1).2⟩, fun t ht u hu => ?_⟩
        rcases List.mem_cons.mp hu with rfl | hu
        · exact hpreq t ht
        · exact lt_trans (hpreq t ht) (hqpost u hu)
      · rw [hinsert, Stretch.adjoining.glue_glue (by simp [Stretch.adjoining, Stretch.stop, heq])]
        rfl
    · refine ⟨p, pre' ++ [q], b, by rw [if_neg heq], rfl, hhead, h, hasc, ?_, fun _ _ => rfl, .inl rfl⟩
      rw [hinsert, Stretch.glue_glue_of_ne (fun hstop => heq hstop.symm), List.append_assoc]
      rfl

/-- A list in order is what lies in front of a number and what lies behind it. -/
theorem exists_split {l : List Stretch} (h : l.Pairwise fun s t => s.start < t.start) (a : ℕ) :
    ∃ pre post, l = pre ++ post ∧ (∀ s ∈ pre, s.start < a) ∧ ∀ s ∈ post, a ≤ s.start := by
  induction l with
  | nil => exact ⟨[], [], rfl, by simp, by simp⟩
  | cons s l ih =>
    obtain ⟨hs, hl⟩ := List.pairwise_cons.mp h
    by_cases hlt : s.start < a
    · obtain ⟨pre, post, rfl, hpre, hpost⟩ := ih hl
      refine ⟨s :: pre, post, rfl, fun t ht => ?_, hpost⟩
      rcases List.mem_cons.mp ht with rfl | ht
      · exact hlt
      · exact hpre t ht
    · refine ⟨[], s :: l, rfl, by simp, fun t ht => ?_⟩
      rcases List.mem_cons.mp ht with rfl | ht
      · exact Nat.not_lt.mp hlt
      · have := hs t ht
        omega

/-- **`free` inserts the block into the free blocks**, merged with its neighbours. -/
theorem FreeList.free {l : List Stretch} (h : FreeList p l) {b : Stretch} (hpos : 0 < b.size)
    (hin : b.stop ≤ p.units) (hheader : p.buffer b.start = ⟨none, b.size⟩)
    (hnot : ∀ i ∈ b, i ∉ cover l) :
    ∃ p', p.free (some (b.start + 1)) = some p' ∧ FreeList p' (Stretch.insert b l) ∧ p'.units = p.units ∧
      ∀ i, i ≠ b.start → i ∉ cover l → p'.buffer i = p.buffer i := by
  have hblt : b.start < p.units := by
    simp only [Stretch.stop] at hin
    omega
  have hsep := h.separated.insert hpos hnot
  have hinside : ∀ s ∈ Stretch.insert b l, s.stop ≤ p.units := by
    intro s hs
    have hspos := hsep.pos s hs
    have hmem : s.stop - 1 ∈ s := by
      simp only [Stretch.mem_iff, Stretch.stop]
      omega
    rcases Stretch.mem_cover_insert.mp ⟨s, hs, hmem⟩ with hb | ⟨t, ht, hmem'⟩
    · have := hb.2
      omega
    · have := hmem'.2
      have := h.inside t ht
      omega
  rcases l with _ | ⟨n, rest⟩
  · -- toFree is the only free block
    have hhead : p.head = none := h.head
    refine ⟨{ p with head := some b.start }, ?_, ⟨hsep, hinside, rfl, hblt, hheader, trivial⟩, rfl,
      fun _ _ _ => rfl⟩
    simp [Variable.free, hhead]
  · generalize hl : n :: rest = l at *
    obtain ⟨pre, post, rfl, hpre, hpost'⟩ := exists_split (ascending h.separated) b.start
    have hpost : ∀ t ∈ post, b.start < t.start := by
      intro t ht
      refine lt_of_le_of_ne (hpost' t ht) fun heq => ?_
      exact hnot b.start (Stretch.start_mem hpos)
        ⟨t, List.mem_append_right _ ht, heq ▸ Stretch.start_mem (h.separated.pos t (by simp [ht]))⟩
    have hasc : (pre ++ b :: post).Pairwise fun s t => s.start < t.start := by
      have hasc' := List.pairwise_append.mp (ascending h.separated)
      refine List.pairwise_append.mpr ⟨hasc'.1, List.pairwise_cons.mpr ⟨hpost, hasc'.2.1⟩, fun t ht u hu => ?_⟩
      rcases List.mem_cons.mp hu with rfl | hu
      · exact hpre t ht
      · exact hasc'.2.2 t ht u hu
    have hne : pre ++ post ≠ [] := by
      rw [← hl]
      exact List.cons_ne_nil _ _
    have hlen := h.length_le
    obtain ⟨p₁, hadd, hunits₁, hhead₁, hchain₁, hframe₁⟩ :=
      addToList_eq h.head hne h.chain hasc hblt hheader 0
    obtain ⟨p₂, pre', t, hmerge, hunits₂, hhead₂, hchain₂, hasc₂, hinsert, hframe₂, hstart⟩ :=
      mergePrevious_eq h.separated hasc hhead₁ hchain₁ 0
    obtain ⟨p₃, hnext, hunits₃, hhead₃, hchain₃, hframe₃⟩ := mergeNext_eq hchain₂ hasc₂
    have hstep : freeLoop b.start (p.units + 1 - pre.length) ((last (some 0) pre).getD 0) (first post none) p =
        some p₃ := by
      obtain ⟨fuel, hfuel⟩ : ∃ fuel, p.units + 1 - pre.length = fuel + 1 :=
        ⟨p.units - pre.length, by simp only [List.length_append] at hlen; omega⟩
      have hall : (first post none).all (b.start < ·) := by
        rcases post with _ | ⟨u, post⟩
        · rfl
        · simpa [first] using hpost u List.mem_cons_self
      rw [hfuel, freeLoop, if_pos hall, hadd]
      simp only [Option.bind_eq_bind, Option.bind_some, hmerge, hnext]
    have hskip := freeLoop_skip (chain_append.mp h.chain).1 hpre (p.units + 1 - pre.length) 0
    have hfuel : p.units + 1 - pre.length + pre.length = p.units + 1 := by
      simp only [List.length_append] at hlen
      omega
    rw [hfuel, ← first_append, hstep] at hskip
    refine ⟨p₃, ?_, ⟨hsep, fun s hs => ?_, ?_, hinsert ▸ hchain₃⟩, by rw [hunits₃, hunits₂, hunits₁],
      fun i hib hil => ?_⟩
    · have hhead : p.head = some n.start := by
        rw [h.head, ← hl]
        rfl
      rw [← h.head, hhead] at hskip
      simp only [Variable.free, hhead]
      exact hskip
    · rw [hunits₃, hunits₂, hunits₁]
      exact hinside s hs
    · rw [hhead₃, hhead₂, ← hinsert, first_append, first_append]
      rcases post with _ | ⟨u, post⟩
      · rfl
      · by_cases hadj : t.stop = u.start <;> simp [Adjoining.glue, Stretch.adjoining, hadj, first]
    · have hpi : ∀ s ∈ pre, s.start ≠ i := by
        rintro s hs rfl
        exact hil ⟨s, List.mem_append_left _ hs, Stretch.start_mem (h.separated.pos s (by simp [hs]))⟩
      have hti : i ≠ t.start := by
        rcases hstart with heq | ⟨s, hs, heq⟩
        · exact heq ▸ hib
        · exact heq ▸ (hpi s hs).symm
      rw [hframe₃ i hti, hframe₂ i hpi, hframe₁ i hib hpi]

/-! ### The walks -/

/-- A walk folds over the sizes of the free blocks. -/
theorem FreeList.walk {l : List Stretch} (h : FreeList p l) (f : ℕ → ℕ → ℕ) (acc : ℕ) :
    p.walk f p.units p.head acc = some ((l.map Stretch.size).foldl f acc) := by
  have hwalk : ∀ (l : List Stretch) (fuel acc : ℕ), Chain p l none → l.length ≤ fuel →
      p.walk f fuel (first l none) acc = some ((l.map Stretch.size).foldl f acc) := by
    intro l
    induction l with
    | nil => intro fuel acc _ _; rw [first, Variable.walk]; rfl
    | cons s rest ih =>
      rintro (_ | fuel) acc ⟨hlt, hs, hrest⟩ hfuel
      · simp at hfuel
      · simp only [first, Variable.walk, load_eq hlt, hs, Option.bind_eq_bind, Option.bind_some, List.map_cons,
          List.foldl_cons]
        exact ih fuel _ hrest (Nat.le_of_succ_le_succ hfuel)
  rw [h.head]
  exact hwalk l _ acc h.chain h.length_le

/-- The free blocks of a pool are determined by where they are. -/
theorem FreeList.eq_of_cover_eq {p' : Variable} {l l' : List Stretch} (h : FreeList p l) (h' : FreeList p' l')
    (heq : ∀ i, i ∈ cover l ↔ i ∈ cover l') : l = l' := h.separated.eq_of_cover_eq h'.separated heq

end Variable

end MemoryPool

end EspMqttClient
