/-
  `Stretch` — stretches of natural numbers, and sets of numbers kept as a list of them.

  A list of stretches covers a set (`cover`).  It is `Separated` when no stretch is empty and each ends
  below the start of the ones behind it, with a number in between: then its stretches are the maximal
  ones inside the set (`Separated.exists_mem`), and the set has no other such list
  (`Separated.eq_of_cover_eq`).  So whatever is proved about the set after an operation settles what
  the list is.

  `carve` takes the first `size` numbers off the first stretch that has as many, which is the lowest
  place in the set where as many fit (`carve_eq_some`, `carve_eq_none_iff`).  `insert` puts a stretch in
  its place and joins it with its neighbours (`cover_insert`, `Separated.insert`).
-/
import EspMqttClient.Data.Coalesce
import Mathlib.Algebra.BigOperators.Group.List.Basic
import Mathlib.Algebra.GroupWithZero.Nat
import Mathlib.Data.Set.Basic
import Mathlib.Order.Basic
import Mathlib.Order.Interval.Finset.Nat
import Mathlib.Tactic.SplitIfs

/-- The `size` numbers from `start` on. -/
@[ext]
structure Stretch where
  start : ℕ
  size : ℕ
deriving DecidableEq, Repr

namespace Stretch

/-- The first number behind a stretch. -/
def stop (s : Stretch) : ℕ := s.start + s.size

instance : Membership ℕ Stretch := ⟨fun s i => s.start ≤ i ∧ i < s.stop⟩

theorem mem_iff {s : Stretch} {i : ℕ} : i ∈ s ↔ s.start ≤ i ∧ i < s.start + s.size := Iff.rfl

instance (i : ℕ) (s : Stretch) : Decidable (i ∈ s) := inferInstanceAs (Decidable (_ ∧ _))

theorem start_mem {s : Stretch} (h : 0 < s.size) : s.start ∈ s := by
  rw [mem_iff]
  omega

/-- Two stretches have no number in common. -/
def Apart (s t : Stretch) : Prop := s.stop ≤ t.start ∨ t.stop ≤ s.start

instance (s t : Stretch) : Decidable (s.Apart t) := inferInstanceAs (Decidable (_ ∨ _))

instance : Std.Symm Apart := ⟨fun _ _ => Or.symm⟩

theorem Apart.notMem {s t : Stretch} (h : s.Apart t) {i : ℕ} (hi : i ∈ s) : i ∉ t := by
  intro hit
  rw [mem_iff] at hi hit
  rcases h with h | h <;> simp only [stop] at h <;> omega

/-- Stretches that are not empty and have no number in common are apart. -/
theorem apart_of_notMem {s t : Stretch} (hs : 0 < s.size) (ht : 0 < t.size)
    (h : ∀ i ∈ s, i ∉ t) : s.Apart t := by
  by_contra hnot
  simp only [Apart, stop, not_or, Nat.not_le] at hnot
  -- the later start is in both
  rcases Nat.le_total s.start t.start with hle | hle
  · exact h t.start (mem_iff.mpr (by omega)) (start_mem ht)
  · exact h s.start (start_mem hs) (mem_iff.mpr (by omega))

/-- The numbers of a stretch as a finite set. -/
def toFinset (s : Stretch) : Finset ℕ := Finset.Ico s.start s.stop

@[simp] theorem mem_toFinset {s : Stretch} {i : ℕ} : i ∈ s.toFinset ↔ i ∈ s := Finset.mem_Ico

@[simp] theorem card_toFinset (s : Stretch) : s.toFinset.card = s.size := by
  rw [toFinset, Nat.card_Ico, stop, Nat.add_sub_cancel_left]

/-- A stretch that ends where the next one starts continues in it. -/
def adjoining : Adjoining Stretch where
  next s t := decide (s.stop = t.start)
  join s t := ⟨s.start, s.size + t.size⟩
  next_join_left := by
    intro r s t h
    have h : r.start + r.size = s.start := of_decide_eq_true h
    have hstop : (⟨r.start, r.size + s.size⟩ : Stretch).stop = s.stop := by
      simp only [stop]
      omega
    rw [hstop]
  next_join_right := by
    intro r s t h _
    exact h
  join_assoc := by
    intro r s t _ _
    rw [Nat.add_assoc]

/-! ### The set a list covers -/

/-- The numbers in the stretches of a list. -/
def cover (l : List Stretch) : Set ℕ := {i | ∃ s ∈ l, i ∈ s}

@[simp] theorem cover_nil : cover [] = ∅ := by
  simp [cover]

theorem mem_cover {l : List Stretch} {i : ℕ} : i ∈ cover l ↔ ∃ s ∈ l, i ∈ s := Iff.rfl

@[simp] theorem mem_cover_cons {s : Stretch} {l : List Stretch} {i : ℕ} :
    i ∈ cover (s :: l) ↔ i ∈ s ∨ i ∈ cover l := by
  simp [mem_cover]

@[simp] theorem mem_cover_append {l l' : List Stretch} {i : ℕ} :
    i ∈ cover (l ++ l') ↔ i ∈ cover l ∨ i ∈ cover l' := by
  simp only [mem_cover, List.mem_append, or_and_right, exists_or]

/-- Gluing a stretch to a list adds its numbers. -/
theorem mem_cover_glue {s : Stretch} {l : List Stretch} {i : ℕ} :
    i ∈ cover (adjoining.glue s l) ↔ i ∈ s ∨ i ∈ cover l := by
  rcases l with _ | ⟨t, rest⟩
  · simp [Adjoining.glue]
  · by_cases h : s.stop = t.start
    · have hjoin : i ∈ (⟨s.start, s.size + t.size⟩ : Stretch) ↔ i ∈ s ∨ i ∈ t := by
        simp only [mem_iff]
        simp only [stop] at h
        omega
      simp [Adjoining.glue, adjoining, h, hjoin, or_assoc]
    · simp [Adjoining.glue, adjoining, h]

/-- Stretches with no number in common that cover the first `n` numbers have `n` numbers between them. -/
theorem sum_sizes {l : List Stretch} (h : l.Pairwise Apart) {n : ℕ} (hn : ∀ i, i ∈ cover l ↔ i < n) :
    (l.map size).sum = n := by
  have hcard : ∀ l : List Stretch, l.Pairwise Apart →
      ∃ F : Finset ℕ, (∀ i, i ∈ F ↔ i ∈ cover l) ∧ F.card = (l.map size).sum := by
    intro l h
    induction l with
    | nil => exact ⟨∅, by simp, rfl⟩
    | cons s l ih =>
      obtain ⟨hs, hl⟩ := List.pairwise_cons.mp h
      obtain ⟨F, hF, hcard⟩ := ih hl
      have hdisj : Disjoint s.toFinset F := by
        rw [Finset.disjoint_left]
        intro i hi hiF
        obtain ⟨t, ht, hit⟩ := (hF i).mp hiF
        exact (hs t ht).notMem (mem_toFinset.mp hi) hit
      refine ⟨s.toFinset.disjUnion F hdisj, fun i => ?_, ?_⟩
      · rw [Finset.mem_disjUnion, mem_toFinset, hF, mem_cover_cons]
      · rw [Finset.card_disjUnion, card_toFinset, hcard, List.map_cons, List.sum_cons]
  obtain ⟨F, hF, hcard⟩ := hcard l h
  have hrange : F = Finset.range n := by
    ext i
    rw [hF, hn, Finset.mem_range]
  rw [← hcard, hrange, Finset.card_range]

/-! ### Separated lists -/

/-- No stretch is empty, and a number is missing between each and the ones behind it. -/
structure Separated (l : List Stretch) : Prop where
  pos : ∀ s ∈ l, 0 < s.size
  gap : l.Pairwise fun s t => s.stop < t.start

theorem separated_singleton {s : Stretch} (h : 0 < s.size) : Separated [s] :=
  ⟨fun _ ht => List.mem_singleton.mp ht ▸ h, List.pairwise_singleton ..⟩

theorem Separated.tail {s : Stretch} {l : List Stretch} (h : Separated (s :: l)) : Separated l :=
  ⟨fun t ht => h.pos t (List.mem_cons_of_mem s ht), h.gap.of_cons⟩

theorem Separated.head_pos {s : Stretch} {l : List Stretch} (h : Separated (s :: l)) : 0 < s.size :=
  h.pos s List.mem_cons_self

theorem Separated.head_gap {s : Stretch} {l : List Stretch} (h : Separated (s :: l)) :
    ∀ t ∈ l, s.stop < t.start := (List.pairwise_cons.mp h.gap).1

/-- Everything behind the first stretch is above it. -/
theorem Separated.stop_lt {s : Stretch} {l : List Stretch} (h : Separated (s :: l)) {i : ℕ}
    (hi : i ∈ cover l) : s.stop < i := by
  obtain ⟨t, ht, hit⟩ := hi
  exact lt_of_lt_of_le (h.head_gap t ht) hit.1

theorem Separated.cons {s : Stretch} {l : List Stretch} (h : Separated l) (hpos : 0 < s.size)
    (hbelow : ∀ t ∈ l, s.stop < t.start) : Separated (s :: l) where
  pos t ht := by
    rcases List.mem_cons.mp ht with rfl | ht
    · exact hpos
    · exact h.pos t ht
  gap := List.pairwise_cons.mpr ⟨hbelow, h.gap⟩

/-- Gluing a stretch that lies below a list keeps it separated. -/
theorem Separated.glue {s : Stretch} {l : List Stretch} (h : Separated l) (hpos : 0 < s.size)
    (hbelow : ∀ t ∈ l, s.stop ≤ t.start) : Separated (adjoining.glue s l) := by
  rcases l with _ | ⟨t, rest⟩
  · exact separated_singleton hpos
  · have ht := hbelow t List.mem_cons_self
    have hrest : ∀ u ∈ rest, t.stop < u.start := h.head_gap
    by_cases heq : s.stop = t.start
    · have hglue : adjoining.glue s (t :: rest) = ⟨s.start, s.size + t.size⟩ :: rest := by
        simp [Adjoining.glue, adjoining, heq]
      rw [hglue]
      refine h.tail.cons (by simp only; omega) fun u hu => ?_
      have := hrest u hu
      simp only [stop] at this heq ⊢
      omega
    · have hglue : adjoining.glue s (t :: rest) = s :: t :: rest := by
        simp [Adjoining.glue, adjoining, heq]
      rw [hglue]
      refine h.cons hpos fun u hu => ?_
      have hstop : t.start ≤ t.stop := Nat.le_add_right ..
      rcases List.mem_cons.mp hu with rfl | hu
      · omega
      · have := hrest u hu
        omega

/-- **The stretches of a separated list are maximal**: a stretch of numbers of the set lies in one
of them. -/
theorem Separated.exists_mem {l : List Stretch} (h : Separated l) {t : Stretch} (hpos : 0 < t.size)
    (ht : ∀ i ∈ t, i ∈ cover l) : ∃ s ∈ l, s.start ≤ t.start ∧ t.stop ≤ s.stop := by
  induction l with
  | nil => exact absurd (ht t.start (start_mem hpos)) (by simp)
  | cons s l ih =>
    rcases mem_cover_cons.mp (ht t.start (start_mem hpos)) with hs | hl
    · -- the first number is in `s`, and the number behind `s` is in no stretch
      refine ⟨s, List.mem_cons_self, hs.1, ?_⟩
      by_contra hlt
      have hmem : s.stop ∈ t := ⟨le_of_lt hs.2, Nat.not_le.mp hlt⟩
      rcases mem_cover_cons.mp (ht _ hmem) with hs' | hl'
      · exact lt_irrefl _ hs'.2
      · exact lt_irrefl _ (h.stop_lt hl')
    · have hall : ∀ i ∈ t, i ∈ cover l := by
        intro i hi
        refine (mem_cover_cons.mp (ht i hi)).resolve_left fun his => ?_
        have := h.stop_lt hl
        exact absurd his.2 (Nat.not_lt.mpr (le_trans this.le hi.1))
      obtain ⟨u, hu, hle⟩ := ih h.tail hall
      exact ⟨u, List.mem_cons_of_mem s hu, hle⟩

/-- **A set has at most one separated list.** -/
theorem Separated.eq_of_cover_eq {l l' : List Stretch} (h : Separated l) (h' : Separated l')
    (heq : ∀ i, i ∈ cover l ↔ i ∈ cover l') : l = l' := by
  induction l generalizing l' with
  | nil =>
    rcases l' with _ | ⟨t, rest⟩
    · rfl
    · have := (heq t.start).mpr (mem_cover_cons.mpr (.inl (start_mem h'.head_pos)))
      simp at this
  | cons s l ih =>
    rcases l' with _ | ⟨t, rest⟩
    · have := (heq s.start).mp (mem_cover_cons.mpr (.inl (start_mem h.head_pos)))
      simp at this
    · -- each of the two first stretches lies in a stretch of the other list, the lowest one
      have hlow : ∀ {s t : Stretch} {l rest : List Stretch}, Separated (s :: l) → Separated (t :: rest) →
          (∀ i, i ∈ cover (s :: l) ↔ i ∈ cover (t :: rest)) → t.start ≤ s.start := by
        intro s t l rest h h' heq
        rcases mem_cover_cons.mp ((heq s.start).mp (mem_cover_cons.mpr (.inl (start_mem h.head_pos))))
          with hs | hs
        · exact hs.1
        · exact le_trans (Nat.le_add_right t.start t.size) (h'.stop_lt hs).le
      have hlong : ∀ {s t : Stretch} {l rest : List Stretch}, Separated (s :: l) → Separated (t :: rest) →
          (∀ i, i ∈ cover (s :: l) ↔ i ∈ cover (t :: rest)) → s.start = t.start → s.stop ≤ t.stop := by
        intro s t l rest h h' heq hstart
        obtain ⟨u, hu, hle⟩ := h'.exists_mem h.head_pos
          fun i hi => (heq i).mp (mem_cover_cons.mpr (.inl hi))
        rcases List.mem_cons.mp hu with rfl | hu
        · exact hle.2
        · have := h'.head_gap u hu
          have hpos := h'.head_pos
          simp only [stop] at this
          omega
      have hstart : s.start = t.start :=
        Nat.le_antisymm (hlow h' h fun i => (heq i).symm) (hlow h h' heq)
      have hstop : s.stop = t.stop :=
        Nat.le_antisymm (hlong h h' heq hstart) (hlong h' h (fun i => (heq i).symm) hstart.symm)
      have hst : s = t := by
        refine Stretch.ext hstart ?_
        simp only [stop] at hstop
        omega
      subst hst
      congr 1
      refine ih h.tail h'.tail fun i => ⟨fun hi => ?_, fun hi => ?_⟩
      · refine (mem_cover_cons.mp ((heq i).mp (mem_cover_cons.mpr (.inr hi)))).resolve_left fun his => ?_
        exact absurd his.2 (Nat.not_lt.mpr (h.stop_lt hi).le)
      · refine (mem_cover_cons.mp ((heq i).mpr (mem_cover_cons.mpr (.inr hi)))).resolve_left fun his => ?_
        exact absurd his.2 (Nat.not_lt.mpr (h'.stop_lt hi).le)

/-! ### The lowest place -/

/-- Take the first `size` numbers off the first stretch that has as many. -/
def carve (size : ℕ) : List Stretch → Option (ℕ × List Stretch)
  | [] => none
  | s :: rest =>
    if s.size = size then some (s.start, rest)
    else if size < s.size then some (s.start, ⟨s.start + size, s.size - size⟩ :: rest)
    else (carve size rest).map fun (a, rest) => (a, s :: rest)

/-- Stretches that are too short are passed over. -/
theorem carve_append {size : ℕ} {pre : List Stretch} (h : ∀ s ∈ pre, s.size < size) (l : List Stretch) :
    carve size (pre ++ l) = (carve size l).map fun (a, rest) => (a, pre ++ rest) := by
  induction pre with
  | nil => simp
  | cons s pre ih =>
    have hs := h s List.mem_cons_self
    rw [List.cons_append, carve, if_neg (by omega), if_neg (by omega),
      ih fun t ht => h t (List.mem_cons_of_mem s ht), Option.map_map]
    rfl

/-- A list has a first stretch that is long enough, or none is. -/
theorem exists_first_long (size : ℕ) (l : List Stretch) :
    (∀ s ∈ l, s.size < size) ∨
      ∃ pre s post, l = pre ++ s :: post ∧ (∀ t ∈ pre, t.size < size) ∧ size ≤ s.size := by
  induction l with
  | nil => exact .inl fun _ h => absurd h List.not_mem_nil
  | cons s l ih =>
    by_cases hs : size ≤ s.size
    · exact .inr ⟨[], s, l, rfl, fun _ h => absurd h List.not_mem_nil, hs⟩
    rcases ih with hall | ⟨pre, t, post, rfl, hpre, ht⟩
    · refine .inl fun t ht => ?_
      rcases List.mem_cons.mp ht with rfl | ht
      · omega
      · exact hall t ht
    · refine .inr ⟨s :: pre, t, post, rfl, fun u hu => ?_, ht⟩
      rcases List.mem_cons.mp hu with rfl | hu
      · omega
      · exact hpre u hu

theorem carve_eq_none_iff {size : ℕ} {l : List Stretch} :
    carve size l = none ↔ ∀ s ∈ l, s.size < size := by
  constructor
  · intro h
    rcases exists_first_long size l with hall | ⟨pre, s, post, rfl, hpre, hs⟩
    · exact hall
    · rw [carve_append hpre, carve, Option.map_eq_none_iff] at h
      by_cases heq : s.size = size
      · simp [heq] at h
      · simp [heq, show size < s.size by omega] at h
  · intro h
    have := carve_append h []
    simpa [carve] using this

/-- What is left after a carving is separated, and covers the set without what was taken. -/
theorem Separated.carve {size : ℕ} (hsize : 0 < size) {l : List Stretch} (h : Separated l) {a : ℕ}
    {l' : List Stretch} (hc : carve size l = some (a, l')) :
    Separated l' ∧ (∀ i ∈ (⟨a, size⟩ : Stretch), i ∈ cover l) ∧
      ∀ i, i ∈ cover l' ↔ i ∈ cover l ∧ i ∉ (⟨a, size⟩ : Stretch) := by
  induction l generalizing l' with
  | nil => simp [Stretch.carve] at hc
  | cons s l ih =>
    rw [Stretch.carve] at hc
    split_ifs at hc with heq hlt
    · -- the whole stretch is taken
      obtain ⟨rfl, rfl⟩ := Prod.mk.inj (Option.some.inj hc)
      subst heq
      refine ⟨h.tail, fun i hi => mem_cover_cons.mpr (.inl hi), fun i => ?_⟩
      rw [mem_cover_cons]
      constructor
      · intro hi
        exact ⟨.inr hi, fun his => absurd his.2 (Nat.not_lt.mpr (h.stop_lt hi).le)⟩
      · rintro ⟨hi | hi, hnot⟩
        · exact absurd hi hnot
        · exact hi
    · -- its first part is
      obtain ⟨rfl, rfl⟩ := Prod.mk.inj (Option.some.inj hc)
      have hsplit : ∀ i, i ∈ s ↔ i ∈ (⟨s.start, size⟩ : Stretch) ∨
          i ∈ (⟨s.start + size, s.size - size⟩ : Stretch) := by
        intro i
        simp only [mem_iff]
        omega
      have hnot : ∀ i, i ∈ (⟨s.start + size, s.size - size⟩ : Stretch) →
          i ∉ (⟨s.start, size⟩ : Stretch) := by
        intro i
        simp only [mem_iff]
        omega
      refine ⟨h.tail.cons (by simp only; omega) fun t ht => ?_,
        fun i hi => mem_cover_cons.mpr (.inl ((hsplit i).mpr (.inl hi))), fun i => ?_⟩
      · have := h.head_gap t ht
        simp only [stop] at this ⊢
        omega
      · rw [mem_cover_cons, mem_cover_cons, hsplit]
        constructor
        · rintro (hi | hi)
          · exact ⟨.inl (.inr hi), hnot i hi⟩
          · refine ⟨.inr hi, fun his => ?_⟩
            have := h.stop_lt hi
            have hin := his.2
            simp only [stop] at this hin
            omega
        · rintro ⟨(hi | hi) | hi, hout⟩
          · exact absurd hi hout
          · exact .inl hi
          · exact .inr hi
    · -- it is too short
      rcases hrest : Stretch.carve size l with _ | ⟨b, rest⟩
      · rw [hrest] at hc
        cases hc
      rw [hrest] at hc
      obtain ⟨rfl, rfl⟩ := Prod.mk.inj (Option.some.inj hc)
      obtain ⟨hsep, hin, hcov⟩ := ih h.tail hrest
      refine ⟨hsep.cons h.head_pos fun t ht => ?_, fun i hi => mem_cover_cons.mpr (.inr (hin i hi)),
        fun i => ?_⟩
      · exact h.stop_lt ((hcov t.start).mp ⟨t, ht, start_mem (hsep.pos t ht)⟩).1
      · rw [mem_cover_cons, mem_cover_cons, hcov]
        constructor
        · rintro (hi | ⟨hi, hout⟩)
          · refine ⟨.inl hi, fun hib => ?_⟩
            exact absurd hi.2 (Nat.not_lt.mpr (h.stop_lt (hin i hib)).le)
          · exact ⟨.inr hi, hout⟩
        · rintro ⟨hi | hi, hout⟩
          · exact .inl hi
          · exact .inr ⟨hi, hout⟩

/-- **A carving is at the lowest place where as many numbers fit.** -/
theorem Separated.carve_lowest {size : ℕ} (hsize : 0 < size) {l : List Stretch} (h : Separated l) {a : ℕ}
    {l' : List Stretch} (hc : Stretch.carve size l = some (a, l')) {b : ℕ}
    (hb : ∀ i ∈ (⟨b, size⟩ : Stretch), i ∈ cover l) : a ≤ b := by
  rcases exists_first_long size l with hall | ⟨pre, s, post, rfl, hpre, hs⟩
  · rw [carve_eq_none_iff.mpr hall] at hc
    cases hc
  have ha : a = s.start := by
    rw [carve_append hpre, Stretch.carve] at hc
    split_ifs at hc
    · exact (Prod.mk.inj (Option.some.inj hc)).1.symm
    · exact (Prod.mk.inj (Option.some.inj hc)).1.symm
    · omega
  obtain ⟨t, ht, hle⟩ := h.exists_mem (t := ⟨b, size⟩) hsize hb
  have hlong : size ≤ t.size := by
    have := hle.2
    have := hle.1
    simp only [stop] at *
    omega
  rw [ha]
  refine le_trans ?_ hle.1
  -- a stretch in front of `s` is too short
  rcases List.mem_append.mp ht with ht | ht
  · exact absurd hlong (Nat.not_le.mpr (hpre t ht))
  rcases List.mem_cons.mp ht with rfl | ht
  · exact le_rfl
  · have hsep := (List.pairwise_append.mp h.gap).2.1
    have := (List.pairwise_cons.mp hsep).1 t ht
    simp only [stop] at this
    omega

/-- Nothing is carved when as many numbers fit nowhere. -/
theorem Separated.carve_eq_none_iff {size : ℕ} (hsize : 0 < size) {l : List Stretch} (h : Separated l) :
    Stretch.carve size l = none ↔ ∀ b, ¬ ∀ i ∈ (⟨b, size⟩ : Stretch), i ∈ cover l := by
  rw [Stretch.carve_eq_none_iff]
  constructor
  · intro hall b hb
    obtain ⟨t, ht, hle⟩ := h.exists_mem (t := ⟨b, size⟩) hsize hb
    have hshort := hall t ht
    have h1 := hle.1
    have h2 := hle.2
    simp only [stop] at h1 h2
    omega
  · intro hnone s hs
    by_contra hlong
    refine hnone s.start fun i hi => ⟨s, hs, ?_⟩
    rw [mem_iff] at hi ⊢
    simp only at hi
    omega

/-! ### Putting a stretch in its place -/

/-- Put a stretch in front of the first one that starts above it, and join what adjoins. -/
def insert (s : Stretch) : List Stretch → List Stretch
  | [] => [s]
  | t :: rest => if s.start < t.start then adjoining.glue s (t :: rest)
    else adjoining.glue t (insert s rest)

/-- In front of everything a stretch is glued to the list. -/
theorem insert_of_lt {s : Stretch} {l : List Stretch} (h : ∀ t ∈ l, s.start < t.start) :
    insert s l = adjoining.glue s l := by
  rcases l with _ | ⟨t, rest⟩
  · rfl
  · rw [insert, if_pos (h t List.mem_cons_self)]

/-- A stretch that does not adjoin the one glued to a list comes in front of both. -/
theorem glue_glue_of_ne {s t : Stretch} (h : s.stop ≠ t.start) (l : List Stretch) :
    adjoining.glue s (adjoining.glue t l) = s :: adjoining.glue t l := by
  rcases l with _ | ⟨u, rest⟩
  · simp [Adjoining.glue, adjoining, h]
  · by_cases htu : t.stop = u.start <;> simp [Adjoining.glue, adjoining, h, htu]

theorem mem_cover_insert {s : Stretch} {l : List Stretch} {i : ℕ} :
    i ∈ cover (insert s l) ↔ i ∈ s ∨ i ∈ cover l := by
  induction l with
  | nil => simp [insert]
  | cons t rest ih =>
    rw [insert]
    split_ifs
    · exact mem_cover_glue
    · rw [mem_cover_glue, ih, mem_cover_cons, or_left_comm]

/-- Every start in the new list is one of the old ones or the new stretch's. -/
theorem start_mem_insert {s t : Stretch} {l : List Stretch} (ht : t ∈ insert s l) :
    t.start = s.start ∨ ∃ u ∈ l, t.start = u.start := by
  have hglue : ∀ {s t : Stretch} {l : List Stretch}, t ∈ adjoining.glue s l →
      t.start = s.start ∨ t ∈ l := by
    intro s t l ht
    rcases l with _ | ⟨u, rest⟩
    · exact .inl (congrArg start (List.mem_singleton.mp ht))
    · rw [Adjoining.glue] at ht
      split_ifs at ht
      · rcases List.mem_cons.mp ht with rfl | ht
        · exact .inl rfl
        · exact .inr (List.mem_cons_of_mem u ht)
      · rcases List.mem_cons.mp ht with rfl | ht
        · exact .inl rfl
        · exact .inr ht
  induction l with
  | nil => exact .inl (congrArg start (List.mem_singleton.mp ht))
  | cons u rest ih =>
    rw [insert] at ht
    split_ifs at ht
    · rcases hglue ht with h | h
      · exact .inl h
      · exact .inr ⟨t, h, rfl⟩
    · rcases hglue ht with h | h
      · exact .inr ⟨u, List.mem_cons_self, h⟩
      · rcases ih h with h | ⟨v, hv, h⟩
        · exact .inl h
        · exact .inr ⟨v, List.mem_cons_of_mem u hv, h⟩

/-- A stretch of numbers that were not in the set can be inserted. -/
theorem Separated.insert {s : Stretch} {l : List Stretch} (h : Separated l) (hpos : 0 < s.size)
    (hnot : ∀ i ∈ s, i ∉ cover l) : Separated (Stretch.insert s l) := by
  induction l with
  | nil => exact separated_singleton hpos
  | cons t rest ih =>
    have hdisj : s.Apart t :=
      apart_of_notMem hpos h.head_pos fun i hi hit => hnot i hi (mem_cover_cons.mpr (.inl hit))
    have htpos := h.head_pos
    rw [Stretch.insert]
    split_ifs with hlt
    · refine h.glue hpos fun u hu => ?_
      have hstop : s.stop ≤ t.start := by
        rcases hdisj with hd | hd
        · exact hd
        · simp only [stop] at hd
          omega
      rcases List.mem_cons.mp hu with rfl | hu
      · exact hstop
      · have := h.head_gap u hu
        simp only [stop] at this hstop ⊢
        omega
    · have hstop : t.stop ≤ s.start := by
        rcases hdisj with hd | hd
        · simp only [stop] at hd
          omega
        · exact hd
      refine (ih h.tail fun i hi hir => hnot i hi (mem_cover_cons.mpr (.inr hir))).glue htpos
        fun u hu => ?_
      rcases start_mem_insert hu with heq | ⟨v, hv, heq⟩
      · omega
      · have := h.head_gap v hv
        omega

/-- A list with everything in front of the new stretch and everything behind it. -/
theorem insert_append {s : Stretch} {pre : List Stretch} {l : List Stretch}
    (h : ∀ t ∈ pre, t.stop < s.start) (hsep : Separated (pre ++ l)) :
    Stretch.insert s (pre ++ l) = pre ++ Stretch.insert s l := by
  induction pre with
  | nil => rfl
  | cons t pre ih =>
    have ht := h t List.mem_cons_self
    have hle : t.start ≤ t.stop := Nat.le_add_right ..
    have hrec := ih (fun u hu => h u (List.mem_cons_of_mem t hu)) hsep.tail
    rw [List.cons_append, Stretch.insert, if_neg (by omega), hrec, List.cons_append]
    -- the first of what follows is not adjacent to `t`
    rcases hl : pre ++ Stretch.insert s l with _ | ⟨u, rest⟩
    · rfl
    · have hu : u ∈ Stretch.insert s (pre ++ l) := by
        rw [hrec, hl]
        exact List.mem_cons_self
      have hgap : t.stop < u.start := by
        rcases start_mem_insert hu with heq | ⟨v, hv, heq⟩
        · omega
        · have := hsep.head_gap v hv
          omega
      have hne : t.stop ≠ u.start := by omega
      simp [Adjoining.glue, adjoining, hne]

end Stretch
