/-
  `Arena` — a memory of numbered cells out of which blocks are given.

  The blocks in use are stretches of the cells, none of them empty and no two with a cell in common.  A
  request for `size` cells gets the lowest place where as many are free (`place`): the answer depends on
  which cells are in use and on nothing else, so it is the same after every history that leads to the
  same blocks.  The other cells are a separated list of stretches (`IsFree`), whichever way that list is
  found.

  Between the free stretches and the blocks everything is accounted for (`IsFree.sum_sizes`), and there
  is at most one free stretch more than blocks (`IsFree.length_le`).  When all blocks have one size and
  start at multiples of it, there is no fragmentation: a place is found exactly while there are fewer
  blocks than the memory has multiples (`Uniform.place`).
-/
import EspMqttClient.Data.Stretches
import Mathlib.Algebra.Order.Group.Nat
import Mathlib.Data.List.Perm.Subperm
import Mathlib.Data.Nat.Find
import Mathlib.Tactic.Ring

/-- A memory of `units` cells and the blocks in use. -/
structure Arena where
  units : ℕ
  blocks : List Stretch
  pos : ∀ s ∈ blocks, 0 < s.size
  inside : ∀ s ∈ blocks, s.stop ≤ units
  apart : blocks.Pairwise Stretch.Apart

namespace Arena

open Stretch (cover Separated)

/-- A memory with no block in use. -/
def empty (units : ℕ) : Arena where
  units := units
  blocks := []
  pos _ h := absurd h List.not_mem_nil
  inside _ h := absurd h List.not_mem_nil
  apart := .nil

/-- The cells from `a` on are in the memory and free. -/
def Fits (A : Arena) (size a : ℕ) : Prop :=
  a + size ≤ A.units ∧ ∀ i ∈ (⟨a, size⟩ : Stretch), i ∉ cover A.blocks

open Classical in
/-- The lowest place where `size` cells are free. -/
noncomputable def place (A : Arena) (size : ℕ) : Option ℕ :=
  if h : ∃ a, A.Fits size a then some (Nat.find h) else none

theorem place_eq_some_iff {A : Arena} {size a : ℕ} :
    A.place size = some a ↔ A.Fits size a ∧ ∀ b, A.Fits size b → a ≤ b := by
  classical
  rw [place]
  split_ifs with h
  · rw [Option.some.injEq, Nat.find_eq_iff]
    refine and_congr_right fun _ => ⟨fun hlow b hb => ?_, fun hlow b hb hfits => ?_⟩
    · by_contra hlt
      exact hlow b (Nat.not_le.mp hlt) hb
    · exact absurd hb (Nat.not_lt.mpr (hlow b hfits))
  · exact ⟨False.elim, fun hfits => absurd ⟨a, hfits.1⟩ h⟩

theorem place_eq_none_iff {A : Arena} {size : ℕ} : A.place size = none ↔ ∀ a, ¬ A.Fits size a := by
  classical
  rw [place]
  split_ifs with h
  · exact ⟨False.elim, fun hall => absurd h.choose_spec (hall _)⟩
  · exact ⟨fun _ a ha => h ⟨a, ha⟩, fun _ => rfl⟩

/-- An empty memory has its lowest place at the bottom. -/
theorem place_empty {units size : ℕ} (h : size ≤ units) : (empty units).place size = some 0 :=
  place_eq_some_iff.mpr ⟨⟨by simpa [empty] using h, by simp [empty]⟩, fun _ _ => Nat.zero_le _⟩

/-- Behind a block at the bottom. -/
theorem place_behind {A : Arena} {n size : ℕ} (h : A.blocks = [⟨0, n⟩]) (hsize : 0 < size)
    (hroom : n + size ≤ A.units) : A.place size = some n := by
  refine place_eq_some_iff.mpr ⟨⟨hroom, fun i hi hused => ?_⟩, fun b hb => ?_⟩
  · obtain ⟨s, hs, his⟩ := h ▸ hused
    obtain rfl := List.mem_singleton.mp hs
    exact absurd (Stretch.mem_iff.mp hi).1 (Nat.not_le.mpr (by simpa [Stretch.mem_iff] using his))
  · by_contra hlt
    refine hb.2 b (Stretch.start_mem hsize) ⟨⟨0, n⟩, h ▸ List.mem_cons_self, ?_⟩
    simpa [Stretch.mem_iff] using hlt

/-- Where a block fits depends on the cells in use. -/
theorem place_congr {A A' : Arena} (hunits : A.units = A'.units)
    (hcover : ∀ i, i ∈ cover A.blocks ↔ i ∈ cover A'.blocks) (size : ℕ) : A.place size = A'.place size := by
  have hfits : ∀ a, A.Fits size a ↔ A'.Fits size a := by
    intro a
    simp only [Fits, hunits, hcover]
  rcases h : A'.place size with _ | a
  · rw [place_eq_none_iff] at h ⊢
    exact fun a ha => h a ((hfits a).mp ha)
  · rw [place_eq_some_iff] at h ⊢
    exact ⟨(hfits a).mpr h.1, fun b hb => h.2 b ((hfits b).mp hb)⟩

/-- A block that fits has no cell in common with the ones in use. -/
theorem Fits.apart {A : Arena} {size a : ℕ} (h : A.Fits size a) (hsize : 0 < size) :
    ∀ s ∈ A.blocks, Stretch.Apart ⟨a, size⟩ s := fun s hs =>
  Stretch.apart_of_notMem hsize (A.pos s hs) fun i hi his => h.2 i hi ⟨s, hs, his⟩

/-- Take a block into use. -/
def take (A : Arena) (size a : ℕ) (h : A.Fits size a) (hsize : 0 < size) : Arena where
  units := A.units
  blocks := ⟨a, size⟩ :: A.blocks
  pos s hs := (List.mem_cons.mp hs).elim (fun heq => heq ▸ hsize) (A.pos s)
  inside s hs := (List.mem_cons.mp hs).elim (fun heq => heq ▸ h.1) (A.inside s)
  apart := List.pairwise_cons.mpr ⟨h.apart hsize, A.apart⟩

/-- Give the block at `a` back. -/
def release (A : Arena) (a : ℕ) : Arena where
  units := A.units
  blocks := A.blocks.filter fun s => s.start ≠ a
  pos s hs := A.pos s (List.mem_of_mem_filter hs)
  inside s hs := A.inside s (List.mem_of_mem_filter hs)
  apart := A.apart.filter _

/-- Blocks with a cell in common are the same. -/
theorem eq_of_mem {A : Arena} {s t : Stretch} (hs : s ∈ A.blocks) (ht : t ∈ A.blocks) {i : ℕ} (his : i ∈ s)
    (hit : i ∈ t) : s = t := by
  by_contra hne
  exact (A.apart.forall hs ht hne).notMem his hit

theorem mem_release {A : Arena} {a : ℕ} {s : Stretch} :
    s ∈ (A.release a).blocks ↔ s ∈ A.blocks ∧ s.start ≠ a := by
  simp [release]

/-- What is in use after a block was given back. -/
theorem mem_cover_release {A : Arena} {s : Stretch} (hs : s ∈ A.blocks) {i : ℕ} :
    i ∈ cover (A.release s.start).blocks ↔ i ∈ cover A.blocks ∧ i ∉ s := by
  constructor
  · rintro ⟨t, ht, hit⟩
    obtain ⟨ht, hne⟩ := mem_release.mp ht
    exact ⟨⟨t, ht, hit⟩, fun his => hne (congrArg Stretch.start (A.eq_of_mem ht hs hit his))⟩
  · rintro ⟨⟨t, ht, hit⟩, hnot⟩
    refine ⟨t, mem_release.mpr ⟨ht, fun heq => ?_⟩, hit⟩
    have hst : t = s :=
      A.eq_of_mem ht hs (Stretch.start_mem (A.pos t ht)) (heq ▸ Stretch.start_mem (A.pos s hs))
    exact hnot (hst ▸ hit)

/-! ### The free stretches -/

/-- A separated list of the cells that are not in use. -/
structure IsFree (A : Arena) (l : List Stretch) : Prop where
  separated : Separated l
  cover : ∀ i, i ∈ cover l ↔ i < A.units ∧ i ∉ cover A.blocks

variable {A : Arena} {l : List Stretch}

/-- Cells that fit a block are free ones. -/
theorem IsFree.fits_iff (h : A.IsFree l) {size : ℕ} (hsize : 0 < size) (a : ℕ) :
    A.Fits size a ↔ ∀ i ∈ (⟨a, size⟩ : Stretch), i ∈ Stretch.cover l := by
  constructor
  · intro hfits i hi
    exact (h.cover i).mpr ⟨lt_of_lt_of_le hi.2 hfits.1, hfits.2 i hi⟩
  · intro hall
    refine ⟨?_, fun i hi => ((h.cover i).mp (hall i hi)).2⟩
    have hlast : a + size - 1 ∈ (⟨a, size⟩ : Stretch) := Stretch.mem_iff.mpr (by simp only; omega)
    have := ((h.cover _).mp (hall _ hlast)).1
    omega

/-- Carving the first free stretch that is long enough finds the place. -/
theorem IsFree.place (h : A.IsFree l) {size : ℕ} (hsize : 0 < size) :
    A.place size = (Stretch.carve size l).map Prod.fst := by
  rcases hc : Stretch.carve size l with _ | ⟨a, l'⟩
  · rw [h.separated.carve_eq_none_iff hsize] at hc
    exact place_eq_none_iff.mpr fun a ha => hc a ((h.fits_iff hsize a).mp ha)
  · have hin := (h.separated.carve hsize hc).2.1
    exact place_eq_some_iff.mpr ⟨(h.fits_iff hsize a).mpr hin,
      fun b hb => h.separated.carve_lowest hsize hc ((h.fits_iff hsize b).mp hb)⟩

/-- What carving leaves are the free stretches with the block in use. -/
theorem IsFree.take (h : A.IsFree l) {size a : ℕ} (hsize : 0 < size) {l' : List Stretch}
    (hc : Stretch.carve size l = some (a, l')) (hfits : A.Fits size a) :
    (A.take size a hfits hsize).IsFree l' := by
  obtain ⟨hsep, -, hcov⟩ := h.separated.carve hsize hc
  refine ⟨hsep, fun i => ?_⟩
  rw [hcov, h.cover]
  simp only [Arena.take, Stretch.mem_cover_cons, not_or]
  tauto

/-- Inserting a block in use gives the free stretches without it. -/
theorem IsFree.release (h : A.IsFree l) {s : Stretch} (hs : s ∈ A.blocks) :
    (A.release s.start).IsFree (Stretch.insert s l) := by
  have hnot : ∀ i ∈ s, i ∉ Stretch.cover l := fun i hi hil => ((h.cover i).mp hil).2 ⟨s, hs, hi⟩
  refine ⟨h.separated.insert (A.pos s hs) hnot, fun i => ?_⟩
  rw [Stretch.mem_cover_insert, h.cover, mem_cover_release hs]
  have hin : i ∈ s → i < (A.release s.start).units := fun hi => lt_of_lt_of_le hi.2 (A.inside s hs)
  by_cases hi : i ∈ s
  · simp [hi, hin hi]
  · simp [hi, Arena.release]

/-- The free stretches and the blocks make up the memory. -/
theorem IsFree.sum_sizes (h : A.IsFree l) :
    (l.map Stretch.size).sum + (A.blocks.map Stretch.size).sum = A.units := by
  rw [← List.sum_append, ← List.map_append]
  refine Stretch.sum_sizes (List.pairwise_append.mpr ⟨?_, A.apart, fun s hs t ht => ?_⟩) fun i => ?_
  · exact h.separated.gap.imp fun hst => .inl hst.le
  · exact Stretch.apart_of_notMem (h.separated.pos s hs) (A.pos t ht) fun i his hit =>
      ((h.cover i).mp ⟨s, hs, his⟩).2 ⟨t, ht, hit⟩
  · rw [Stretch.mem_cover_append, h.cover]
    constructor
    · rintro (hi | ⟨s, hs, hi⟩)
      · exact hi.1
      · exact lt_of_lt_of_le hi.2 (A.inside s hs)
    · intro hi
      by_cases hused : i ∈ Stretch.cover A.blocks
      · exact .inr hused
      · exact .inl ⟨hi, hused⟩

/-- There is at most one free stretch more than blocks: each but one at the bottom starts where a block
stops. -/
theorem IsFree.length_le (h : A.IsFree l) : l.length ≤ A.blocks.length + 1 := by
  have hnodup : (l.map Stretch.start).Nodup := by
    refine List.pairwise_map.mpr (h.separated.gap.imp fun hst => ne_of_lt ?_)
    exact lt_of_le_of_lt (Nat.le_add_right ..) hst
  have hsub : l.map Stretch.start ⊆ 0 :: A.blocks.map Stretch.stop := by
    intro a ha
    obtain ⟨s, hs, rfl⟩ := List.mem_map.mp ha
    rcases Nat.eq_zero_or_pos s.start with hzero | hpos
    · exact hzero ▸ List.mem_cons_self
    refine List.mem_cons_of_mem _ (List.mem_map.mpr ?_)
    have hspos := h.separated.pos s hs
    have hfree : ∀ i ∈ s, i ∈ Stretch.cover l := fun i hi => ⟨s, hs, hi⟩
    -- the cell below `s` is in use, or `s` would not be a maximal stretch
    have hused : s.start - 1 ∈ Stretch.cover A.blocks := by
      by_contra hnot
      have hbelow : s.start - 1 ∈ Stretch.cover l := by
        refine (h.cover _).mpr ⟨?_, hnot⟩
        have := ((h.cover _).mp (hfree _ (Stretch.start_mem hspos))).1
        omega
      obtain ⟨t, ht, h1, h2⟩ := h.separated.exists_mem (t := ⟨s.start - 1, s.size + 1⟩) (Nat.succ_pos _)
        fun i hi => by
          rw [Stretch.mem_iff] at hi
          simp only at hi
          rcases Nat.eq_or_lt_of_le hi.1 with heq | hlt
          · exact heq ▸ hbelow
          · exact hfree i (Stretch.mem_iff.mpr (by omega))
      simp only [Stretch.stop] at h1 h2
      have hts : t ≠ s := by
        rintro rfl
        omega
      have hapart : l.Pairwise Stretch.Apart := h.separated.gap.imp fun hst => .inl hst.le
      refine (hapart.forall ht hs hts).notMem (i := s.start) ?_ (Stretch.start_mem hspos)
      exact Stretch.mem_iff.mpr (by omega)
    obtain ⟨t, ht, hit⟩ := hused
    refine ⟨t, ht, ?_⟩
    have hstart := ((h.cover _).mp (hfree _ (Stretch.start_mem hspos))).2
    have h1 := hit.1
    have h2 := hit.2
    by_contra hne
    refine hstart ⟨t, ht, Stretch.mem_iff.mpr ?_⟩
    simp only [Stretch.stop] at h2 hne
    omega
  simpa using (List.subperm_of_subset hnodup hsub).length_le

/-! ### Blocks of one size -/

/-- Every block has the same size and starts at a multiple of it. -/
def Uniform (A : Arena) (size : ℕ) : Prop := ∀ s ∈ A.blocks, s.size = size ∧ size ∣ s.start

/-- A number in the `k`-th of the stretches of one size. -/
theorem div_eq_of_mem {size k i : ℕ} (hsize : 0 < size) (h : i ∈ (⟨size * k, size⟩ : Stretch)) :
    i / size = k := by
  rw [Stretch.mem_iff] at h
  rw [Nat.div_eq_iff hsize, Nat.mul_comm k]
  simp only at h
  omega

section Uniform

variable {size n : ℕ} (hu : A.Uniform size) (hsize : 0 < size)
include hu hsize

/-- Where a block fits, it also fits at the multiple below. -/
theorem Uniform.fits_div {a : ℕ} (h : A.Fits size a) : A.Fits size (size * (a / size)) := by
  have hle : size * (a / size) ≤ a := Nat.mul_div_le a size
  refine ⟨by have := h.1; omega, ?_⟩
  rintro i hi ⟨s, hs, his⟩
  obtain ⟨hss, k, hk⟩ := hu s hs
  have hsk : s = ⟨size * k, size⟩ := Stretch.ext hk hss
  -- the block is the multiple of the size that the cell is in, and `a` is in it as well
  have hka : k = a / size := (div_eq_of_mem hsize (hsk ▸ his)).symm.trans (div_eq_of_mem hsize hi)
  have hlt := Nat.lt_mul_div_succ a hsize
  rw [Nat.mul_add, Nat.mul_one] at hlt
  refine h.2 a (Stretch.start_mem hsize) ⟨s, hs, Stretch.mem_iff.mpr ?_⟩
  rw [hsk, hka]
  simp only
  omega

/-- A place for one more block is a multiple of the size. -/
theorem Uniform.dvd_place {a : ℕ} (h : A.place size = some a) : size ∣ a := by
  obtain ⟨hfits, hlow⟩ := place_eq_some_iff.mp h
  have hle := hlow _ (hu.fits_div hsize hfits)
  have hge : size * (a / size) ≤ a := Nat.mul_div_le a size
  exact ⟨a / size, by omega⟩

theorem Uniform.take {a : ℕ} (h : A.place size = some a) (hfits : A.Fits size a) :
    (A.take size a hfits hsize).Uniform size := by
  intro s hs
  rcases List.mem_cons.mp hs with rfl | hs
  · exact ⟨rfl, hu.dvd_place hsize h⟩
  · exact hu s hs

/-- The numbers of the multiples that are in use. -/
theorem Uniform.nodup_multiples : (A.blocks.map fun s => s.start / size).Nodup := by
  refine List.pairwise_map.mpr (A.apart.imp_of_mem fun {s t} hs ht hapart heq => ?_)
  obtain ⟨hss, k, hk⟩ := hu s hs
  obtain ⟨hst, m, hm⟩ := hu t ht
  rw [hk, hm, Nat.mul_div_cancel_left _ hsize, Nat.mul_div_cancel_left _ hsize] at heq
  rcases hapart with h | h <;> simp only [Stretch.stop, hss, hst, hk, hm, heq] at h <;> omega

theorem Uniform.multiples_subset (hunits : A.units = n * size) :
    (A.blocks.map fun s => s.start / size) ⊆ List.range n := by
  intro k hk
  obtain ⟨s, hs, rfl⟩ := List.mem_map.mp hk
  have hin := A.inside s hs
  simp only [Stretch.stop, (hu s hs).1, hunits] at hin
  rw [List.mem_range, Nat.div_lt_iff_lt_mul hsize]
  omega

/-- There are never more blocks than multiples. -/
theorem Uniform.length_le (hunits : A.units = n * size) : A.blocks.length ≤ n := by
  have h := (List.subperm_of_subset (hu.nodup_multiples hsize) (hu.multiples_subset hsize hunits)).length_le
  simpa using h

/-- **With blocks of one size there is no fragmentation**: there is a place for one more block until as
many blocks are in use as the memory is long. -/
theorem Uniform.place (hunits : A.units = n * size) : A.place size = none ↔ A.blocks.length = n := by
  have hnodup := hu.nodup_multiples hsize
  have hsub := hu.multiples_subset hsize hunits
  constructor
  · intro hnone
    refine Nat.le_antisymm (hu.length_le hsize hunits) ?_
    -- every multiple is in use
    have hall : List.range n ⊆ A.blocks.map fun s => s.start / size := by
      intro k hk
      rw [List.mem_range] at hk
      have hnot := place_eq_none_iff.mp hnone (size * k)
      have hroom : size * k + size ≤ A.units := by
        have := Nat.mul_le_mul_left size (Nat.succ_le_of_lt hk)
        rw [Nat.mul_succ] at this
        rw [hunits, Nat.mul_comm n]
        exact this
      obtain ⟨i, hi, s, hs, his⟩ : ∃ i ∈ (⟨size * k, size⟩ : Stretch), i ∈ cover A.blocks := by
        by_contra hnone'
        exact hnot ⟨hroom, fun i hi hused => hnone' ⟨i, hi, hused⟩⟩
      obtain ⟨hss, m, hm⟩ := hu s hs
      have hsm : s = ⟨size * m, size⟩ := Stretch.ext hm hss
      refine List.mem_map.mpr ⟨s, hs, ?_⟩
      rw [hm, Nat.mul_div_cancel_left _ hsize]
      exact (div_eq_of_mem hsize (hsm ▸ his)).symm.trans (div_eq_of_mem hsize hi)
    simpa using (List.subperm_of_subset List.nodup_range hall).length_le
  · intro hlen
    rcases h : A.place size with _ | a
    · rfl
    -- a free multiple is not among the ones in use, which are all there are
    obtain ⟨hfits, -⟩ := place_eq_some_iff.mp h
    have hnew : a / size ∉ A.blocks.map fun s => s.start / size := by
      intro hmem
      obtain ⟨s, hs, heq⟩ := List.mem_map.mp hmem
      have hsa : s.start = a := Nat.div_left_inj (hu s hs).2 (hu.dvd_place hsize h) |>.mp heq
      exact hfits.2 a (Stretch.start_mem hsize) ⟨s, hs, hsa ▸ Stretch.start_mem (A.pos s hs)⟩
    have hin : a / size ∈ List.range n := by
      rw [List.mem_range, Nat.div_lt_iff_lt_mul hsize, ← hunits]
      have := hfits.1
      omega
    have hle := (List.subperm_of_subset (List.nodup_cons.mpr ⟨hnew, hnodup⟩)
      (List.cons_subset.mpr ⟨hin, hsub⟩)).length_le
    simp only [List.length_cons, List.length_map, List.length_range] at hle
    omega

end Uniform

end Arena
