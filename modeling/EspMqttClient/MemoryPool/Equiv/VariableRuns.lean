/-
  The pool with blocks of any size as its callers see it: it refines an arena.

  `Holdings` is what the callers have: the blocks they were given and not yet gave back, and what they
  last wrote in them.  A request gets the lowest place where its units fit, whatever the history; a call
  that frees what is not held or writes outside of it has no result, for the pool promises nothing then.
  `run_represents` says that the pool answers every sequence of calls as the arena does, and that at the
  end every block still holds what was written.

  So the answers only depend on the blocks that are held (`run_congr`).  A request fails exactly when it
  is for more than `maxBlockSize` (`malloc_eq_none_iff`), `freeMemory` is the buffer without what is held
  and a header for each gap (`freeMemory_eq`), and requests for the size that the pool was made for are
  met until as many are held as it was made for (`malloc_uniform`).
-/
import EspMqttClient.MemoryPool.Equiv.Variable
import EspMqttClient.Data.Arena

namespace EspMqttClient

namespace MemoryPool

namespace Variable

open Stretch (cover)

/-- What the callers of a pool have. -/
structure Holdings where
  arena : Arena
  /-- What was written to a unit since its block was given out. -/
  content : ℕ → Option BlockHeader

namespace Holdings

/-- Nothing, of a pool with `units` units. -/
def new (units : ℕ) : Holdings := ⟨.empty units, fun _ => none⟩

/-- The unit is behind the header of a block that is held. -/
def Holds (H : Holdings) (i : ℕ) : Prop := ∃ s ∈ H.arena.blocks, s.start < i ∧ i < s.stop

/-- The pointer is to the first unit behind the header of a block that is held. -/
def Owns (H : Holdings) (ptr : ℕ) : Prop := ∃ s ∈ H.arena.blocks, s.start + 1 = ptr

instance (H : Holdings) (i : ℕ) : Decidable (H.Holds i) :=
  inferInstanceAs (Decidable (∃ s ∈ H.arena.blocks, _))

instance (H : Holdings) (ptr : ℕ) : Decidable (H.Owns ptr) :=
  inferInstanceAs (Decidable (∃ s ∈ H.arena.blocks, _))

/-- A block for `size` bytes at `a`. -/
def give (H : Holdings) (header size a : ℕ) (h : H.arena.Fits (normalized header size + 1) a) : Holdings where
  arena := H.arena.take (normalized header size + 1) a h (Nat.succ_pos _)
  content i := if i ∈ (⟨a, normalized header size + 1⟩ : Stretch) then none else H.content i

/-- `malloc`: the lowest place where the units of the block fit. -/
noncomputable def malloc (header : ℕ) (H : Holdings) (size : ℕ) : Holdings × Option ℕ :=
  match h : H.arena.place (normalized header size + 1) with
  | none => (H, none)
  | some a => (H.give header size a (Arena.place_eq_some_iff.mp h).1, some (a + 1))

/-- One call, if the callers may make it. -/
noncomputable def step (header : ℕ) (H : Holdings) : Call → Option (Holdings × Option ℕ)
  | .malloc size => if size = 0 then some (H, none) else some (H.malloc header size)
  | .free none => some (H, none)
  | .free (some ptr) => if H.Owns ptr then some (⟨H.arena.release (ptr - 1), H.content⟩, none) else none
  | .write i content =>
    if H.Holds i then some (⟨H.arena, Function.update H.content i (some content)⟩, none) else none

/-- A sequence of calls. -/
noncomputable def run (header : ℕ) : Holdings → List Call → Option (Holdings × List (Option ℕ))
  | H, [] => some (H, [])
  | H, call :: calls => do
    let (H, ptr) ← H.step header call
    let (H, ptrs) ← run header H calls
    some (H, ptr :: ptrs)

/-- The first call of a sequence and the rest of it. -/
theorem run_cons {header : ℕ} {H H' : Holdings} {call : Call} {calls : List Call} {ptrs : List (Option ℕ)}
    (h : H.run header (call :: calls) = some (H', ptrs)) :
    ∃ H₁ ptr ptrs', H.step header call = some (H₁, ptr) ∧ H₁.run header calls = some (H', ptrs') ∧
      ptrs = ptr :: ptrs' := by
  rw [run] at h
  rcases hstep : H.step header call with _ | ⟨H₁, ptr⟩
  · simp [hstep] at h
  rcases hrest : H₁.run header calls with _ | ⟨H₂, ptrs'⟩
  · simp [hstep, hrest] at h
  obtain ⟨rfl, rfl⟩ : H₂ = H' ∧ ptr :: ptrs' = ptrs := by simpa [hstep, hrest] using h
  exact ⟨H₁, ptr, ptrs', rfl, hrest, rfl⟩

/-- What every call of a sequence keeps holds at the end. -/
theorem run_invariant {header : ℕ} {P : Holdings → Prop} : ∀ (calls : List Call) {H H' : Holdings}
    {ptrs : List (Option ℕ)},
      (∀ call ∈ calls, ∀ {H H' ptr}, P H → H.step header call = some (H', ptr) → P H') →
        P H → H.run header calls = some (H', ptrs) → P H' := by
  intro calls
  induction calls with
  | nil =>
    intro H H' ptrs _ h hrun
    obtain ⟨rfl, -⟩ := Prod.mk.inj (Option.some.inj hrun)
    exact h
  | cons call calls ih =>
    intro H H' ptrs hstep h hrun
    obtain ⟨H₁, ptr, ptrs', hfirst, hrest, -⟩ := run_cons hrun
    exact ih (fun c hc => hstep c (List.mem_cons_of_mem call hc))
      (hstep call List.mem_cons_self h hfirst) hrest

theorem malloc_of_none {header size : ℕ} {H : Holdings}
    (h : H.arena.place (normalized header size + 1) = none) : H.malloc header size = (H, none) := by
  rw [malloc]
  split
  · rfl
  · next h' => rw [h] at h'; cases h'

theorem malloc_of_some {header size a : ℕ} {H : Holdings}
    (h : H.arena.place (normalized header size + 1) = some a) :
    H.malloc header size = (H.give header size a (Arena.place_eq_some_iff.mp h).1, some (a + 1)) := by
  rw [malloc]
  split
  · next h' => rw [h] at h'; cases h'
  · next b h' =>
    obtain rfl : a = b := Option.some.inj (h.symm.trans h')
    rfl

/-- What one call does to the blocks: it takes the lowest place, gives one block back or changes nothing. -/
theorem step_cases {header : ℕ} {H H' : Holdings} {call : Call} {ptr : Option ℕ}
    (h : H.step header call = some (H', ptr)) :
    H'.arena = H.arena ∨
      (∃ size a, call = .malloc size ∧ H.arena.place (normalized header size + 1) = some a ∧
        ∃ hfits, H'.arena = H.arena.take (normalized header size + 1) a hfits (Nat.succ_pos _)) ∨
      ∃ s ∈ H.arena.blocks, H'.arena = H.arena.release s.start := by
  cases call with
  | malloc size =>
    rw [step] at h
    split_ifs at h
    · obtain ⟨rfl, -⟩ := Prod.mk.inj (Option.some.inj h)
      exact .inl rfl
    · rcases hplace : H.arena.place (normalized header size + 1) with _ | a
      · rw [malloc_of_none hplace] at h
        obtain ⟨rfl, -⟩ := Prod.mk.inj (Option.some.inj h)
        exact .inl rfl
      · rw [malloc_of_some hplace] at h
        obtain ⟨rfl, -⟩ := Prod.mk.inj (Option.some.inj h)
        exact .inr (.inl ⟨size, a, rfl, hplace, (Arena.place_eq_some_iff.mp hplace).1, rfl⟩)
  | free ptr' =>
    rcases ptr' with _ | ptr'
    · obtain ⟨rfl, -⟩ := Prod.mk.inj (Option.some.inj h)
      exact .inl rfl
    · rw [step] at h
      split_ifs at h with howns
      obtain ⟨rfl, -⟩ := Prod.mk.inj (Option.some.inj h)
      obtain ⟨s, hs, rfl⟩ := howns
      exact .inr (.inr ⟨s, hs, rfl⟩)
  | write i content =>
    rw [step] at h
    split_ifs at h
    obtain ⟨rfl, -⟩ := Prod.mk.inj (Option.some.inj h)
    exact .inl rfl

theorem units_step {header : ℕ} {H H' : Holdings} {call : Call} {ptr : Option ℕ}
    (h : H.step header call = some (H', ptr)) : H'.arena.units = H.arena.units := by
  rcases step_cases h with h | ⟨size, a, -, -, hfits, h⟩ | ⟨s, -, h⟩ <;> rw [h] <;> rfl

/-- A unit that is held belongs to one block. -/
theorem ne_start {H : Holdings} {i : ℕ} (h : H.Holds i) : ∀ s ∈ H.arena.blocks, s.start ≠ i := by
  rintro s hs rfl
  obtain ⟨t, ht, hlt, hstop⟩ := h
  have := H.arena.eq_of_mem hs ht (Stretch.start_mem (H.arena.pos s hs)) ⟨hlt.le, hstop⟩
  exact absurd hlt (this ▸ lt_irrefl _)

end Holdings

/-! ### The refinement -/

/-- The pool has given out what the callers hold, and the rest is free. -/
structure Represents (p : Variable) (H : Holdings) : Prop where
  units : p.units = H.arena.units
  free : ∃ l, FreeList p l ∧ H.arena.IsFree l
  header : ∀ s ∈ H.arena.blocks, p.buffer s.start = ⟨none, s.size⟩
  /-- Every unit that is held has what was last written to it. -/
  content : ∀ i, H.Holds i → ∀ w, H.content i = some w → p.buffer i = w

theorem new_represents (header blocksize : ℕ) {nrBlocks : ℕ} (h : 0 < nrBlocks) :
    ∃ p, new header nrBlocks blocksize = some p ∧
      p.Represents (.new (nrBlocks * (normalized header blocksize + 1))) := by
  have hpos : 0 < nrBlocks * (normalized header blocksize + 1) := Nat.mul_pos h (Nat.succ_pos _)
  set units := nrBlocks * (normalized header blocksize + 1) with hunits
  set p : Variable := { units, buffer := Function.update (fun _ => ⟨none, 0⟩) 0 ⟨none, units⟩, head := some 0 }
    with hp
  have hbuffer : p.buffer 0 = ⟨none, units⟩ := by
    simp only [hp, Function.update_self]
  have hlist : Stretch.Separated [⟨0, units⟩] := Stretch.separated_singleton hpos
  refine ⟨p, ?_, rfl, ⟨[⟨0, units⟩], ⟨hlist, ?_, rfl, hpos, hbuffer, trivial⟩, hlist, fun i => ?_⟩, ?_, ?_⟩
  · simp only [new, ← hunits, store, if_pos hpos, Option.bind_eq_bind, Option.bind_some, hp]
  · intro s hs
    obtain rfl := List.mem_singleton.mp hs
    simp [Stretch.stop, hp]
  · simp [Holdings.new, Arena.empty, Stretch.mem_iff]
  · intro s hs
    exact absurd hs List.not_mem_nil
  · rintro i ⟨s, hs, -⟩
    exact absurd hs List.not_mem_nil

variable {p : Variable} {H : Holdings}

/-- A unit of a block that is held is not free. -/
theorem Represents.notMem_free {l : List Stretch} (hl : H.arena.IsFree l) {s : Stretch}
    (hs : s ∈ H.arena.blocks) {i : ℕ} (hi : i ∈ s) : i ∉ cover l :=
  fun hil => ((hl.cover i).mp hil).2 ⟨s, hs, hi⟩

theorem Represents.malloc (h : p.Represents H) (header : ℕ) {size : ℕ} (hsize : size ≠ 0) :
    ∃ p', p.malloc header size = some (p', (H.malloc header size).2) ∧
      p'.Represents (H.malloc header size).1 := by
  obtain ⟨l, hl, hfree⟩ := h.free
  have hspec := hl.malloc header hsize
  have hplace := hfree.place (Nat.succ_pos (normalized header size))
  rcases hc : Stretch.carve (normalized header size + 1) l with _ | ⟨a, l'⟩
  · rw [hc] at hspec hplace
    rw [Holdings.malloc_of_none hplace]
    exact ⟨p, hspec, h⟩
  · rw [hc] at hspec hplace
    obtain ⟨p', hp', hl', hunits, hheader, hframe⟩ := hspec
    have hfits := (Arena.place_eq_some_iff.mp hplace).1
    rw [Holdings.malloc_of_some hplace]
    refine ⟨p', hp', hunits.trans h.units, ⟨l', hl', hfree.take (Nat.succ_pos _) hc hfits⟩, fun s hs => ?_,
      fun i hi w hw => ?_⟩
    · rcases List.mem_cons.mp hs with rfl | hs
      · exact hheader
      · rw [hframe _ (Represents.notMem_free hfree hs (Stretch.start_mem (H.arena.pos s hs)))]
        exact h.header s hs
    · simp only [Holdings.give] at hw
      split_ifs at hw with hnew
      obtain ⟨s, hs, hlt, hstop⟩ := hi
      rcases List.mem_cons.mp hs with rfl | hs
      · exact absurd ⟨hlt.le, hstop⟩ hnew
      · rw [hframe _ (Represents.notMem_free hfree hs ⟨hlt.le, hstop⟩)]
        exact h.content i ⟨s, hs, hlt, hstop⟩ w hw

theorem Represents.release (h : p.Represents H) {ptr : ℕ} (hptr : H.Owns ptr) :
    ∃ p', p.free (some ptr) = some p' ∧ p'.Represents ⟨H.arena.release (ptr - 1), H.content⟩ := by
  obtain ⟨b, hb, rfl⟩ := hptr
  obtain ⟨l, hl, hfree⟩ := h.free
  obtain ⟨p', hp', hl', hunits, hframe⟩ := hl.free (H.arena.pos b hb) (h.units ▸ H.arena.inside b hb)
    (h.header b hb) fun i hi => Represents.notMem_free hfree hb hi
  rw [Nat.add_sub_cancel]
  -- what belongs to another block is as it was
  have hkeep : ∀ s ∈ (H.arena.release b.start).blocks, ∀ i ∈ s, p'.buffer i = p.buffer i := by
    intro s hs i hi
    obtain ⟨hs, hne⟩ := Arena.mem_release.mp hs
    refine hframe i ?_ (Represents.notMem_free hfree hs hi)
    rintro rfl
    exact hne (congrArg _ (H.arena.eq_of_mem hs hb hi (Stretch.start_mem (H.arena.pos b hb))))
  refine ⟨p', hp', hunits.trans h.units, ⟨_, hl', hfree.release hb⟩, fun s hs => ?_, ?_⟩
  · rw [hkeep s hs _ (Stretch.start_mem ((H.arena.release b.start).pos s hs))]
    exact h.header s (Arena.mem_release.mp hs).1
  · rintro i ⟨s, hs, hlt, hstop⟩ w hw
    rw [hkeep s hs i ⟨hlt.le, hstop⟩]
    exact h.content i ⟨s, (Arena.mem_release.mp hs).1, hlt, hstop⟩ w hw

theorem Represents.write (h : p.Represents H) {i : ℕ} (hi : H.Holds i) (content : BlockHeader) :
    ∃ p', p.store i content = some p' ∧
      p'.Represents ⟨H.arena, Function.update H.content i (some content)⟩ := by
  obtain ⟨l, hl, hfree⟩ := h.free
  have hnot : i ∉ cover l := by
    obtain ⟨s, hs, hlt, hstop⟩ := hi
    exact Represents.notMem_free hfree hs ⟨hlt.le, hstop⟩
  have hlt : i < p.units := by
    obtain ⟨s, hs, -, hstop⟩ := hi
    exact h.units ▸ lt_of_lt_of_le hstop (H.arena.inside s hs)
  refine ⟨p.withHeader i content, store_eq hlt _, h.units, ⟨l, ⟨hl.separated, hl.inside, hl.head, ?_⟩, hfree⟩,
    fun s hs => ?_, fun j hj w hw => ?_⟩
  · refine hl.chain.withHeader (fun s hs heq => ?_) _
    exact hnot (heq ▸ ⟨s, hs, Stretch.start_mem (hl.separated.pos s hs)⟩)
  · rw [buffer_withHeader_of_ne (Holdings.ne_start hi s hs)]
    exact h.header s hs
  · by_cases hij : j = i
    · subst hij
      simp only [Function.update_self, Option.some.injEq] at hw
      rw [buffer_withHeader, hw]
    · simp only [Function.update_of_ne hij] at hw
      rw [buffer_withHeader_of_ne hij]
      exact h.content j hj w hw

/-- **One call.** The pool answers what the arena answers. -/
theorem Represents.step (h : p.Represents H) {header : ℕ} {call : Call} {H' : Holdings} {ptr : Option ℕ}
    (hstep : H.step header call = some (H', ptr)) :
    ∃ p', p.step header call = some (p', ptr) ∧ p'.Represents H' := by
  cases call with
  | malloc size =>
    rw [Holdings.step] at hstep
    split_ifs at hstep with hsize
    · obtain ⟨rfl, rfl⟩ := Prod.mk.inj (Option.some.inj hstep)
      exact ⟨p, by rw [Variable.step, Variable.malloc, if_pos hsize], h⟩
    · obtain ⟨p', hp', hr⟩ := h.malloc header hsize
      rw [Option.some.inj hstep] at hp' hr
      exact ⟨p', hp', hr⟩
  | free ptr' =>
    rcases ptr' with _ | ptr'
    · obtain ⟨rfl, rfl⟩ := Prod.mk.inj (Option.some.inj hstep)
      exact ⟨p, rfl, h⟩
    · rw [Holdings.step] at hstep
      split_ifs at hstep with howns
      obtain ⟨rfl, rfl⟩ := Prod.mk.inj (Option.some.inj hstep)
      obtain ⟨p', hp', hr⟩ := h.release howns
      exact ⟨p', by rw [Variable.step, hp']; rfl, hr⟩
  | write i content =>
    rw [Holdings.step] at hstep
    split_ifs at hstep with hholds
    obtain ⟨rfl, rfl⟩ := Prod.mk.inj (Option.some.inj hstep)
    obtain ⟨p', hp', hr⟩ := h.write hholds content
    exact ⟨p', by rw [Variable.step, hp']; rfl, hr⟩

/-- A sequence of calls, from any pool that stands for the holdings. -/
theorem Represents.run (header : ℕ) : ∀ (calls : List Call) {p : Variable} {H H' : Holdings}
    {ptrs : List (Option ℕ)}, p.Represents H → H.run header calls = some (H', ptrs) →
      ∃ p', p.run header calls = some (p', ptrs) ∧ p'.Represents H' := by
  intro calls
  induction calls with
  | nil =>
    intro p H H' ptrs h hrun
    obtain ⟨rfl, rfl⟩ := Prod.mk.inj (Option.some.inj hrun)
    exact ⟨p, rfl, h⟩
  | cons call calls ih =>
    intro p H H' ptrs h hrun
    obtain ⟨H₁, ptr, ptrs₂, hstep, hrest, rfl⟩ := Holdings.run_cons hrun
    obtain ⟨p₁, hp₁, h₁⟩ := h.step hstep
    obtain ⟨p₂, hp₂, h₂⟩ := ih h₁ hrest
    exact ⟨p₂, by simp [Variable.run, hp₁, hp₂], h₂⟩

/-- **The pool refines an arena.** Every sequence of calls that frees only what is held and writes only to
what is held runs without an access outside the buffer and without an endless walk; each `malloc` returns
the lowest place where its units fit, or null if they fit nowhere; and at the end every block still has
its header and what was written to it. -/
theorem run_represents (header blocksize : ℕ) {nrBlocks : ℕ} (h : 0 < nrBlocks) (calls : List Call)
    {H : Holdings} {ptrs : List (Option ℕ)}
    (hrun : (Holdings.new (nrBlocks * (normalized header blocksize + 1))).run header calls = some (H, ptrs)) :
    ∃ p p', new header nrBlocks blocksize = some p ∧ p.run header calls = some (p', ptrs) ∧ p'.Represents H := by
  obtain ⟨p, hp, hr⟩ := new_represents header blocksize h
  obtain ⟨p', hp', hr'⟩ := Represents.run header calls hr hrun
  exact ⟨p, p', hp, hp', hr'⟩

/-- Two blocks are given out. -/
theorem Holdings.exists_malloc_two (size : ℕ) (h : 3 + (normalized 16 size + 1) ≤ 6) :
    ∃ H₁ H₂, (Holdings.new 6).malloc 16 32 = (H₁, some 1) ∧ H₁.malloc 16 size = (H₂, some 4) ∧
      H₂.arena.blocks = [⟨3, normalized 16 size + 1⟩, ⟨0, 3⟩] := by
  have hplace₁ : (Holdings.new 6).arena.place (normalized 16 32 + 1) = some 0 := Arena.place_empty (by decide)
  set H₁ := (Holdings.new 6).give 16 32 0 (Arena.place_eq_some_iff.mp hplace₁).1 with hH₁
  have hplace₂ : H₁.arena.place (normalized 16 size + 1) = some 3 :=
    Arena.place_behind (show H₁.arena.blocks = [⟨0, 3⟩] from rfl) (Nat.succ_pos _) h
  exact ⟨H₁, _, Holdings.malloc_of_some hplace₁, Holdings.malloc_of_some hplace₂, rfl⟩

/-- The upper one is written to, and the lower one is given back. -/
theorem Holdings.exists_run :
    ∃ H, (Holdings.new 6).run 16 [.malloc 32, .malloc 8, .write 4 ⟨none, 7⟩, .free (some 1)] =
      some (H, [some 1, some 4, none, none]) ∧ H.arena.blocks = [⟨3, 2⟩] ∧ H.content 4 = some ⟨none, 7⟩ := by
  obtain ⟨H₁, H₂, hmalloc₁, hmalloc₂, hblocks⟩ := Holdings.exists_malloc_two 8 (by decide)
  have hholds : H₂.Holds 4 := ⟨⟨3, 2⟩, hblocks ▸ List.mem_cons_self, by decide⟩
  have howns : ∀ content, Holdings.Owns ⟨H₂.arena, content⟩ 1 := fun _ =>
    ⟨⟨0, 3⟩, hblocks ▸ List.mem_cons_of_mem _ List.mem_cons_self, rfl⟩
  refine ⟨⟨H₂.arena.release 0, Function.update H₂.content 4 (some ⟨none, 7⟩)⟩, ?_, ?_, ?_⟩
  · simp [Holdings.run, Holdings.step, hmalloc₁, hmalloc₂, hholds, howns]
  · change H₂.arena.blocks.filter _ = _
    rw [hblocks]
    rfl
  · exact Function.update_self 4 _ H₂.content

theorem run_represents_round :
    ∃ p p' H, new 16 2 32 = some p ∧
      p.run 16 [.malloc 32, .malloc 8, .write 4 ⟨none, 7⟩, .free (some 1)] =
        some (p', [some 1, some 4, none, none]) ∧
      p'.Represents H ∧ H.arena.blocks = [⟨3, 2⟩] ∧ H.content 4 = some ⟨none, 7⟩ := by
  obtain ⟨H, hrun, hblocks, hcontent⟩ := Holdings.exists_run
  obtain ⟨p, p', hp, hp', hr⟩ := run_represents 16 32 (show 0 < 2 by decide) _ hrun
  exact ⟨p, p', H, hp, hp', hr, hblocks, hcontent⟩

/-- The pool after calls that the callers may make, and what they hold then. -/
def Reached (header nrBlocks blocksize : ℕ) (calls : List Call) (p : Variable) (H : Holdings) : Prop :=
  ∃ p₀ ptrs, new header nrBlocks blocksize = some p₀ ∧
    (Holdings.new p₀.units).run header calls = some (H, ptrs) ∧ p₀.run header calls = some (p, ptrs)

variable {header nrBlocks blocksize : ℕ} {calls : List Call}

theorem units_of_new {p₀ : Variable} (h : new header nrBlocks blocksize = some p₀) :
    0 < nrBlocks ∧ p₀.units = nrBlocks * (normalized header blocksize + 1) := by
  rcases Nat.eq_zero_or_pos nrBlocks with rfl | hpos
  · simp [new, store] at h
  · obtain ⟨p, hp, hr⟩ := new_represents header blocksize hpos
    obtain rfl : p = p₀ := Option.some.inj (hp.symm.trans h)
    exact ⟨hpos, hr.units⟩

theorem Reached.represents (h : Reached header nrBlocks blocksize calls p H) : p.Represents H := by
  obtain ⟨p₀, ptrs, hnew, hH, hp⟩ := h
  obtain ⟨hpos, hunits⟩ := units_of_new hnew
  rw [hunits] at hH
  obtain ⟨p₁, p', hnew', hp', hr⟩ := run_represents header blocksize hpos calls hH
  obtain rfl : p₁ = p₀ := Option.some.inj (hnew'.symm.trans hnew)
  obtain ⟨rfl, -⟩ := Prod.mk.inj (Option.some.inj (hp'.symm.trans hp))
  exact hr

theorem Reached.units (h : Reached header nrBlocks blocksize calls p H) :
    H.arena.units = nrBlocks * (normalized header blocksize + 1) := by
  obtain ⟨p₀, ptrs, hnew, hH, -⟩ := h
  obtain ⟨-, hunits⟩ := units_of_new hnew
  rw [← hunits]
  exact Holdings.run_invariant (P := fun H => H.arena.units = p₀.units) calls
    (fun _ _ _ _ _ h hstep => (Holdings.units_step hstep).trans h) rfl hH

theorem Reached.of_run {H : Holdings} {ptrs : List (Option ℕ)}
    (hrun : (Holdings.new 6).run 16 calls = some (H, ptrs)) : ∃ p, Reached 16 2 32 calls p H := by
  obtain ⟨p, hp, hr⟩ := new_represents 16 32 (show 0 < 2 by decide)
  obtain ⟨p', hp', -⟩ := Represents.run 16 _ hr hrun
  exact ⟨p', p, _, hp, hr.units ▸ hrun, hp'⟩

theorem exists_reached :
    ∃ p H, Reached 16 2 32 [.malloc 32, .malloc 8, .write 4 ⟨none, 7⟩, .free (some 1)] p H ∧
      H.arena.blocks = [⟨3, 2⟩] := by
  obtain ⟨H, hrun, hblocks, -⟩ := Holdings.exists_run
  obtain ⟨p, h⟩ := Reached.of_run hrun
  exact ⟨p, H, h, hblocks⟩

theorem exists_reached_unwritten :
    ∃ p H, Reached 16 2 32 [.malloc 32, .malloc 8, .free (some 1)] p H ∧ H.arena.blocks = [⟨3, 2⟩] := by
  obtain ⟨H₁, H₂, hmalloc₁, hmalloc₂, hblocks⟩ := Holdings.exists_malloc_two 8 (by decide)
  have howns : H₂.Owns 1 := ⟨⟨0, 3⟩, hblocks ▸ List.mem_cons_of_mem _ List.mem_cons_self, rfl⟩
  have hrun : (Holdings.new 6).run 16 [.malloc 32, .malloc 8, .free (some 1)] =
      some (⟨H₂.arena.release 0, H₂.content⟩, [some 1, some 4, none]) := by
    simp [Holdings.run, Holdings.step, hmalloc₁, hmalloc₂, howns]
  obtain ⟨p, h⟩ := Reached.of_run hrun
  refine ⟨p, _, h, ?_⟩
  change H₂.arena.blocks.filter _ = _
  rw [hblocks]
  rfl

/-- As many blocks are in use as the pool was made for. -/
theorem exists_reached_full :
    ∃ p H, Reached 16 2 32 [.malloc 32, .malloc 32] p H ∧ H.arena.blocks = [⟨3, 3⟩, ⟨0, 3⟩] := by
  obtain ⟨H₁, H₂, hmalloc₁, hmalloc₂, hblocks⟩ := Holdings.exists_malloc_two 32 (by decide)
  have hrun : (Holdings.new 6).run 16 [.malloc 32, .malloc 32] = some (H₂, [some 1, some 4]) := by
    simp [Holdings.run, Holdings.step, hmalloc₁, hmalloc₂]
  obtain ⟨p, h⟩ := Reached.of_run hrun
  exact ⟨p, H₂, h, hblocks⟩

/-! ### How much can be asked for -/

/-- A number of bytes fits into `m` units. -/
theorem normalized_le_iff (hheader : 0 < header) {size m : ℕ} :
    normalized header size ≤ m ↔ size ≤ m * header := by
  have hdiv := Nat.div_add_mod size header
  have hmod := Nat.mod_lt size hheader
  rw [Nat.mul_comm] at hdiv
  rw [normalized]
  split_ifs with hzero
  · rw [Nat.add_zero, Nat.div_le_iff_le_mul_add_pred hheader, Nat.mul_comm header]
    constructor
    · intro h
      by_contra hlt
      have hm : m < size / header := by
        by_contra hle
        have := Nat.mul_le_mul_right header (Nat.not_lt.mp hle)
        omega
      have := Nat.mul_le_mul_right header hm
      rw [Nat.succ_mul] at this
      omega
    · omega
  · constructor
    · intro h
      have := Nat.mul_le_mul_right header h
      rw [Nat.add_mul, Nat.one_mul] at this
      omega
    · intro h
      by_contra hlt
      have := Nat.mul_le_mul_right header (Nat.lt_succ_iff.mp (Nat.not_le.mp hlt))
      omega

/-- The largest of some numbers, each one less. -/
theorem le_foldl_iff {k : ℕ} (hk : 0 < k) (sizes : List ℕ) (acc : ℕ) :
    k ≤ sizes.foldl (fun acc size => if acc < size - 1 then size - 1 else acc) acc ↔
      k ≤ acc ∨ ∃ size ∈ sizes, k < size := by
  induction sizes generalizing acc with
  | nil => simp
  | cons size sizes ih =>
    rw [List.foldl_cons, ih]
    simp only [List.mem_cons, exists_eq_or_imp, ← or_assoc]
    refine or_congr ?_ Iff.rfl
    split_ifs <;> omega

/-- **A request fails exactly when it is for nothing or for more than `maxBlockSize`**, and then the pool
stays as it is. -/
theorem malloc_eq_none_iff (hheader : 0 < header) (h : Reached header nrBlocks blocksize calls p H)
    (size : ℕ) :
    ∃ n, p.maxBlockSize header = some n ∧
      (p.malloc header size = some (p, none) ↔ size = 0 ∨ n < size) ∧
      ((∃ p' ptr, p.malloc header size = some (p', some ptr)) ↔ size ≠ 0 ∧ size ≤ n) := by
  obtain ⟨l, hl, -⟩ := h.represents.free
  refine ⟨_, by rw [maxBlockSize, hl.walk]; rfl, ?_⟩
  generalize hm : (l.map Stretch.size).foldl _ 0 = m
  by_cases hsize : size = 0
  · subst hsize
    have hnone : p.malloc header 0 = some (p, none) := if_pos rfl
    simp [hnone]
  have hpos : 0 < normalized header size := by
    by_contra hzero
    have := (normalized_le_iff hheader).mp (show normalized header size ≤ 0 by omega)
    omega
  have hfits : (∃ s ∈ l, normalized header size < s.size) ↔ size ≤ m * header := by
    rw [← normalized_le_iff hheader, ← hm, le_foldl_iff hpos]
    simp [show ¬ normalized header size ≤ 0 by omega]
  have hspec := hl.malloc header hsize
  rcases hc : Stretch.carve (normalized header size + 1) l with _ | ⟨a, l'⟩
  · rw [hc] at hspec
    have hlarge : ¬ size ≤ m * header := by
      rw [← hfits]
      rintro ⟨s, hs, hlt⟩
      have := Stretch.carve_eq_none_iff.mp hc s hs
      omega
    simp [hspec, hsize, hlarge, Nat.not_le.mp hlarge]
  · rw [hc] at hspec
    obtain ⟨p', hp', -⟩ := hspec
    have hroom : size ≤ m * header := by
      rw [← hfits]
      by_contra hnone
      have hnone' : Stretch.carve (normalized header size + 1) l = none :=
        Stretch.carve_eq_none_iff.mpr fun s hs => by
          by_contra hlt
          exact hnone ⟨s, hs, by omega⟩
      rw [hc] at hnone'
      cases hnone'
    simp [hp', hsize, hroom, Nat.not_lt.mpr hroom]

theorem malloc_eq_none_iff_round :
    ∃ (p : Variable) (n : ℕ), p.maxBlockSize 16 = some n ∧
      (p.malloc 16 100 = some (p, none) ↔ 100 = 0 ∨ n < 100) := by
  obtain ⟨p, H, h, -⟩ := exists_reached
  obtain ⟨n, hn, hiff, -⟩ := malloc_eq_none_iff (by decide) h 100
  exact ⟨p, n, hn, hiff⟩

/-- **What `freeMemory` counts.** With the units in use and a header for each gap between them it makes up
the buffer, and there is at most one gap more than blocks in use. -/
theorem freeMemory_eq (h : Reached header nrBlocks blocksize calls p H) :
    ∃ n gaps, p.freeMemory header = some n ∧ H.arena.IsFree gaps ∧ gaps.length ≤ H.arena.blocks.length + 1 ∧
      n + ((H.arena.blocks.map Stretch.size).sum + gaps.length) * header =
        nrBlocks * (normalized header blocksize + 1) * header := by
  obtain ⟨l, hl, hfree⟩ := h.represents.free
  have hunits := h.units
  refine ⟨_, l, by rw [freeMemory, hl.walk]; rfl, hfree, hfree.length_le, ?_⟩
  have hsum : ∀ (l : List Stretch) (acc : ℕ), (∀ s ∈ l, 0 < s.size) →
      (l.map Stretch.size).foldl (fun acc size => acc + (size - 1)) acc + l.length =
        acc + (l.map Stretch.size).sum := by
    intro l
    induction l with
    | nil => simp
    | cons s l ih =>
      intro acc hpos
      have hs := hpos s List.mem_cons_self
      have := ih (acc + (s.size - 1)) fun t ht => hpos t (List.mem_cons_of_mem s ht)
      simp only [List.map_cons, List.foldl_cons, List.length_cons, List.sum_cons]
      omega
  have hl' := hsum l 0 hl.separated.pos
  have hall := hfree.sum_sizes
  rw [← hunits, ← hall, ← Nat.add_mul]
  congr 1
  omega

theorem freeMemory_eq_round :
    ∃ (p : Variable) (H : Holdings) (n : ℕ) (gaps : List Stretch), p.freeMemory 16 = some n ∧
      H.arena.blocks = [⟨3, 2⟩] ∧ H.arena.IsFree gaps ∧ gaps.length ≤ 2 ∧ n + (2 + gaps.length) * 16 = 96 := by
  obtain ⟨p, H, h, hblocks⟩ := exists_reached
  obtain ⟨n, gaps, hn, hfree, hgaps, hsum⟩ := freeMemory_eq h
  rw [hblocks] at hgaps hsum
  exact ⟨p, H, n, gaps, hn, hblocks, hfree, hgaps, hsum⟩

/-! ### Requests of the size the pool was made for -/

/-- **No fragmentation with one size.** While every request is for the size that the pool was made for, up
to rounding, `malloc` fails exactly when as many blocks are in use as it was made for. -/
theorem malloc_uniform (h : Reached header nrBlocks blocksize calls p H)
    (hcalls : ∀ size, Call.malloc size ∈ calls → normalized header size = normalized header blocksize)
    {size : ℕ} (hsize : size ≠ 0) (hnorm : normalized header size = normalized header blocksize) :
    H.arena.blocks.length ≤ nrBlocks ∧
      (p.malloc header size = some (p, none) ↔ H.arena.blocks.length = nrBlocks) := by
  have hunits := h.units
  have hpos : 0 < normalized header blocksize + 1 := Nat.succ_pos _
  have huniform : H.arena.Uniform (normalized header blocksize + 1) := by
    obtain ⟨p₀, ptrs, hnew, hH, -⟩ := h
    refine Holdings.run_invariant (P := fun H => H.arena.Uniform (normalized header blocksize + 1)) calls
      (fun call hcall H H' ptr hu hstep => ?_) (fun s hs => absurd hs List.not_mem_nil) hH
    rcases Holdings.step_cases hstep with heq | ⟨size, a, rfl, hplace, hfits, heq⟩ | ⟨s, -, heq⟩
    · rwa [heq]
    · have hs := hcalls size hcall
      simp only [hs] at hplace hfits heq
      rw [heq]
      exact hu.take hpos hplace hfits
    · rw [heq]
      exact fun t ht => hu t (Arena.mem_release.mp ht).1
  refine ⟨huniform.length_le hpos hunits, ?_⟩
  rw [← huniform.place hpos hunits, ← hnorm]
  obtain ⟨p', hp', -⟩ := h.represents.malloc header hsize
  rcases hplace : H.arena.place (normalized header size + 1) with _ | a
  · obtain ⟨l, hl, hfree⟩ := h.represents.free
    have hspec := hl.malloc header hsize
    rw [hfree.place (Nat.succ_pos _), Option.map_eq_none_iff] at hplace
    rw [hplace] at hspec
    simp [hspec]
  · rw [Holdings.malloc_of_some hplace] at hp'
    simp [hp']

theorem malloc_uniform_round :
    ∃ p H, Reached 16 2 32 [.malloc 32, .malloc 32] p H ∧ H.arena.blocks.length = 2 ∧
      p.malloc 16 32 = some (p, none) := by
  obtain ⟨p, H, h, hblocks⟩ := exists_reached_full
  have hcalls : ∀ size, Call.malloc size ∈ [Call.malloc 32, .malloc 32] →
      normalized 16 size = normalized 16 32 := by
    intro size hmem
    obtain rfl : size = 32 := by simpa using hmem
    rfl
  obtain ⟨-, hiff⟩ := malloc_uniform h hcalls (show 32 ≠ 0 by decide) rfl
  have hfull : H.arena.blocks.length = 2 := by
    rw [hblocks]
    rfl
  exact ⟨p, H, h, hfull, hiff.mpr hfull⟩

/-- With requests of different sizes a place can be missing though fewer blocks are in use. -/
example :
    ((new 16 2 32).bind fun p => p.run 16 [.malloc 8, .malloc 8, .free (some 1), .malloc 32]).map Prod.snd =
      some [some 1, some 3, none, none] := by
  decide

/-! ### The history does not matter -/

/-- Two pools with the same blocks in use. -/
def Holdings.Same (H H' : Holdings) : Prop :=
  H.arena.units = H'.arena.units ∧ ∀ s, s ∈ H.arena.blocks ↔ s ∈ H'.arena.blocks

theorem Holdings.Same.cover {H H' : Holdings} (h : H.Same H') (i : ℕ) :
    i ∈ cover H.arena.blocks ↔ i ∈ cover H'.arena.blocks := by
  simp only [Stretch.mem_cover, h.2]

/-- A call that may be made with some blocks in use has one result, whatever else happened. -/
theorem Holdings.Same.step {H₁ H₂ H₁' : Holdings} (h : H₁.Same H₂) {call : Call} {ptr : Option ℕ}
    (hstep : H₁.step header call = some (H₁', ptr)) :
    ∃ H₂', H₂.step header call = some (H₂', ptr) ∧ H₁'.Same H₂' := by
  cases call with
  | malloc size =>
    rw [Holdings.step] at hstep ⊢
    split_ifs at hstep ⊢ with hsize
    · obtain ⟨rfl, rfl⟩ := Prod.mk.inj (Option.some.inj hstep)
      exact ⟨H₂, rfl, h⟩
    · have hplace := Arena.place_congr h.1 h.cover (normalized header size + 1)
      rcases hp : H₁.arena.place (normalized header size + 1) with _ | a
      · rw [Holdings.malloc_of_none hp] at hstep
        obtain ⟨rfl, rfl⟩ := Prod.mk.inj (Option.some.inj hstep)
        exact ⟨H₂, by rw [Holdings.malloc_of_none (hplace.symm.trans hp)], h⟩
      · rw [Holdings.malloc_of_some hp] at hstep
        obtain ⟨rfl, rfl⟩ := Prod.mk.inj (Option.some.inj hstep)
        have hp₂ := hplace.symm.trans hp
        refine ⟨H₂.give header size a (Arena.place_eq_some_iff.mp hp₂).1,
          by rw [Holdings.malloc_of_some hp₂], h.1, fun s => ?_⟩
        simp only [Holdings.give, Arena.take, List.mem_cons, h.2]
  | free ptr' =>
    rcases ptr' with _ | ptr'
    · obtain ⟨rfl, rfl⟩ := Prod.mk.inj (Option.some.inj hstep)
      exact ⟨H₂, rfl, h⟩
    · rw [Holdings.step] at hstep ⊢
      have howns : H₁.Owns ptr' ↔ H₂.Owns ptr' := by simp only [Holdings.Owns, h.2]
      split_ifs at hstep with hown
      obtain ⟨rfl, rfl⟩ := Prod.mk.inj (Option.some.inj hstep)
      refine ⟨⟨H₂.arena.release (ptr' - 1), H₂.content⟩, if_pos (howns.mp hown), h.1, fun s => ?_⟩
      simp only [Arena.mem_release, h.2]
  | write i content =>
    rw [Holdings.step] at hstep ⊢
    have hholds : H₁.Holds i ↔ H₂.Holds i := by simp only [Holdings.Holds, h.2]
    split_ifs at hstep with hhold
    obtain ⟨rfl, rfl⟩ := Prod.mk.inj (Option.some.inj hstep)
    exact ⟨⟨H₂.arena, Function.update H₂.content i (some content)⟩, if_pos (hholds.mp hhold), h⟩

theorem Holdings.Same.run : ∀ (calls : List Call) {H₁ H₂ H₁' : Holdings} {ptrs : List (Option ℕ)},
    H₁.Same H₂ → H₁.run header calls = some (H₁', ptrs) →
      ∃ H₂', H₂.run header calls = some (H₂', ptrs) ∧ H₁'.Same H₂' := by
  intro calls
  induction calls with
  | nil =>
    intro H₁ H₂ H₁' ptrs h hrun
    obtain ⟨rfl, rfl⟩ := Prod.mk.inj (Option.some.inj hrun)
    exact ⟨H₂, rfl, h⟩
  | cons call calls ih =>
    intro H₁ H₂ H₁' ptrs h hrun
    obtain ⟨H, ptr, ptrs', hstep, hrest, rfl⟩ := Holdings.run_cons hrun
    obtain ⟨H', hstep', h'⟩ := h.step hstep
    obtain ⟨H₂', hrest', h₂⟩ := ih h' hrest
    exact ⟨H₂', by simp [Holdings.run, hstep', hrest'], h₂⟩

/-- **The pool has no memory of its past.** After two sequences of calls that leave the same blocks in use
the free blocks are the same, so the same later calls return the same pointers and the same numbers.  A
pool that got everything back is as good as new. -/
theorem run_congr {calls₁ calls₂ : List Call} {p₁ p₂ : Variable} {H₁ H₂ : Holdings}
    (h₁ : Reached header nrBlocks blocksize calls₁ p₁ H₁) (h₂ : Reached header nrBlocks blocksize calls₂ p₂ H₂)
    (hblocks : ∀ s, s ∈ H₁.arena.blocks ↔ s ∈ H₂.arena.blocks) :
    (∃ l, FreeList p₁ l ∧ FreeList p₂ l) ∧
      ∀ later H ptrs, H₁.run header later = some (H, ptrs) →
        ∃ p₁' p₂', p₁.run header later = some (p₁', ptrs) ∧ p₂.run header later = some (p₂', ptrs) ∧
          p₁'.freeMemory header = p₂'.freeMemory header ∧ p₁'.maxBlockSize header = p₂'.maxBlockSize header := by
  have hfree : ∀ {p₁ p₂ : Variable} {H₁ H₂ : Holdings}, p₁.Represents H₁ → p₂.Represents H₂ → H₁.Same H₂ →
      ∃ l, FreeList p₁ l ∧ FreeList p₂ l := by
    intro p₁ p₂ H₁ H₂ h₁ h₂ hsame
    obtain ⟨l, hl, hf⟩ := h₁.free
    obtain ⟨l', hl', hf'⟩ := h₂.free
    have heq := hl.eq_of_cover_eq hl' fun i => by rw [hf.cover, hf'.cover, hsame.1, hsame.cover]
    exact ⟨l, hl, heq ▸ hl'⟩
  have hsame : H₁.Same H₂ := ⟨h₁.units.trans h₂.units.symm, hblocks⟩
  refine ⟨hfree h₁.represents h₂.represents hsame, fun later H ptrs hrun => ?_⟩
  obtain ⟨H', hrun', hsame'⟩ := hsame.run later hrun
  obtain ⟨p₁', hp₁, hr₁⟩ := Represents.run header later h₁.represents hrun
  obtain ⟨p₂', hp₂, hr₂⟩ := Represents.run header later h₂.represents hrun'
  obtain ⟨l, hl₁, hl₂⟩ := hfree hr₁ hr₂ hsame'
  refine ⟨p₁', p₂', hp₁, hp₂, ?_, ?_⟩
  · rw [freeMemory, freeMemory, hl₁.walk, hl₂.walk]
  · rw [maxBlockSize, maxBlockSize, hl₁.walk, hl₂.walk]

theorem run_congr_round :
    ∃ p₁ p₂ : Variable, (∃ l, FreeList p₁ l ∧ FreeList p₂ l) := by
  obtain ⟨p₁, H₁, h₁, hblocks₁⟩ := exists_reached
  obtain ⟨p₂, H₂, h₂, hblocks₂⟩ := exists_reached_unwritten
  exact ⟨p₁, p₂, (run_congr h₁ h₂ fun s => by rw [hblocks₁, hblocks₂]).1⟩

end Variable

end MemoryPool

end EspMqttClient
