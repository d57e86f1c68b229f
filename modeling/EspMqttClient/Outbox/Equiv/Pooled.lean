/-
  The pooled `Outbox` refines a sequence with a cursor that has room for a number of items.

  The nodes in the queue and the stack of the pool share out the blocks (`Represents`): no block is lost
  and none is in both.  So an insertion fails exactly when the queue has as many items as the pool has
  blocks, and apart from that the queue is the one without a pool (`run_bounded`); when it is destroyed
  every block is back (`destroy_eq`).
-/
import EspMqttClient.Outbox.Pooled
import EspMqttClient.Outbox.Equiv.Refinement
import EspMqttClient.MemoryPool.Equiv.Fixed

namespace EspMqttClient

open MemoryPool (Fixed)
open MemoryPool.Fixed (Blocks FreeStack)

variable {T : Type}

/-! ### The sequence with room for a number of items -/

/-- An operation whose insertion succeeds if there is room. -/
def Op.bounded (room : Bool) : Op T → Op T
  | .emplace slot x _ => .emplace slot x room
  | .emplaceFront slot x _ => .emplaceFront slot x room
  | op => op

/-- A sequence of operations with room for `n` items. -/
def ListSession.runBounded (n : ℕ) (s : ListSession T) : List (Op T) → ListSession T × List (Obs T)
  | [] => (s, [])
  | op :: ops =>
    let (s, seen) := s.step (op.bounded (decide (s.outbox.items.length < n)))
    let (s, rest) := s.runBounded n ops
    (s, seen :: rest)

/-! ### The operations that do not touch the heap -/

/-- An operation that neither inserts nor removes. -/
def Op.Still : Op T → Prop
  | .emplace .. | .emplaceFront .. | .removeCurrent | .remove _ => False
  | _ => True

theorem Outbox.heap_next {o o' : Outbox T} (h : o.next = some o') : o'.heap = o.heap := by
  rw [Outbox.next] at h
  rcases hc : o.current with _ | a
  · rw [hc] at h
    exact (Option.some.inj h) ▸ rfl
  · rw [hc] at h
    simp only [Option.bind_eq_bind, Option.bind_eq_some_iff] at h
    obtain ⟨n, -, h⟩ := h
    exact (Option.some.inj h) ▸ rfl

theorem Session.heap_step {al : Allocator T} {time : ℕ} {s s' : Session T} {op : Op T} {seen : Obs T}
    (hop : op.Still) (h : s.step al time op = some (s', seen)) : s'.outbox.heap = s.outbox.heap := by
  cases op with
  | emplace | emplaceFront | removeCurrent | remove => exact hop.elim
  | next =>
    simp only [Session.step, Option.bind_eq_bind, Option.bind_eq_some_iff] at h
    obtain ⟨o', ho', h⟩ := h
    rw [← (Prod.mk.inj (Option.some.inj h)).1]
    exact Outbox.heap_next ho'
  | resetCurrent | front | empty =>
    obtain ⟨rfl, -⟩ := Prod.mk.inj (Option.some.inj h)
    rfl
  | getCurrent | size =>
    simp only [Session.step, Option.bind_eq_bind, Option.bind_eq_some_iff] at h
    obtain ⟨x, -, h⟩ := h
    rw [← (Prod.mk.inj (Option.some.inj h)).1]
  | advance slot | get slot =>
    rw [Session.step] at h
    rcases hs : s.iterators slot with _ | it
    · rw [hs] at h
      rw [← (Prod.mk.inj (Option.some.inj h)).1]
    · rw [hs] at h
      simp only [Option.bind_eq_bind, Option.bind_eq_some_iff] at h
      obtain ⟨x, -, h⟩ := h
      rw [← (Prod.mk.inj (Option.some.inj h)).1]

/-- A node is allocated exactly at the addresses of the queue. -/
theorem Outbox.Represents.mem_addrs_iff {o : Outbox T} {l : CursorList T} {addrs : List Addr}
    (h : o.Represents l addrs) {a : Addr} : a ∈ addrs ↔ o.heap a ≠ none := by
  refine ⟨fun hmem => ?_, h.allocated a⟩
  obtain ⟨i, hi⟩ := List.mem_iff_getElem?.mp hmem
  obtain ⟨x, -, hn⟩ := h.node i a hi
  rw [hn]
  exact Option.some_ne_none _

/-- Queues on one heap have the same addresses. -/
theorem Outbox.Represents.perm {o o' : Outbox T} {l l' : CursorList T} {addrs addrs' : List Addr}
    (h : o.Represents l addrs) (h' : o'.Represents l' addrs') (hheap : o'.heap = o.heap) :
    addrs'.Perm addrs :=
  (List.perm_ext_iff_of_nodup h'.nodup h.nodup).mpr fun a => by
    rw [h.mem_addrs_iff, h'.mem_addrs_iff, hheap]

namespace PooledSession

variable {B : Blocks} {s : PooledSession T} {ls : ListSession T} {addrs stack : List Addr}

/-- The nodes of the queue and the stack of the pool are all the blocks, each of them once. -/
structure Represents (B : Blocks) (s : PooledSession T) (ls : ListSession T) (addrs stack : List Addr) :
    Prop where
  session : s.session.Represents ls addrs
  memPool : FreeStack B s.memPool stack
  blocks : (addrs ++ stack).Perm B.starts

theorem Represents.notMem_stack (h : s.Represents B ls addrs stack) {a : Addr} (ha : a ∈ addrs) :
    a ∉ stack := by
  have hnodup := h.blocks.nodup_iff.mpr B.nodup_starts
  exact fun hs => (List.nodup_append.mp hnodup).2.2 a ha a hs rfl

theorem Represents.mem_starts (h : s.Represents B ls addrs stack) {a : Addr} (ha : a ∈ addrs) :
    a ∈ B.starts := h.blocks.mem_iff.mp (List.mem_append_left _ ha)

theorem Represents.length (h : s.Represents B ls addrs stack) :
    ls.outbox.items.length + stack.length = B.nrBlocks := by
  have hlen := h.blocks.length_eq
  rw [List.length_append, B.length_starts, h.session.outbox.length] at hlen
  exact hlen

/-- Writing to the nodes leaves the stack as it is. -/
theorem Represents.overwrite (h : s.Represents B ls addrs stack) (bytes : Addr → Option ℕ) :
    FreeStack B (PooledSession.overwrite bytes s.session.outbox.heap s.memPool) stack := by
  refine h.memPool.congr fun b hb => if_neg fun hsome => ?_
  have hne : s.session.outbox.heap b ≠ none := Option.isSome_iff_ne_none.mp hsome
  exact h.notMem_stack (h.session.outbox.mem_addrs_iff.mpr hne) hb

/-- Taking a node out of the queue puts its block on the stack. -/
theorem Represents.removeNode (h : s.Represents B ls addrs stack) {p : Fixed} (hp : FreeStack B p stack)
    {i : ℕ} {a : Addr} {prev : Option Addr} (hi : addrs[i]? = some a) (hprev : i = 0 ∨ prev = addrs[i - 1]?) :
    ∃ o' p', PooledSession.removeNode B.word s.session.outbox p prev (some a) = some (o', p') ∧
      o'.Represents (ls.outbox.remove i) (addrs.eraseIdx i) ∧ FreeStack B p' (a :: stack) ∧
      (addrs.eraseIdx i ++ a :: stack).Perm B.starts := by
  have hmem : a ∈ addrs := List.mem_of_getElem? hi
  obtain ⟨o', ho', hr⟩ := h.session.outbox.removeNode hi hprev
  obtain ⟨p', hp', hstack⟩ := hp.free (h.mem_starts hmem) (h.notMem_stack hmem)
  refine ⟨o', p', by simp [PooledSession.removeNode, ho', hp'], hr, hstack, ?_⟩
  obtain ⟨hlt, rfl⟩ := List.getElem?_eq_some_iff.mp hi
  refine (List.perm_middle.trans ?_).trans h.blocks
  exact (List.getElem_cons_eraseIdx_perm hlt).append_right stack

section Step

variable (h : s.Represents B ls addrs stack) (al : Allocator T) (bytes : ℕ → Addr → Option ℕ) (time : ℕ)
include h

/-- The pool hands out the top of the stack, which no node of the queue is at. -/
theorem Represents.heap_top {b : Addr} {rest : List Addr} (hstack : stack = b :: rest) :
    s.session.outbox.heap b = none := by
  by_contra hne
  exact h.notMem_stack (h.session.outbox.mem_addrs_iff.mpr hne) (hstack ▸ List.mem_cons_self)

/-- There is room exactly when the stack is not empty. -/
theorem Represents.room : decide (ls.outbox.items.length < B.nrBlocks) = !stack.isEmpty := by
  have hlen := h.length
  rcases stack with _ | ⟨b, rest⟩
  · simp only [List.length_nil, Nat.add_zero] at hlen
    simp [hlen]
  · simp only [List.length_cons] at hlen
    simp only [List.isEmpty_cons, Bool.not_false, decide_eq_true_eq]
    omega

theorem Represents.step_emplace (slot : ℕ) (x : T) (ok : Bool) :
    ∃ s' addrs' stack', s.step al B.word bytes time (.emplace slot x ok) =
        some (s', (ls.step (.emplace slot x !stack.isEmpty)).2) ∧
      s'.Represents B (ls.step (.emplace slot x !stack.isEmpty)).1 addrs' stack' := by
  have hnull : ({} : Outbox.Iterator).Represents none addrs := rfl
  obtain ⟨p', hp', hstack⟩ := (h.overwrite (bytes time)).malloc
  rcases hs : stack with _ | ⟨b, rest⟩
  · subst hs
    refine ⟨⟨⟨s.session.outbox, Function.update s.session.iterators slot (some {})⟩, p'⟩, addrs, [], ?_,
      ⟨h.session.outbox, Session.rel_update h.session.iterators hnull slot⟩, hstack, h.blocks⟩
    simp [PooledSession.step, hp', Outbox.emplace, ListSession.step]
  · obtain ⟨o', it, ho', hr, hit⟩ := h.session.outbox.emplace (h.heap_top hs) x
    subst hs
    refine ⟨⟨⟨o', Function.update s.session.iterators slot (some it)⟩, p'⟩, addrs ++ [b], rest, ?_,
      ⟨hr, Session.rel_update (fun slot' => Session.rel_append (h.session.iterators slot') b) hit slot⟩,
      hstack, by simpa using h.blocks⟩
    obtain ⟨hlt, hnode, -⟩ := hit
    rw [List.getElem?_eq_getElem hlt] at hnode
    simp [PooledSession.step, hp', ho', hnode, ListSession.step]

theorem Represents.step_emplaceFront (slot : ℕ) (x : T) (ok : Bool) :
    ∃ s' addrs' stack', s.step al B.word bytes time (.emplaceFront slot x ok) =
        some (s', (ls.step (.emplaceFront slot x !stack.isEmpty)).2) ∧
      s'.Represents B (ls.step (.emplaceFront slot x !stack.isEmpty)).1 addrs' stack' := by
  have hnull : ({} : Outbox.Iterator).Represents none addrs := rfl
  obtain ⟨p', hp', hstack⟩ := (h.overwrite (bytes time)).malloc
  rcases hs : stack with _ | ⟨b, rest⟩
  · subst hs
    refine ⟨⟨⟨s.session.outbox, Function.update (fun _ => none) slot (some {})⟩, p'⟩, addrs, [], ?_,
      ⟨h.session.outbox, Session.rel_update (fun _ => .none) hnull slot⟩, hstack, h.blocks⟩
    simp [PooledSession.step, hp', Outbox.emplaceFront, ListSession.step]
  · obtain ⟨hr, hit⟩ := h.session.outbox.emplaceFront (h.heap_top hs) x
    subst hs
    refine ⟨⟨⟨(s.session.outbox.emplaceFront (some b) x).1, Function.update (fun _ => none) slot
      (some (s.session.outbox.emplaceFront (some b) x).2)⟩, p'⟩, b :: addrs, rest, ?_,
      ⟨hr, Session.rel_update (fun _ => .none) hit slot⟩, hstack, List.perm_middle.symm.trans h.blocks⟩
    simp [PooledSession.step, hp', Outbox.emplaceFront, ListSession.step]

theorem Represents.step_removeCurrent :
    ∃ s' addrs' stack', s.step al B.word bytes time .removeCurrent =
        some (s', (ls.step .removeCurrent).2) ∧
      s'.Represents B (ls.step .removeCurrent).1 addrs' stack' := by
  have hpool := h.overwrite (bytes time)
  set p := PooledSession.overwrite (bytes time) s.session.outbox.heap s.memPool with hp
  have hcurrent := h.session.outbox.current
  rcases hc : addrs[ls.outbox.cursor]? with _ | a
  · -- nothing under the cursor, nothing to remove
    have hend : ls.outbox.items.length ≤ ls.outbox.cursor :=
      h.session.outbox.length ▸ List.getElem?_eq_none_iff.mp hc
    have hsame : ls.outbox.removeCurrent = ls.outbox := by
      rw [CursorList.removeCurrent_eq]
      apply CursorList.ext_items
      · rw [CursorList.items_remove, List.eraseIdx_of_length_le hend]
      · rw [CursorList.cursor_remove, if_neg (lt_irrefl _)]
    have hr : s.session.outbox.Represents ls.outbox.removeCurrent addrs := by
      rw [hsame]
      exact h.session.outbox
    refine ⟨⟨⟨s.session.outbox, fun _ => none⟩, p⟩, addrs, stack, ?_, ⟨hr, fun _ => .none⟩, hpool, h.blocks⟩
    simp [PooledSession.step, ← hp, hcurrent, hc, PooledSession.removeNode, ListSession.step]
  · obtain ⟨o', p', ho', hr, hstack, hblocks⟩ := h.removeNode hpool hc h.session.outbox.prev
    rw [← CursorList.removeCurrent_eq] at hr
    refine ⟨⟨⟨o', fun _ => none⟩, p'⟩, addrs.eraseIdx ls.outbox.cursor, a :: stack, ?_,
      ⟨hr, fun _ => .none⟩, hstack, hblocks⟩
    simp [PooledSession.step, ← hp, hcurrent, hc, ho', ListSession.step]

theorem Represents.step_remove (slot : ℕ) :
    ∃ s' addrs' stack', s.step al B.word bytes time (.remove slot) =
        some (s', (ls.step (.remove slot)).2) ∧
      s'.Represents B (ls.step (.remove slot)).1 addrs' stack' := by
  have hpool := h.overwrite (bytes time)
  set p := PooledSession.overwrite (bytes time) s.session.outbox.heap s.memPool with hp
  rcases h.session.slot slot with ⟨hs, hls⟩ | ⟨it, _ | i, hs, hls, hit⟩
  · refine ⟨⟨s.session, p⟩, addrs, stack, by simp [PooledSession.step, ← hp, hs, ListSession.step, hls], ?_⟩
    simp only [ListSession.step, hls]
    exact ⟨h.session, hpool, h.blocks⟩
  · -- past the end
    have hnode : it.node = none := hit
    refine ⟨⟨⟨s.session.outbox, Function.update (fun _ => none) slot (some it)⟩, p⟩, addrs, stack,
      by simp [PooledSession.step, ← hp, hs, hnode, ListSession.step, hls], ?_⟩
    simp only [ListSession.step, hls]
    exact ⟨⟨h.session.outbox, Session.rel_update (fun _ => .none) hit slot⟩, hpool, h.blocks⟩
  · obtain ⟨hlt, hnode, hprev⟩ := hit
    have hi := List.getElem?_eq_getElem hlt
    obtain ⟨x, -, hn⟩ := h.session.outbox.node i _ hi
    obtain ⟨o', p', ho', hr, hstack, hblocks⟩ := h.removeNode hpool hi hprev
    rw [hi] at hnode
    set it' : Outbox.Iterator := { prev := it.prev, node := addrs[i + 1]? } with hit'
    have hrep : it'.Represents (ListSession.at? (ls.outbox.remove i) i) (addrs.eraseIdx i) := by
      refine Outbox.Iterator.represents_at? hr i ?_ ?_
      · rw [List.getElem?_eraseIdx_of_ge le_rfl]
      · rcases Nat.eq_zero_or_pos i with hzero | hpos
        · exact .inl hzero
        · rw [List.getElem?_eraseIdx_of_lt (by omega)]
          exact .inr (hprev.resolve_left (by omega))
    refine ⟨⟨⟨o', Function.update (fun _ => none) slot (some it')⟩, p'⟩, addrs.eraseIdx i,
      addrs[i] :: stack, ?_, ?_⟩
    · simp [PooledSession.step, ← hp, hs, hnode, hn, ho', ListSession.step, hls, hit']
    · simp only [ListSession.step, hls]
      exact ⟨⟨hr, Session.rel_update (fun _ => .none) hrep slot⟩, hstack, hblocks⟩

/-- The operations that have nothing to do with the pool. -/
theorem Represents.step_still {op : Op T} (hop : op.Still)
    (hstep : s.step al B.word bytes time op = (s.session.step al time op).bind fun (session, seen) =>
      some (⟨session, PooledSession.overwrite (bytes time) s.session.outbox.heap s.memPool⟩, seen)) :
    ∃ s' addrs' stack', s.step al B.word bytes time op = some (s', (ls.step op).2) ∧
      s'.Represents B (ls.step op).1 addrs' stack' := by
  obtain ⟨session, addrs', hs', hr⟩ := h.session.step al time op
  rw [hs'] at hstep
  refine ⟨_, addrs', stack, hstep, hr, h.overwrite (bytes time), ?_⟩
  exact ((h.session.outbox.perm hr.outbox (Session.heap_step hop hs')).append_right stack).trans h.blocks

/-- **One step.** The queue shows what the sequence with room for the blocks shows. -/
theorem Represents.step (op : Op T) :
    ∃ s' addrs' stack',
      s.step al B.word bytes time op =
        some (s', (ls.step (op.bounded (decide (ls.outbox.items.length < B.nrBlocks)))).2) ∧
      s'.Represents B (ls.step (op.bounded (decide (ls.outbox.items.length < B.nrBlocks)))).1 addrs' stack' := by
  rw [h.room]
  cases op with
  | emplace slot x ok => exact h.step_emplace al bytes time slot x ok
  | emplaceFront slot x ok => exact h.step_emplaceFront al bytes time slot x ok
  | removeCurrent => exact h.step_removeCurrent al bytes time
  | remove slot => exact h.step_remove al bytes time slot
  | next | resetCurrent | getCurrent | size | empty | front slot | advance slot | get slot =>
    exact h.step_still al bytes time trivial rfl

end Step

/-- A whole sequence of operations. -/
theorem Represents.run (al : Allocator T) (bytes : ℕ → Addr → Option ℕ) : ∀ (ops : List (Op T)) (time : ℕ)
    {s : PooledSession T} {ls : ListSession T} {addrs stack : List Addr}, s.Represents B ls addrs stack →
      ∃ s' addrs' stack', s.run al B.word bytes time ops = some (s', (ls.runBounded B.nrBlocks ops).2) ∧
        s'.Represents B (ls.runBounded B.nrBlocks ops).1 addrs' stack' := by
  intro ops
  induction ops with
  | nil => exact fun _ {s _ addrs stack} h => ⟨s, addrs, stack, rfl, h⟩
  | cons op ops ih =>
    intro time s ls addrs stack h
    obtain ⟨s₁, addrs₁, stack₁, hs₁, h₁⟩ := h.step al bytes time op
    obtain ⟨s₂, addrs₂, stack₂, hs₂, h₂⟩ := ih (time + 1) h₁
    exact ⟨s₂, addrs₂, stack₂, by simp [PooledSession.run, hs₁, hs₂, ListSession.runBounded], h₂⟩

theorem new_represents (B : Blocks) :
    ∃ s : PooledSession T, new B.word B.nrBlocks B.blocksize = some s ∧
      s.Represents B ListSession.new [] B.starts := by
  obtain ⟨p, hp, hstack⟩ := Fixed.new_freeStack B
  exact ⟨⟨.new, p⟩, by simp [new, hp], Session.new_represents, hstack, List.Perm.refl _⟩

/-- **The pooled queue refines a sequence with room for as many items as the pool has blocks.** Whatever
the callers write to their items, every sequence of operations runs without following a null or freed
pointer and without an access outside the pool; an insertion fails exactly when the queue has as many
items as the pool has blocks, and everything else the caller sees is what it sees of the sequence.  At the
end the pool has all the blocks that no item is in. -/
theorem run_bounded (B : Blocks) (al : Allocator T) (bytes : ℕ → Addr → Option ℕ) (ops : List (Op T)) :
    ∃ (s₀ s : PooledSession T) (addrs stack : List Addr), new B.word B.nrBlocks B.blocksize = some s₀ ∧
      s₀.run al B.word bytes 0 ops =
        some (s, ((ListSession.new : ListSession T).runBounded B.nrBlocks ops).2) ∧
      s.Represents B ((ListSession.new : ListSession T).runBounded B.nrBlocks ops).1 addrs stack ∧
      s.memPool.freeMemory B.word B.blocksize = some ((B.nrBlocks -
        ((ListSession.new : ListSession T).runBounded B.nrBlocks ops).1.outbox.items.length) * B.blocksize) := by
  obtain ⟨s₀, hnew, h₀⟩ := new_represents (T := T) B
  obtain ⟨s, addrs, stack, hs, h⟩ := Represents.run al bytes ops 0 h₀
  refine ⟨s₀, s, addrs, stack, hnew, hs, h, ?_⟩
  have hlen := h.length
  rw [h.memPool.freeMemory]
  congr 2
  omega

/-! ### The destructor -/

/-- From any node on, the loop gives the blocks of the nodes that are left to the pool. -/
theorem destroyLoop_eq {o : Outbox T} {p : Fixed} {rest : List Addr} {stack : List Addr}
    (hchain : ∀ i a, rest[i]? = some a → ∃ x, o.heap a = some ⟨x, rest[i + 1]?⟩) (hfirst : o.first = rest[0]?)
    (hall : ∀ a, o.heap a ≠ none → a ∈ rest) (hpool : FreeStack B p stack)
    (hblocks : (rest ++ stack).Perm B.starts) (fuel : ℕ) (hfuel : rest.length ≤ fuel) :
    ∃ o' p', destroyLoop B.word fuel o p = some (o', p') ∧ (∀ a, o'.heap a = none) ∧
      FreeStack B p' (rest.reverse ++ stack) := by
  induction rest generalizing o p stack fuel with
  | nil =>
    have hnone : o.first = none := hfirst
    refine ⟨o, p, by rw [destroyLoop, hnone], fun a => ?_, hpool⟩
    by_contra hne
    exact absurd (hall a hne) List.not_mem_nil
  | cons a rest ih =>
    obtain ⟨fuel, rfl⟩ : ∃ n, fuel = n + 1 := ⟨fuel - 1, by simp only [List.length_cons] at hfuel; omega⟩
    have hnodup := List.nodup_append.mp (hblocks.nodup_iff.mpr B.nodup_starts)
    have ha : a ∈ B.starts := hblocks.mem_iff.mp (by simp)
    have hnot : a ∉ stack := fun hmem => hnodup.2.2 a List.mem_cons_self a hmem rfl
    have harest : a ∉ rest := (List.nodup_cons.mp hnodup.1).1
    obtain ⟨x, hx⟩ := hchain 0 a rfl
    obtain ⟨p', hp', hstack⟩ := hpool.free ha hnot
    -- what is left of the queue when the first node is gone
    set o₁ : Outbox T := { o.delete a with first := rest[0]? } with ho₁
    have hheap₁ : ∀ b, b ≠ a → o₁.heap b = o.heap b := fun b hb => Function.update_of_ne hb ..
    have hchain₁ : ∀ i b, rest[i]? = some b → ∃ x, o₁.heap b = some ⟨x, rest[i + 1]?⟩ := by
      intro i b hb
      obtain ⟨y, hy⟩ := hchain (i + 1) b (by simpa using hb)
      have hba : b ≠ a := fun heq => harest (heq ▸ List.mem_of_getElem? hb)
      exact ⟨y, by simpa [hheap₁ b hba] using hy⟩
    have hall₁ : ∀ b, o₁.heap b ≠ none → b ∈ rest := by
      intro b hb
      have hba : b ≠ a := by
        rintro rfl
        simp [ho₁, Outbox.delete] at hb
      exact (List.mem_cons.mp (hall b (hheap₁ b hba ▸ hb))).resolve_left hba
    obtain ⟨o', p'', hloop, hheap, hstack'⟩ := ih hchain₁ rfl hall₁ hstack (List.perm_middle.trans hblocks)
      fuel (by simpa using hfuel)
    refine ⟨o', p'', ?_, hheap, by simpa using hstack'⟩
    have hfirst' : o.first = some a := hfirst
    rw [destroyLoop, hfirst']
    simp only [hx, Option.bind_eq_bind, Option.bind_some, hp']
    exact hloop

/-- **The destructor gives every block back**, whatever was done with the queue before. -/
theorem destroy_eq (B : Blocks) (al : Allocator T) (bytes : ℕ → Addr → Option ℕ) (ops : List (Op T)) :
    ∃ (s₀ s : PooledSession T) (o : Outbox T) (p : Fixed), new B.word B.nrBlocks B.blocksize = some s₀ ∧
      (∃ seen, s₀.run al B.word bytes 0 ops = some (s, seen)) ∧
      s.destroy B.word (bytes ops.length) = some (o, p) ∧ (∀ a, o.heap a = none) ∧
      p.freeMemory B.word B.blocksize = some (B.nrBlocks * B.blocksize) := by
  obtain ⟨s₀, s, addrs, stack, hnew, hs, h, -⟩ := run_bounded B al bytes ops
  have ho := h.session.outbox
  have hchain : ∀ i a, addrs[i]? = some a → ∃ x, s.session.outbox.heap a = some ⟨x, addrs[i + 1]?⟩ := by
    intro i a hi
    obtain ⟨x, -, hx⟩ := ho.node i a hi
    exact ⟨x, hx⟩
  obtain ⟨o, p, hloop, hheap, hstack⟩ := destroyLoop_eq hchain ho.first ho.allocated
    (h.overwrite (bytes ops.length)) h.blocks s.session.outbox.allocated ho.count.ge
  refine ⟨s₀, s, o, p, hnew, ⟨_, hs⟩, hloop, hheap, ?_⟩
  have hlen := h.blocks.length_eq
  rw [hstack.freeMemory, List.length_append, List.length_reverse, ← List.length_append, hlen,
    B.length_starts]

end PooledSession

end EspMqttClient
