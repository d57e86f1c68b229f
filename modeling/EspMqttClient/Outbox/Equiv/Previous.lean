/-
  What `_prev` points to.

  According to the source it is the "element just before `_current`".  Every operation but
  `resetCurrent` keeps it so (`Tracks.step`).  `resetCurrent` moves `_current` and leaves `_prev`
  behind: nothing follows it there, for the first node is unlinked without it, but it may be a node
  that is removed and freed (`run_dangles`).
-/
import EspMqttClient.Outbox.Equiv.Refinement
import Mathlib.Order.Lattice.Nat

namespace EspMqttClient

variable {T : Type}

namespace Outbox

/-- `_prev` is the node immediately before `_current`: null when `_current` is the first node or there is
none, the last node when `_current` is past the end, and never a node that was deleted. -/
structure PrevOk (o : Outbox T) : Prop where
  first : o.current = o.first → o.prev = none
  before : o.current ≠ o.first → ∃ a n, o.prev = some a ∧ o.heap a = some n ∧ n.next = o.current
  last : o.current = none → o.first ≠ none → o.prev = o.last
  live : ∀ a, o.prev = some a → o.heap a ≠ none

variable {o o' : Outbox T} {l : CursorList T} {addrs : List Addr}

theorem Represents.cursor_eq_zero (h : o.Represents l addrs) : l.cursor = 0 ↔ o.current = o.first := by
  rw [h.current, h.first]
  refine ⟨fun hzero => by rw [hzero], fun hsame => ?_⟩
  cases hfirst : addrs[0]? with
  | none =>
    -- no node at all
    have hempty : addrs.length = 0 := Nat.le_zero.mp (List.getElem?_eq_none_iff.mp hfirst)
    have hle := l.cursor_le
    rw [← h.length] at hle
    omega
  | some a => exact h.inj (hsame.trans hfirst) hfirst

/-- Only with the cursor on the first node there is something to show. -/
theorem Represents.prevOk_iff (h : o.Represents l addrs) : o.PrevOk ↔ (l.cursor = 0 → o.prev = none) := by
  constructor
  · exact fun hok hzero => hok.first (h.cursor_eq_zero.mp hzero)
  · intro hprev
    have hle : l.cursor ≤ addrs.length := h.length ▸ l.cursor_le
    have hbehind (hpos : l.cursor ≠ 0) : ∃ a x, o.prev = some a ∧ o.heap a = some ⟨x, o.current⟩ := by
      have hbefore : addrs[l.cursor - 1]? = some addrs[l.cursor - 1] := List.getElem?_eq_getElem (by omega)
      obtain ⟨x, -, hnode⟩ := h.node _ _ hbefore
      rw [Nat.sub_add_cancel (by omega), ← h.current] at hnode
      exact ⟨_, x, (h.prev.resolve_left hpos).trans hbefore, hnode⟩
    refine ⟨fun hfirst => hprev (h.cursor_eq_zero.mpr hfirst), fun hne => ?_, fun hnone hsome => ?_,
      fun a ha => ?_⟩
    · obtain ⟨a, x, ha, hnode⟩ := hbehind fun hzero => hne (h.cursor_eq_zero.mp hzero)
      exact ⟨a, _, ha, hnode, rfl⟩
    · have hend : addrs.length ≤ l.cursor := List.getElem?_eq_none_iff.mp (h.current ▸ hnone)
      have hpos : l.cursor ≠ 0 := fun hzero => hsome (h.cursor_eq_zero.mp hzero ▸ hnone)
      rw [h.prev.resolve_left hpos, h.last, show l.cursor = addrs.length by omega]
    · have hpos : l.cursor ≠ 0 := fun hzero => by rw [hprev hzero] at ha; cases ha
      obtain ⟨b, x, hb, hnode⟩ := hbehind hpos
      obtain rfl := Option.some.inj (hb.symm.trans ha)
      rw [hnode]
      exact Option.some_ne_none _

/-! ### What the operations do to it -/

theorem prev_setNext {p next : Option Addr} (h : o.setNext p next = some o') : o'.prev = o.prev := by
  rw [setNext] at h
  simp only [Option.bind_eq_bind, Option.bind_eq_some_iff] at h
  obtain ⟨a, -, n, -, h⟩ := h
  rw [← Option.some.inj h]

/-- `emplace` leaves `_prev`, and in an empty queue there is nothing in front of the new node. -/
theorem emplace_prev {address : Option Addr} {x : T} {it : Iterator}
    (h : o.emplace address x = some (o', it)) : o'.prev = o.prev ∧ (o.first = none → it.prev = none) := by
  cases address with
  | none =>
    obtain ⟨rfl, rfl⟩ := Prod.mk.inj (Option.some.inj h)
    exact ⟨rfl, fun _ => rfl⟩
  | some a =>
    have hfirst : (o.alloc a ⟨x, none⟩).first = o.first := rfl
    rw [emplace] at h
    dsimp only at h
    rw [hfirst] at h
    split at h
    · -- the queue is empty
      obtain ⟨rfl, rfl⟩ := Prod.mk.inj (Option.some.inj h)
      exact ⟨by dsimp only; split_ifs <;> rfl, fun _ => rfl⟩
    next hempty =>
      simp only [Option.bind_eq_bind, Option.bind_eq_some_iff] at h
      obtain ⟨linked, hlinked, _, hpair, h⟩ := h
      obtain rfl := Option.some.inj hpair
      obtain ⟨rfl, rfl⟩ := Prod.mk.inj (Option.some.inj h)
      have hprev : linked.prev = o.prev := (prev_setNext hlinked).trans rfl
      refine ⟨?_, fun hnone => absurd (by rw [hnone]; rfl) hempty⟩
      dsimp only
      split_ifs
      · exact hprev
      · exact hprev

theorem prev_removeNode (h : o.Represents l addrs) {i : ℕ} {a : Addr} {prev : Option Addr}
    (hi : addrs[i]? = some a) (hprev : i = 0 ∨ prev = addrs[i - 1]?)
    (hremove : o.removeNode prev (some a) = some o') :
    o'.prev = if o.prev = some a then prev else o.prev := by
  rcases Nat.eq_zero_or_pos i with rfl | hpos
  · obtain ⟨o'', ho'', hu⟩ := h.removeNode_front hi prev
    obtain rfl := Option.some.inj (ho''.symm.trans hremove)
    exact hu.prev
  · obtain ⟨o'', ho'', hu⟩ := h.removeNode_behind hi hpos (hprev.resolve_left (by omega))
    obtain rfl := Option.some.inj (ho''.symm.trans hremove)
    exact hu.prev

/-- An iterator that removes a node keeps the address of the one in front of it. -/
theorem Iterator.Represents.prev_remove {it it' : Iterator} {i : ℕ} (hit : it.Represents (some i) addrs)
    (h : o.Represents l addrs) (hremove : o.remove it = some (o', it')) :
    ∃ a, addrs[i]? = some a ∧ (o'.prev = if o.prev = some a then it.prev else o.prev) ∧ it'.prev = it.prev := by
  obtain ⟨hlt, hnode, hprev⟩ := hit
  have hi := List.getElem?_eq_getElem hlt
  rw [Outbox.remove, hnode, hi] at hremove
  simp only [Option.bind_eq_bind, Option.bind_eq_some_iff] at hremove
  obtain ⟨n, -, o'', ho'', hpair⟩ := hremove
  obtain ⟨rfl, rfl⟩ := Prod.mk.inj (Option.some.inj hpair)
  exact ⟨_, hi, prev_removeNode h hi hprev ho'', rfl⟩

end Outbox

namespace Session

variable {s s' : Session T} {ls : ListSession T} {addrs : List Addr}

/-- The session stands for the sequence, with nothing in front of the first node: neither in `_prev` nor in an
iterator. -/
structure Tracks (s : Session T) (ls : ListSession T) (addrs : List Addr) : Prop
    extends s.Represents ls addrs where
  prev : ls.outbox.cursor = 0 → s.outbox.prev = none
  fronts : ∀ slot it, s.iterators slot = some it → ls.iterators slot = some (some 0) → it.prev = none

theorem Tracks.prevOk (h : s.Tracks ls addrs) : s.outbox.PrevOk := h.outbox.prevOk_iff.mpr h.prev

theorem new_tracks : (new : Session T).Tracks .new [] where
  toRepresents := new_represents
  prev _ := rfl
  fronts _ _ h := by cases h

/-- The other iterators are what they were when a slot is overwritten. -/
theorem fronts_update {its : ℕ → Option Outbox.Iterator} {poss : ℕ → Option (Option ℕ)}
    (h : ∀ slot it, its slot = some it → poss slot = some (some 0) → it.prev = none) {slot : ℕ}
    {it : Outbox.Iterator} {pos : Option ℕ} (hit : pos = some 0 → it.prev = none) (slot' : ℕ)
    (it' : Outbox.Iterator)
    (hits : Function.update its slot (some it) slot' = some it')
    (hposs : Function.update poss slot (some pos) slot' = some (some 0)) : it'.prev = none := by
  rw [Function.update_apply] at hits hposs
  split_ifs at hits hposs
  · obtain rfl := Option.some.inj hits
    exact hit (Option.some.inj hposs)
  · exact h slot' it' hits hposs

/-- **One step** keeps `_prev` where it belongs, when `resetCurrent` finds the cursor on the first node. -/
theorem Tracks.step (h : s.Tracks ls addrs) (al : Allocator T) (time : ℕ) (op : Op T)
    (hreset : op = .resetCurrent → ls.outbox.cursor = 0) {seen : Obs T}
    (hstep : s.step al time op = some (s', seen)) : ∃ addrs', s'.Tracks (ls.step op).1 addrs' := by
  obtain ⟨s'', addrs', hs', hr⟩ := h.toRepresents.step al time op
  obtain ⟨rfl, -⟩ := Prod.mk.inj (Option.some.inj (hs'.symm.trans hstep))
  suffices hkept : ((ls.step op).1.outbox.cursor = 0 → s''.outbox.prev = none) ∧
      ∀ slot it, s''.iterators slot = some it → (ls.step op).1.iterators slot = some (some 0) →
        it.prev = none from
    ⟨addrs', hr, hkept.1, hkept.2⟩
  clear hs' hr
  cases op with
  | emplace slot x ok =>
    simp only [Session.step, Option.bind_eq_bind, Option.bind_eq_some_iff, Prod.exists] at hstep
    obtain ⟨o, it, hemplace, hs⟩ := hstep
    obtain ⟨rfl, -⟩ := Prod.mk.inj (Option.some.inj hs)
    obtain ⟨hprev, hit⟩ := Outbox.emplace_prev hemplace
    rw [ListSession.step]
    split_ifs
    · refine ⟨fun hzero => hprev.trans (h.prev hzero), fronts_update h.fronts fun hpos => hit ?_⟩
      -- the new node is the first one
      rw [h.outbox.first, List.getElem?_eq_none_iff, h.outbox.length]
      exact (Option.some.inj hpos).le
    · exact ⟨fun hzero => hprev.trans (h.prev hzero), fronts_update h.fronts fun h => by cases h⟩
  | emplaceFront slot x ok =>
    simp only [Session.step] at hstep
    obtain ⟨rfl, -⟩ := Prod.mk.inj (Option.some.inj hstep)
    rw [ListSession.step]
    cases ok with
    | true =>
      refine ⟨fun _ => rfl, fronts_update (fun _ _ h => by cases h) fun _ => rfl⟩
    | false => exact ⟨h.prev, fronts_update (fun _ _ h => by cases h) fun h => by cases h⟩
  | next =>
    simp only [Session.step, Option.bind_eq_bind, Option.bind_eq_some_iff] at hstep
    obtain ⟨o, hnext, hs⟩ := hstep
    obtain ⟨rfl, -⟩ := Prod.mk.inj (Option.some.inj hs)
    refine ⟨fun hzero => ?_, h.fronts⟩
    -- only in an empty queue the cursor stays at the front
    have hempty : ls.outbox.items.length = 0 := by
      rw [ListSession.step, CursorList.cursor_next] at hzero
      omega
    have hcurrent : s.outbox.current = none := by
      rw [h.outbox.current, List.getElem?_eq_none_iff, h.outbox.length, hempty]
      exact Nat.zero_le _
    have hcursor := ls.outbox.cursor_le
    rw [Outbox.next, hcurrent] at hnext
    obtain rfl := Option.some.inj hnext
    exact h.prev (by omega)
  | resetCurrent =>
    obtain ⟨rfl, -⟩ := Prod.mk.inj (Option.some.inj hstep)
    exact ⟨fun _ => h.prev (hreset rfl), h.fronts⟩
  | removeCurrent =>
    simp only [Session.step, Option.bind_eq_bind, Option.bind_eq_some_iff] at hstep
    obtain ⟨o, hremove, hs⟩ := hstep
    obtain ⟨rfl, -⟩ := Prod.mk.inj (Option.some.inj hs)
    refine ⟨fun hzero => ?_, fun _ _ h => by cases h⟩
    have hcursor : ls.outbox.cursor = 0 := by
      rwa [ListSession.step, CursorList.removeCurrent_eq, CursorList.cursor_remove,
        if_neg (lt_irrefl _)] at hzero
    have hsame : o.prev = s.outbox.prev := by
      rw [Outbox.removeCurrent] at hremove
      cases hcurrent : s.outbox.current with
      | none =>
        rw [hcurrent] at hremove
        rw [← Option.some.inj hremove]
      | some a =>
        rw [hcurrent] at hremove
        rw [Outbox.prev_removeNode h.outbox (h.outbox.current ▸ hcurrent) h.outbox.prev hremove, ite_self]
    rw [hsame]
    exact h.prev hcursor
  | getCurrent | size =>
    simp only [Session.step, Option.bind_eq_bind, Option.bind_eq_some_iff] at hstep
    obtain ⟨_, -, hs⟩ := hstep
    obtain ⟨rfl, -⟩ := Prod.mk.inj (Option.some.inj hs)
    exact ⟨h.prev, h.fronts⟩
  | empty =>
    obtain ⟨rfl, -⟩ := Prod.mk.inj (Option.some.inj hstep)
    exact ⟨h.prev, h.fronts⟩
  | front slot =>
    obtain ⟨rfl, -⟩ := Prod.mk.inj (Option.some.inj hstep)
    exact ⟨h.prev, fronts_update h.fronts fun _ => rfl⟩
  | advance slot =>
    rcases h.slot slot with ⟨hits, hposs⟩ | ⟨it, pos, hits, hposs, -⟩ <;>
      simp only [Session.step, ListSession.step, hits, hposs] at hstep ⊢
    · obtain ⟨rfl, -⟩ := Prod.mk.inj (Option.some.inj hstep)
      exact ⟨h.prev, h.fronts⟩
    · simp only [Option.bind_eq_bind, Option.bind_eq_some_iff] at hstep
      obtain ⟨it', -, hs⟩ := hstep
      obtain ⟨rfl, -⟩ := Prod.mk.inj (Option.some.inj hs)
      refine ⟨h.prev, fronts_update h.fronts fun hpos => ?_⟩
      -- behind a node is never the first one
      obtain ⟨i, -, hi⟩ := Option.bind_eq_some_iff.mp hpos
      rw [ListSession.at?] at hi
      split_ifs at hi
      cases hi
  | get slot =>
    rcases h.slot slot with ⟨hits, hposs⟩ | ⟨it, pos, hits, hposs, -⟩ <;>
      simp only [Session.step, ListSession.step, hits, hposs] at hstep ⊢
    · obtain ⟨rfl, -⟩ := Prod.mk.inj (Option.some.inj hstep)
      exact ⟨h.prev, h.fronts⟩
    · simp only [Option.bind_eq_bind, Option.bind_eq_some_iff] at hstep
      obtain ⟨_, -, hs⟩ := hstep
      obtain ⟨rfl, -⟩ := Prod.mk.inj (Option.some.inj hs)
      exact ⟨h.prev, h.fronts⟩
  | remove slot =>
    rcases h.slot slot with ⟨hits, hposs⟩ | ⟨it, _ | i, hits, hposs, hit⟩ <;>
      simp only [Session.step, ListSession.step, hits, hposs] at hstep ⊢
    · obtain ⟨rfl, -⟩ := Prod.mk.inj (Option.some.inj hstep)
      exact ⟨h.prev, h.fronts⟩
    · -- past the end
      have hnode : it.node = none := hit
      rw [Outbox.remove, hnode] at hstep
      obtain ⟨rfl, -⟩ := Prod.mk.inj (Option.some.inj hstep)
      exact ⟨h.prev, fronts_update (fun _ _ h => by cases h) fun h => by cases h⟩
    · have hfront (hzero : i = 0) : it.prev = none := h.fronts slot it hits (by rw [hposs, hzero])
      simp only [Option.bind_eq_bind, Option.bind_eq_some_iff, Prod.exists] at hstep
      obtain ⟨o, it', hremove, hs⟩ := hstep
      obtain ⟨rfl, -⟩ := Prod.mk.inj (Option.some.inj hs)
      obtain ⟨a, ha, hprev, hit'⟩ := hit.prev_remove h.outbox hremove
      refine ⟨fun hzero => ?_, fronts_update (fun _ _ h => by cases h) fun hpos => ?_⟩
      · rw [CursorList.cursor_remove] at hzero
        rw [hprev]
        split_ifs with hsame
        · -- the node in front of the cursor was the first one
          refine hfront ?_
          split_ifs at hzero with hlt
          · omega
          · exact absurd (h.prev hzero) (hsame ▸ Option.some_ne_none a)
        · split_ifs at hzero with hlt
          · refine absurd ((h.outbox.prev.resolve_left (by omega)).trans ?_) hsame
            rw [hzero, ← ha, show i = 0 by omega]
          · exact h.prev hzero
      · rw [hit']
        refine hfront ?_
        have hat : ListSession.at? (ls.outbox.remove i) i = some 0 := hpos
        rw [ListSession.at?] at hat
        split_ifs at hat
        exact Option.some.inj hat

/-! ### Sequences of operations -/

theorem run_cons {al : Allocator T} {time : ℕ} {op : Op T} {ops : List (Op T)} {seen : List (Obs T)} :
    s.run al time (op :: ops) = some (s', seen) ↔
      ∃ s'' o rest, s.step al time op = some (s'', o) ∧ s''.run al (time + 1) ops = some (s', rest) ∧
        seen = o :: rest := by
  rw [run]
  simp only [Option.bind_eq_bind, Option.bind_eq_some_iff, Prod.exists, Option.some.injEq, Prod.mk.injEq]
  constructor
  · rintro ⟨s'', o, hstep, s₁, rest, hrun, rfl, rfl⟩
    exact ⟨s'', o, rest, hstep, hrun, rfl⟩
  · rintro ⟨s'', o, rest, hstep, hrun, rfl⟩
    exact ⟨s'', o, hstep, s', rest, hrun, rfl, rfl⟩

/-- `_prev` is right after each of the operations, from a session on. -/
def KeepsPrev (al : Allocator T) (time : ℕ) (s : Session T) (ops : List (Op T)) : Prop :=
  ∀ n s' seen, s.run al time (ops.take n) = some (s', seen) → s'.outbox.PrevOk

/-- Whenever `resetCurrent` is called, `_current` is on the first node already. -/
def ResetsInPlace (al : Allocator T) (time : ℕ) (s : Session T) (ops : List (Op T)) : Prop :=
  ∀ n s' seen, s.run al time (ops.take n) = some (s', seen) → ops[n]? = some .resetCurrent →
    s'.outbox.current = s'.outbox.first

/-- What is said of every moment is said of the first one and of every moment after the first step. -/
theorem run_take_cons_iff {al : Allocator T} {time : ℕ} {op : Op T} {ops : List (Op T)} {seen : Obs T}
    (hstep : s.step al time op = some (s', seen)) (P : ℕ → Session T → Prop) :
    (∀ n s'' seen, s.run al time ((op :: ops).take n) = some (s'', seen) → P n s'') ↔
      P 0 s ∧ ∀ n s'' seen, s'.run al (time + 1) (ops.take n) = some (s'', seen) → P (n + 1) s'' := by
  constructor
  · exact fun h => ⟨h 0 s [] rfl, fun n s'' seen hrun =>
      h (n + 1) s'' _ (run_cons.mpr ⟨s', _, seen, hstep, hrun, rfl⟩)⟩
  · rintro ⟨hzero, hsucc⟩ n s'' seen hrun
    cases n with
    | zero =>
      obtain ⟨rfl, -⟩ := Prod.mk.inj (Option.some.inj hrun)
      exact hzero
    | succ n =>
      obtain ⟨s₁, _, rest, hstep', hrest, -⟩ := run_cons.mp hrun
      obtain ⟨rfl, -⟩ := Prod.mk.inj (Option.some.inj (hstep.symm.trans hstep'))
      exact hsucc n s'' rest hrest

/-- A session that is right stays right as long as `resetCurrent` has nothing to do, and no longer. -/
theorem Tracks.keepsPrev_iff (al : Allocator T) : ∀ (ops : List (Op T)) (time : ℕ) (s : Session T)
    (ls : ListSession T) (addrs : List Addr), s.Tracks ls addrs →
      (KeepsPrev al time s ops ↔ ResetsInPlace al time s ops)
  | [], time, s, ls, addrs, h => by
    refine ⟨fun _ _ _ _ _ hop => (by cases hop), fun _ n s' seen hrun => ?_⟩
    rw [List.take_nil] at hrun
    obtain ⟨rfl, -⟩ := Prod.mk.inj (Option.some.inj hrun)
    exact h.prevOk
  | op :: ops, time, s, ls, addrs, h => by
    obtain ⟨s', addrs', hstep, hr⟩ := h.toRepresents.step al time op
    have hkeeps : KeepsPrev al time s (op :: ops) ↔ s.outbox.PrevOk ∧ KeepsPrev al (time + 1) s' ops :=
      run_take_cons_iff hstep fun _ s'' => s''.outbox.PrevOk
    have hresets : ResetsInPlace al time s (op :: ops) ↔
        (op = .resetCurrent → s.outbox.current = s.outbox.first) ∧ ResetsInPlace al (time + 1) s' ops := by
      refine (run_take_cons_iff hstep fun n s'' =>
        (op :: ops)[n]? = some .resetCurrent → s''.outbox.current = s''.outbox.first).trans ?_
      simp only [List.getElem?_cons_zero, List.getElem?_cons_succ, Option.some.injEq]
      rfl
    have hhead : KeepsPrev al (time + 1) s' ops → op = .resetCurrent → s.outbox.current = s.outbox.first := by
      -- with the cursor further behind, `_prev` is a node, and `resetCurrent` leaves it
      rintro hkept rfl
      obtain ⟨rfl, -⟩ := Prod.mk.inj (Option.some.inj hstep)
      have hprev : s.outbox.prev = none := (hkept 0 _ [] rfl).first rfl
      by_contra hne
      obtain ⟨a, _, ha, -⟩ := h.prevOk.before hne
      cases hprev.symm.trans ha
    rw [hkeeps, hresets]
    constructor
    · rintro ⟨-, hkept⟩
      have hreset := hhead hkept
      obtain ⟨addrs'', h'⟩ := h.step al time op (fun hop => h.outbox.cursor_eq_zero.mpr (hreset hop)) hstep
      exact ⟨hreset, (keepsPrev_iff al ops _ _ _ _ h').mp hkept⟩
    · rintro ⟨hreset, hrest⟩
      obtain ⟨addrs'', h'⟩ := h.step al time op (fun hop => h.outbox.cursor_eq_zero.mpr (hreset hop)) hstep
      exact ⟨h.prevOk, (keepsPrev_iff al ops _ _ _ _ h').mpr hrest⟩

/-- **`_prev`.** It is the element just before `_current` after each of a sequence of operations on a new outbox,
if and only if each `resetCurrent` among them finds `_current` on the first node already. -/
theorem prev_iff (al : Allocator T) (ops : List (Op T)) :
    (∀ n s seen, (new : Session T).run al 0 (ops.take n) = some (s, seen) → s.outbox.PrevOk) ↔
      ∀ n s seen, (new : Session T).run al 0 (ops.take n) = some (s, seen) → ops[n]? = some .resetCurrent →
        s.outbox.current = s.outbox.first :=
  Tracks.keepsPrev_iff al ops 0 new .new [] new_tracks

end Session

/-! ### A node that was removed -/

/-- The allocator that hands out the lowest free address. -/
noncomputable def Allocator.lowest : Allocator T where
  pick _ heap := sInf {a | heap a = none}
  pick_free _ _ h := Nat.sInf_mem h

namespace Session

/-- Whatever the allocator does: two nodes, the cursor on the second one, then a reset and a removal.  `_prev` is
the node that was removed. -/
theorem run_dangles (al : Allocator T) (x y : T) :
    ∃ s seen a, (new : Session T).run al 0
        [.emplace 0 x true, .emplace 1 y true, .next, .resetCurrent, .removeCurrent] = some (s, seen) ∧
      s.outbox.prev = some a ∧ s.outbox.heap a = none := by
  generalize ha : al.pick 0 (fun _ => none) = a
  generalize hb : al.pick 1 (Function.update (fun _ => none) a (some ⟨x, none⟩)) = b
  have hba : b ≠ a := by
    have hfree := al.pick_free 1 (Function.update (fun _ => none) a (some ⟨x, none⟩)) ⟨a + 1, by simp⟩
    rintro rfl
    rw [hb, Function.update_self] at hfree
    cases hfree
  simp [run, step, new, Outbox.new, Outbox.emplace, Outbox.alloc, Outbox.setNext, Outbox.next,
    Outbox.resetCurrent, Outbox.removeCurrent, Outbox.removeNode, Outbox.delete, ha, hb, hba.symm]

/-- With a reset that has something to do, `_prev` is soon a node that was freed. -/
theorem not_prev_reset :
    ∃ s seen a, (new : Session Unit).run .lowest 0
        [.emplace 0 () true, .emplace 1 () true, .next, .resetCurrent, .removeCurrent] = some (s, seen) ∧
      s.outbox.prev = some a ∧ s.outbox.heap a = none ∧ ¬ s.outbox.PrevOk := by
  obtain ⟨s, seen, a, hrun, hprev, hfreed⟩ := run_dangles .lowest () ()
  exact ⟨s, seen, a, hrun, hprev, hfreed, fun hok => hok.live a hprev hfreed⟩

end Session

end EspMqttClient
