/-
  `Outbox` — the singly linked queue of `Outbox.h`.

  Nodes live on a heap of addresses; a null pointer is `none`.  Every operation that follows a
  pointer returns an `Option`: `none` is what the C++ leaves undefined, following a null pointer or
  the pointer to a node that was deleted.  An address that was freed may be handed out again, so a
  stale pointer can come to equal the address of a new node.

  `Session` is an outbox together with the iterators a caller holds, `Op` what the caller can do
  with them, `Session.run` a whole sequence of operations.  An iterator is live until the queue is
  changed by something other than itself or `emplace`.
-/
import Mathlib.Data.List.Basic
import Mathlib.Logic.Function.Basic

namespace EspMqttClient

/-- A heap address. -/
abbrev Addr := ℕ

/-- A queue node: the item and the pointer to the next node. -/
structure Node (T : Type) where
  data : T
  next : Option Addr

/-- The queue: the heap its nodes live on and its four pointers. -/
structure Outbox (T : Type) where
  heap : Addr → Option (Node T)
  /-- How many nodes are allocated.  It bounds the walk of `size` and nothing else reads it. -/
  allocated : ℕ
  first : Option Addr
  last : Option Addr
  current : Option Addr
  /-- "element just before `_current`", according to the source. -/
  prev : Option Addr

namespace Outbox

variable {T : Type}

/-- A new outbox, with no node and four null pointers. -/
def new : Outbox T := ⟨fun _ => none, 0, none, none, none, none⟩

/-- An external iterator: a node and the one before it. -/
structure Iterator where
  node : Option Addr := none
  prev : Option Addr := none

/-- Construct a node at an address. -/
def alloc (o : Outbox T) (a : Addr) (n : Node T) : Outbox T :=
  { o with heap := Function.update o.heap a (some n), allocated := o.allocated + 1 }

/-- Destroy the node at an address. -/
def delete (o : Outbox T) (a : Addr) : Outbox T :=
  { o with heap := Function.update o.heap a none, allocated := o.allocated - 1 }

/-- Assign `p->next`. -/
def setNext (o : Outbox T) (p next : Option Addr) : Option (Outbox T) := do
  let a ← p
  let n ← o.heap a
  some { o with heap := Function.update o.heap a (some { n with next }) }

/-! ### The iterator -/

/-- `front`: an iterator on the first node. -/
def front (o : Outbox T) : Iterator := { node := o.first }

/-- `operator++`. -/
def Iterator.advance (it : Iterator) (o : Outbox T) : Option Iterator :=
  match it.node with
  | none => some it
  | some a => do
    let n ← o.heap a
    some { prev := it.node, node := n.next }

/-- `get`: the item the iterator is on. -/
def Iterator.get (it : Iterator) (o : Outbox T) : Option (Option T) :=
  match it.node with
  | none => some none
  | some a => do
    let n ← o.heap a
    some (some n.data)

/-! ### The operations -/

/-- `emplace`: add a node to the back and advance `_current` to it if it was past the end.
`address` is what the allocator returned. -/
def emplace (o : Outbox T) (address : Option Addr) (x : T) : Option (Outbox T × Iterator) :=
  match address with
  | none => some (o, {})
  | some a => do
    let o := o.alloc a ⟨x, none⟩
    let (o, it) ←
      if o.first.isNone then
        some ({ o with first := some a, current := some a }, ({} : Iterator))
      else do
        let o' ← o.setNext o.last (some a)
        some (o', { prev := o.last })
    let o := { o with last := some a }
    let o := if o.current.isNone then { o with current := o.last } else o
    some (o, { it with node := some a })

/-- `emplaceFront`: add a node to the front, `_current` points to it. -/
def emplaceFront (o : Outbox T) (address : Option Addr) (x : T) : Outbox T × Iterator :=
  match address with
  | none => (o, {})
  | some a =>
    let o := if o.first.isNone then { o.alloc a ⟨x, none⟩ with last := some a }
      else o.alloc a ⟨x, o.first⟩
    ({ o with current := some a, first := some a, prev := none }, { node := some a })

/-- `_remove`: unlink and delete a node, given the one before it. -/
def removeNode (o : Outbox T) (prev node : Option Addr) : Option (Outbox T) :=
  match node with
  | none => some o
  | some a => do
    let n ← o.heap a
    -- set current to next, node->next may be nullptr
    let o := if o.current = some a then { o with current := n.next } else o
    let o := if o.prev = some a then { o with prev } else o
    let o ←
      -- only one element in outbox
      if o.first = o.last then some { o with first := none, last := none }
      -- delete first el in longer outbox
      else if o.first = some a then some { o with first := n.next }
      -- delete last in longer outbox
      else if o.last = some a then setNext { o with last := prev } prev none
      -- delete somewhere in the middle
      else o.setNext prev n.next
    some (o.delete a)

/-- `remove`: remove the node at an iterator, the iterator moves to the next one. -/
def remove (o : Outbox T) (it : Iterator) : Option (Outbox T × Iterator) :=
  match it.node with
  | none => some (o, it)
  | some a => do
    let n ← o.heap a
    let o ← o.removeNode it.prev it.node
    some (o, { prev := it.prev, node := n.next })

/-- `removeCurrent`: remove the current node, current points to next. -/
def removeCurrent (o : Outbox T) : Option (Outbox T) := o.removeNode o.prev o.current

/-- `getCurrent`: the current item, if any. -/
def getCurrent (o : Outbox T) : Option (Option T) :=
  match o.current with
  | none => some none
  | some a => do
    let n ← o.heap a
    some (some n.data)

/-- `resetCurrent`: it leaves `_prev` as it is. -/
def resetCurrent (o : Outbox T) : Outbox T := { o with current := o.first }

/-- `next`: advance the current item. -/
def next (o : Outbox T) : Option (Outbox T) :=
  match o.current with
  | none => some o
  | some a => do
    let n ← o.heap a
    some { o with prev := o.current, current := n.next }

/-- `empty`. -/
def isEmpty (o : Outbox T) : Bool := o.first.isNone

/-- The counting loop of `size`.  `none` also when the walk is longer than `fuel`. -/
def sizeLoop (o : Outbox T) : ℕ → Option Addr → ℕ → Option ℕ
  | _, none, count => some count
  | 0, some _, _ => none
  | fuel + 1, some a, count => do
    let n ← o.heap a
    o.sizeLoop fuel n.next (count + 1)

/-- `size`: a walk that visits more nodes than are allocated would never end. -/
def size (o : Outbox T) : Option ℕ := o.sizeLoop o.allocated o.first 0

end Outbox

/-! ### Sequences of operations -/

/-- A memory allocator: whenever some address is free it returns a free one.  The choice may depend
on the time, so a freed address may or may not come back. -/
structure Allocator (T : Type) where
  pick : ℕ → (Addr → Option (Node T)) → Addr
  pick_free : ∀ (time : ℕ) (heap : Addr → Option (Node T)),
    (∃ a, heap a = none) → heap (pick time heap) = none

/-- What a caller can do with an outbox and the iterators it holds, each in a numbered slot.
`ok` says whether the allocation succeeds. -/
inductive Op (T : Type)
  | emplace (slot : ℕ) (x : T) (ok : Bool)
  | emplaceFront (slot : ℕ) (x : T) (ok : Bool)
  | next
  | resetCurrent
  | removeCurrent
  | getCurrent
  | size
  | empty
  | front (slot : ℕ)
  | advance (slot : ℕ)
  | get (slot : ℕ)
  | remove (slot : ℕ)

/-- What a caller sees of an operation.  `dead` is the use of a slot that holds no live iterator:
nothing happens. -/
inductive Obs (T : Type)
  | unit
  | bool (b : Bool)
  | nat (n : ℕ)
  | item (x : Option T)
  | dead
deriving DecidableEq

/-- An outbox and the live iterators. -/
structure Session (T : Type) where
  outbox : Outbox T
  iterators : ℕ → Option Outbox.Iterator

namespace Session

variable {T : Type}

/-- A new outbox and no iterator. -/
def new : Session T := ⟨.new, fun _ => none⟩

/-- One operation at a given time.  `emplaceFront`, `removeCurrent` and `remove` end the life of all
other iterators. -/
def step (al : Allocator T) (time : ℕ) (s : Session T) : Op T → Option (Session T × Obs T)
  | .emplace slot x ok => do
    let address := if ok then some (al.pick time s.outbox.heap) else none
    let (o, it) ← s.outbox.emplace address x
    some (⟨o, Function.update s.iterators slot (some it)⟩, .bool it.node.isSome)
  | .emplaceFront slot x ok =>
    let address := if ok then some (al.pick time s.outbox.heap) else none
    let (o, it) := s.outbox.emplaceFront address x
    some (⟨o, Function.update (fun _ => none) slot (some it)⟩, .bool it.node.isSome)
  | .next => do
    let o ← s.outbox.next
    some (⟨o, s.iterators⟩, .unit)
  | .resetCurrent => some (⟨s.outbox.resetCurrent, s.iterators⟩, .unit)
  | .removeCurrent => do
    let o ← s.outbox.removeCurrent
    some (⟨o, fun _ => none⟩, .unit)
  | .getCurrent => do
    let x ← s.outbox.getCurrent
    some (s, .item x)
  | .size => do
    let n ← s.outbox.size
    some (s, .nat n)
  | .empty => some (s, .bool s.outbox.isEmpty)
  | .front slot => some (⟨s.outbox, Function.update s.iterators slot (some s.outbox.front)⟩, .unit)
  | .advance slot =>
    match s.iterators slot with
    | none => some (s, .dead)
    | some it => do
      let it ← it.advance s.outbox
      some (⟨s.outbox, Function.update s.iterators slot (some it)⟩, .unit)
  | .get slot =>
    match s.iterators slot with
    | none => some (s, .dead)
    | some it => do
      let x ← it.get s.outbox
      some (s, .item x)
  | .remove slot =>
    match s.iterators slot with
    | none => some (s, .dead)
    | some it => do
      let (o, it) ← s.outbox.remove it
      some (⟨o, Function.update (fun _ => none) slot (some it)⟩, .unit)

/-- A sequence of operations that starts at a given time: the final session and what was seen. -/
def run (al : Allocator T) : ℕ → Session T → List (Op T) → Option (Session T × List (Obs T))
  | _, s, [] => some (s, [])
  | time, s, op :: ops => do
    let (s, seen) ← s.step al time op
    let (s, rest) ← s.run al (time + 1) ops
    some (s, seen :: rest)

end Session

end EspMqttClient
