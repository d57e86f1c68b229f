/-
  The `Outbox` of a build with `EMC_USE_MEMPOOL`: its nodes live in a pool of `EMC_NUM_POOL_ELEMENTS`
  blocks of the size of a node.

  A node's address is its address in the pool.  Whether an insertion gets a node is up to the pool, so
  what an `Op` says of it is not looked at.  The bytes of a node are the caller's: between two
  operations what the pool would read at the start of one can become anything.
-/
import EspMqttClient.Outbox.Basic
import EspMqttClient.MemoryPool.Fixed

namespace EspMqttClient

open MemoryPool (Fixed)

/-- An outbox with its pool, and the live iterators. -/
structure PooledSession (T : Type) where
  session : Session T
  memPool : Fixed

namespace PooledSession

variable {T : Type}

/-- A new outbox with its pool, for pointers of `word` bytes and nodes of `nodeSize`. -/
def new (word nrElements nodeSize : ℕ) : Option (PooledSession T) := do
  let memPool ← Fixed.new word nrElements nodeSize
  some ⟨.new, memPool⟩

/-- The nodes are written to. -/
def overwrite (bytes : Addr → Option ℕ) (heap : Addr → Option (Node T)) (p : Fixed) : Fixed :=
  { p with words := fun a => if (heap a).isSome then bytes a else p.words a }

/-- `_remove`: the node is unlinked, destroyed and given back to the pool. -/
def removeNode (word : ℕ) (o : Outbox T) (p : Fixed) (prev node : Option Addr) : Option (Outbox T × Fixed) :=
  match node with
  | none => some (o, p)
  | some a => do
    let o ← o.removeNode prev (some a)
    let p ← p.free word (some a)
    some (o, p)

/-- One operation at a given time.  Those that neither insert nor remove have nothing to do with the
pool. -/
def step (al : Allocator T) (word : ℕ) (bytes : ℕ → Addr → Option ℕ) (time : ℕ) (s : PooledSession T)
    (op : Op T) : Option (PooledSession T × Obs T) :=
  let o := s.session.outbox
  let p := overwrite (bytes time) o.heap s.memPool
  match op with
  | .emplace slot x _ => do
    let (p, buf) ← p.malloc word
    let (o, it) ← o.emplace buf x
    some (⟨⟨o, Function.update s.session.iterators slot (some it)⟩, p⟩, .bool it.node.isSome)
  | .emplaceFront slot x _ => do
    let (p, buf) ← p.malloc word
    let (o, it) := o.emplaceFront buf x
    some (⟨⟨o, Function.update (fun _ => none) slot (some it)⟩, p⟩, .bool it.node.isSome)
  | .removeCurrent => do
    let (o, p) ← removeNode word o p o.prev o.current
    some (⟨⟨o, fun _ => none⟩, p⟩, .unit)
  | .remove slot =>
    match s.session.iterators slot with
    | none => some (⟨s.session, p⟩, .dead)
    | some it =>
      match it.node with
      | none => some (⟨⟨o, Function.update (fun _ => none) slot (some it)⟩, p⟩, .unit)
      | some a => do
        let n ← o.heap a
        let (o, p) ← removeNode word o p it.prev it.node
        let it : Outbox.Iterator := { prev := it.prev, node := n.next }
        some (⟨⟨o, Function.update (fun _ => none) slot (some it)⟩, p⟩, .unit)
  | op => do
    let (session, seen) ← s.session.step al time op
    some (⟨session, p⟩, seen)

/-- A sequence of operations that starts at a given time. -/
def run (al : Allocator T) (word : ℕ) (bytes : ℕ → Addr → Option ℕ) :
    ℕ → PooledSession T → List (Op T) → Option (PooledSession T × List (Obs T))
  | _, s, [] => some (s, [])
  | time, s, op :: ops => do
    let (s, seen) ← s.step al word bytes time op
    let (s, rest) ← run al word bytes (time + 1) s ops
    some (s, seen :: rest)

/-- The loop of the destructor.  `none` also when the walk is longer than `fuel`. -/
def destroyLoop (word : ℕ) : ℕ → Outbox T → Fixed → Option (Outbox T × Fixed)
  | fuel, o, p =>
    match o.first with
    | none => some (o, p)
    | some a =>
      match fuel with
      | 0 => none
      | fuel + 1 => do
        let n ← o.heap a
        let p ← p.free word (some a)
        destroyLoop word fuel { o.delete a with first := n.next } p

/-- `~Outbox`: a walk over more nodes than are allocated would never end. -/
def destroy (word : ℕ) (bytes : Addr → Option ℕ) (s : PooledSession T) : Option (Outbox T × Fixed) :=
  let o := s.session.outbox
  destroyLoop word o.allocated o (overwrite bytes o.heap s.memPool)

end PooledSession

end EspMqttClient
