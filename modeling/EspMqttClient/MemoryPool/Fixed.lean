/-
  `Fixed` — the pool with blocks of one size (`MemoryPool/src/Fixed.h`), which the queue keeps its nodes
  in when the client is built with `EMC_USE_MEMPOOL`.

  A pointer is the number of a byte of the buffer, a null pointer is `none`.  The pool reads and writes
  nothing but a pointer at the start of a block, and a block has room for one: `words` says what is
  read there.  While a block is in use it can be anything.
-/
import EspMqttClient.Config
import Mathlib.Logic.Function.Basic

namespace EspMqttClient

namespace MemoryPool

/-- The pool. -/
structure Fixed where
  /-- The size of the buffer. -/
  size : ℕ
  /-- The pointer that is read at an address. -/
  words : ℕ → Option ℕ
  head : Option ℕ

namespace Fixed

/-- Read the pointer at an address, with pointers of `word` bytes.  It has to be inside the buffer. -/
def load (word : ℕ) (p : Fixed) (i : ℕ) : Option (Option ℕ) :=
  if i + word ≤ p.size then some (p.words i) else none

/-- Write a pointer to an address. -/
def store (word : ℕ) (p : Fixed) (i : ℕ) (ptr : Option ℕ) : Option Fixed :=
  if i + word ≤ p.size then some { p with words := Function.update p.words i ptr } else none

/-- The size of a block: it has to have room for a pointer. -/
def adjustedBlocksize (word blocksize : ℕ) : ℕ := if blocksize < word then word else blocksize

/-- The loop of the constructor: each block links to the next one. -/
def linkLoop (word blocksize : ℕ) : ℕ → (b : ℕ) → Fixed → Option (Fixed × ℕ)
  | 0, b, p => some (p, b)
  | n + 1, b, p => do
    let next := b + adjustedBlocksize word blocksize
    let p ← p.store word b (some next)
    linkLoop word blocksize n next p

/-- The constructor.  With no block at all, the buffer has no room for the last pointer. -/
def new (word nrBlocks blocksize : ℕ) : Option Fixed := do
  let p : Fixed :=
    { size := nrBlocks * adjustedBlocksize word blocksize, words := fun _ => none, head := some 0 }
  let (p, b) ← linkLoop word blocksize (nrBlocks - 1) 0 p
  p.store word b none

/-- `malloc`. -/
def malloc (word : ℕ) (p : Fixed) : Option (Fixed × Option ℕ) :=
  match p.head with
  | none => some (p, none)
  | some retVal => do
    let next ← p.load word retVal
    some ({ p with head := next }, some retVal)

/-- `free`. -/
def free (word : ℕ) (p : Fixed) (ptr : Option ℕ) : Option Fixed :=
  match ptr with
  | none => some p
  | some b => do
    let p ← p.store word b p.head
    some { p with head := some b }

/-- The loop of `freeMemory`.  `none` also when the walk is longer than `fuel`. -/
def freeMemoryLoop (word blocksize : ℕ) (p : Fixed) : ℕ → Option ℕ → ℕ → Option ℕ
  | _, none, retVal => some retVal
  | 0, some _, _ => none
  | fuel + 1, some i, retVal => do
    let next ← p.load word i
    p.freeMemoryLoop word blocksize fuel next (retVal + blocksize)

/-- `freeMemory`: a walk over more blocks than the buffer has bytes would never end. -/
def freeMemory (word blocksize : ℕ) (p : Fixed) : Option ℕ :=
  p.freeMemoryLoop word blocksize p.size p.head 0

end Fixed

end MemoryPool

end EspMqttClient
