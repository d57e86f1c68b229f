/-
  `Variable` — the pool with blocks of any size (`MemoryPool/src/Variable.h`), which the packets keep
  their data in when the client is built with `EMC_USE_MEMPOOL`.

  The buffer is an array of units of the size of a block header, and a pointer into it is the number
  of a unit; a null pointer is `none`.  Each unit can be read as a header: what a caller has written to
  its block is read as one just as well, so a write to a unit is the write of some header.

  Every function that follows a pointer returns an `Option`: `none` is an access outside the buffer, or
  a walk along the free blocks that is longer than the buffer has units and would never end.  The
  numbers are sizes and offsets inside the buffer, none of them near the limits of a `size_t`.
-/
import EspMqttClient.Config
import Mathlib.Logic.Function.Basic

namespace EspMqttClient

namespace MemoryPool

/-- What a block starts with: the next free block and the block's size in units, header included. -/
structure BlockHeader where
  next : Option ℕ
  size : ℕ
deriving DecidableEq

/-- The pool. -/
structure Variable where
  /-- The number of units in the buffer. -/
  units : ℕ
  buffer : ℕ → BlockHeader
  head : Option ℕ

namespace Variable

/-- Follow a pointer. -/
def load (p : Variable) (i : ℕ) : Option BlockHeader := if i < p.units then some (p.buffer i) else none

/-- Write to a unit. -/
def store (p : Variable) (i : ℕ) (h : BlockHeader) : Option Variable :=
  if i < p.units then some { p with buffer := Function.update p.buffer i h } else none

/-- Assign `i->next`. -/
def setNext (p : Variable) (i : ℕ) (next : Option ℕ) : Option Variable := do
  let h ← p.load i
  p.store i { h with next }

/-- Assign `i->size`. -/
def setSize (p : Variable) (i : ℕ) (size : ℕ) : Option Variable := do
  let h ← p.load i
  p.store i { h with size }

/-- The number of units a number of bytes needs, with headers of `header` bytes. -/
def normalized (header size : ℕ) : ℕ := size / header + if size % header = 0 then 0 else 1

/-- The constructor, for headers of `header` bytes: one free block.  A buffer without units has no room
for its header. -/
def new (header nrBlocks blocksize : ℕ) : Option Variable := do
  let units := nrBlocks * (normalized header blocksize + 1)
  let p : Variable := { units, buffer := fun _ => ⟨none, 0⟩, head := none }
  let p ← p.store 0 ⟨none, units⟩
  some { p with head := some 0 }

/-- `if (previousBlock) previousBlock->next = next`. -/
def link (p : Variable) (previousBlock next : Option ℕ) : Option Variable :=
  match previousBlock with
  | none => some p
  | some b => p.setNext b next

/-- The loop of `malloc`: it ends on the block to hand out, taken out of the list but for `_head`, or on
null. -/
def mallocLoop (size : ℕ) :
    ℕ → (previousBlock currentBlock : Option ℕ) → Variable → Option (Variable × Option ℕ)
  | _, _, none, p => some (p, none)
  | 0, _, some _, _ => none
  | fuel + 1, previousBlock, some b, p => do
    let h ← p.load b
    -- consume whole block is size equals required size
    if h.size = size then do
      let p ← p.link previousBlock h.next
      some (p, some b)
    -- split block if size is larger and add second part to list of free blocks
    else if size < h.size then do
      let newBlock := b + size
      let p ← p.link previousBlock (some newBlock)
      let h ← p.load b
      let p ← p.setNext newBlock h.next
      let p ← p.setSize newBlock (h.size - size)
      let p ← p.setNext b (some newBlock)
      some (p, some b)
    else mallocLoop size fuel (some b) h.next p

/-- `malloc`: a pointer to the first unit behind the header. -/
def malloc (header : ℕ) (p : Variable) (size : ℕ) : Option (Variable × Option ℕ) :=
  if size = 0 then some (p, none)
  else do
    -- count by BlockHeader size, add 1 for header
    let size := normalized header size + 1
    let (p, currentBlock) ← mallocLoop size p.units none p.head p
    match currentBlock with
    | none => some (p, none)
    | some b => do
      let h ← p.load b
      let p := if some b = p.head then { p with head := h.next } else p
      let p ← p.setSize b size
      let p ← p.setNext b none
      some (p, some (b + 1))

/-- Step 1 of `free`: add block to linked list of free blocks, between `previous` and `next`. -/
def addToList (p : Variable) (toFree previous : ℕ) (next : Option ℕ) : Option Variable :=
  if p.head.any (toFree < ·) then do
    let p ← p.setNext toFree p.head
    some { p with head := some toFree }
  else do
    let p ← p.setNext previous (some toFree)
    p.setNext toFree next

/-- Step 2: merge with previous if adjacent.  It returns the block to go on with. -/
def mergePrevious (p : Variable) (toFree previous : ℕ) : Option (Variable × ℕ) :=
  if p.head.all (· < toFree) then do
    let h ← p.load previous
    if toFree = previous + h.size then do
      let t ← p.load toFree
      let p ← p.setSize previous (h.size + t.size)
      let p ← p.setNext previous t.next
      some (p, previous)
    else some (p, toFree)
  else some (p, toFree)

/-- Step 3: merge with next if adjacent. -/
def mergeNext (p : Variable) (toFree : ℕ) (next : Option ℕ) : Option Variable := do
  let t ← p.load toFree
  match next with
  | none => some p
  | some n =>
    if toFree + t.size = n then do
      let h ← p.load n
      let p ← p.setSize toFree (t.size + h.size)
      p.setNext toFree h.next
    else some p

/-- The loop of `free`: it looks for the first free block behind the one to free. -/
def freeLoop (toFree : ℕ) : ℕ → (previous : ℕ) → (next : Option ℕ) → Variable → Option Variable
  | 0, _, _, _ => none
  | fuel + 1, previous, next, p =>
    if next.all (toFree < ·) then do
      let p ← p.addToList toFree previous next
      let (p, toFree) ← p.mergePrevious toFree previous
      p.mergeNext toFree next
    else do
      let n ← next
      let h ← p.load n
      freeLoop toFree fuel n h.next p

/-- `free`.  The header is in front of what the pointer points to. -/
def free (p : Variable) (ptr : Option ℕ) : Option Variable :=
  match ptr with
  | none => some p
  | some 0 => none
  | some (toFree + 1) =>
    match p.head with
    -- toFree is the only free block
    | none => some { p with head := some toFree }
    | some next => freeLoop toFree (p.units + 1) 0 (some next) p

/-- A fold over the sizes of the free blocks. -/
def walk (f : ℕ → ℕ → ℕ) (p : Variable) : ℕ → Option ℕ → ℕ → Option ℕ
  | _, none, retVal => some retVal
  | 0, some _, _ => none
  | fuel + 1, some b, retVal => do
    let h ← p.load b
    p.walk f fuel h.next (f retVal h.size)

/-- `freeMemory`: what the free blocks have room for, their headers left out. -/
def freeMemory (header : ℕ) (p : Variable) : Option ℕ := do
  let retVal ← p.walk (fun retVal size => retVal + (size - 1)) p.units p.head 0
  some (retVal * header)

/-- `maxBlockSize`: what the longest free block has room for. -/
def maxBlockSize (header : ℕ) (p : Variable) : Option ℕ := do
  let retVal ← p.walk (fun retVal size => if retVal < size - 1 then size - 1 else retVal) p.units p.head 0
  some (retVal * header)

/-! ### Sequences of calls -/

/-- What the callers do with a pool: its two functions, and a write to memory they were given. -/
inductive Call
  | malloc (size : ℕ)
  | free (ptr : Option ℕ)
  | write (i : ℕ) (content : BlockHeader)

/-- One call, and the pointer `malloc` returns. -/
def step (header : ℕ) (p : Variable) : Call → Option (Variable × Option ℕ)
  | .malloc size => p.malloc header size
  | .free ptr => do
    let p ← p.free ptr
    some (p, none)
  | .write i content => do
    let p ← p.store i content
    some (p, none)

/-- A sequence of calls: the final pool and the pointers. -/
def run (header : ℕ) : Variable → List Call → Option (Variable × List (Option ℕ))
  | p, [] => some (p, [])
  | p, call :: calls => do
    let (p, ptr) ← p.step header call
    let (p, ptrs) ← run header p calls
    some (p, ptr :: ptrs)

end Variable

end MemoryPool

end EspMqttClient
