import DynamicRPC.Library.Memory
import DynamicRPC.Library.Paged

namespace DynamicRPC
open Outcome
variable {α : Type}

/-- `bk_err`. -/
inductive BkErr
  | ok
  | enomem
  | einval
  | erange
  deriving DecidableEq, Repr

/-- A block, where `none` is room for an element that nothing has written. -/
abbrev DequeBlock (α : Type) := List (Option α)

/-- `struct internal_deque`. In `data`, `none` is an entry that nothing has written. -/
structure InternalDeque where
  dataSize : Nat
  blockSize : Nat
  startIndex : Nat
  endIndex : Nat
  blockCount : Nat
  allocBlockStart : Nat
  allocBlockEnd : Nat
  data : List (Option Nat)
  deriving DecidableEq, Repr

/-- What a call leaves behind, whether or not it refuses. -/
structure DequeResult (α : Type) where
  err : BkErr
  me : InternalDeque
  heap : Memory (DequeBlock α)

/-- A subtraction of type `size_t`. -/
def sizeSub (a b : Nat) : Nat := (a + 2 ^ 64 - b) % 2 ^ 64

namespace InternalDeque

/-- A read of the block table. -/
def load (me : InternalDeque) (index : Nat) : Outcome Nat :=
  match me.data[index]? with
  | some (some block) => pure block
  | some none => .error .uninitialised
  | none => .error .outside

/-- A write to the block table. -/
def store (me : InternalDeque) (index block : Nat) : Outcome InternalDeque :=
  if index < me.data.length then pure { me with data := me.data.set index (some block) } else .error .outside

/-- `memmove` of `count` entries inside the block table. -/
def memmove (me : InternalDeque) (target source count : Nat) : Outcome InternalDeque :=
  if source + count ≤ me.data.length ∧ target + count ≤ me.data.length then
    pure { me with
      data := me.data.take target ++ (me.data.drop source).take count ++ me.data.drop (target + count) }
  else .error .outside

/-- `realloc` of the block table to more entries. -/
def realloc (me : InternalDeque) (count : Nat) : InternalDeque :=
  { me with data := me.data ++ List.replicate (count - me.data.length) none }

/-- The copy of an element out of its block. -/
def readElement (me : InternalDeque) (heap : Memory (DequeBlock α)) (index : Nat) : Outcome α := do
  let block ← me.load (index / me.blockSize)
  let elements ← heap.read block
  match elements[index % me.blockSize]? with
  | some (some element) => pure element
  | some none => .error .uninitialised
  | none => .error .outside

/-- The copy of an element into its block. -/
def writeElement (me : InternalDeque) (heap : Memory (DequeBlock α)) (index : Nat) (data : α) :
    Outcome (Memory (DequeBlock α)) := do
  let block ← me.load (index / me.blockSize)
  let elements ← heap.read block
  if index % me.blockSize < elements.length then
    heap.write block (elements.set (index % me.blockSize) (some data))
  else .error .outside

/-- The loop that frees the blocks from `i` to `last`. -/
def freeBlocks (me : InternalDeque) (heap : Memory (DequeBlock α)) (i : Nat) : Nat → Outcome (Memory (DequeBlock α))
  | 0 => pure heap
  | count + 1 => do
    let block ← me.load i
    let heap ← heap.free block
    me.freeBlocks heap (i + 1) count

end InternalDeque

/-- `malloc` of a block. -/
def mallocBlock (heap : Memory (DequeBlock α)) (blockSize : Nat) : Nat × Memory (DequeBlock α) :=
  heap.alloc (List.replicate blockSize none)

def dequeInitialBlockCount : Nat := 8

/-- The fields that `deque_init` and `deque_clear` set: one block in the middle of a table of eight. -/
def InternalDeque.initial (dataSize blockSize block : Nat) : InternalDeque :=
  let startIndex := blockSize * dequeInitialBlockCount / 2
  { dataSize, blockSize, startIndex
    endIndex := startIndex
    blockCount := dequeInitialBlockCount
    allocBlockStart := startIndex / blockSize
    allocBlockEnd := startIndex / blockSize
    data := (List.replicate dequeInitialBlockCount none).set (startIndex / blockSize) (some block) }

/-- The number of elements in a block of `deque_init`. -/
def dequeBlockSize (dataSize : Nat) : Nat := if 4096 / dataSize < 16 then 16 else 4096 / dataSize

/-- `deque_init`; `none` is `NULL`, and `granted` says whether its three calls of `malloc` succeed. -/
def dequeInit (granted : Bool) (dataSize : Nat) (heap : Memory (DequeBlock α)) :
    Option (InternalDeque × Memory (DequeBlock α)) :=
  if dataSize = 0 ∨ !granted then none
  else if dequeBlockSize dataSize * dataSize % 2 ^ 64 / dataSize ≠ dequeBlockSize dataSize then none
  else
    let made := mallocBlock heap (dequeBlockSize dataSize)
    some (.initial dataSize (dequeBlockSize dataSize) made.1, made.2)

def dequeSize (me : InternalDeque) : Nat := me.endIndex - me.startIndex

def dequeIsEmpty (me : InternalDeque) : Bool := dequeSize me = 0

/-- The rounding of a natural number to a `double`, to nearest and to even. -/
def roundDouble (n : Nat) : Nat :=
  let unit := 2 ^ (Nat.log2 n - 52)
  if n % unit * 2 < unit ∨ n % unit * 2 = unit ∧ n / unit % 2 = 0 then n / unit * unit else (n / unit + 1) * unit

/-- `block_count * BKTHOMPS_DEQUE_RESIZE_RATIO` as a `size_t`: a product of `double`s, truncated. -/
def resized (blockCount : Nat) : Nat := roundDouble (3 * roundDouble blockCount) / 2

/-- `deque_get_new_block_count`. -/
def dequeGetNewBlockCount (me : InternalDeque) : Nat :=
  let blockLimit := (2 ^ 64 - 1) / me.blockSize
  if blockLimit = me.blockCount then 0
  else if resized me.blockCount > blockLimit ∨ resized me.blockCount ≤ me.blockCount then blockLimit
  else resized me.blockCount

section Push
variable (realloc malloc : Bool) (me : InternalDeque) (heap : Memory (DequeBlock α)) (data : α)

/-- What `deque_push_back` does when the table has no entry after the last block:
the blocks move towards its start, or the table grows. `realloc` says whether
that call succeeds. -/
def dequeMakeRoomBack : Outcome (BkErr × InternalDeque) :=
  if me.endIndex = me.blockCount * me.blockSize then
    let availableStart := me.allocBlockStart
    if availableStart > dequeInitialBlockCount then do
      let shiftStart := availableStart - availableStart / 2
      let allocatedBlocks := me.allocBlockEnd - me.allocBlockStart + 1
      let moved ← me.memmove (me.allocBlockStart / 2) me.allocBlockStart allocatedBlocks
      pure (.ok, { moved with
        startIndex := me.startIndex - shiftStart * me.blockSize
        endIndex := me.endIndex - shiftStart * me.blockSize
        allocBlockStart := me.allocBlockStart - shiftStart
        allocBlockEnd := me.allocBlockEnd - shiftStart })
    else
      let newBlockCount := dequeGetNewBlockCount me
      if newBlockCount = 0 then pure (.erange, me)
      else if realloc then pure (.ok, { me.realloc newBlockCount with blockCount := newBlockCount })
      else pure (.enomem, me)
  else pure (.ok, me)

/-- What `deque_push_back` does at the start of a block that is not there yet:
a block that the front no longer needs is used again, or a new one is made. -/
def dequeTakeBlockBack : Outcome (DequeResult α) :=
  let addBlockIndex := me.endIndex / me.blockSize
  if me.endIndex % me.blockSize = 0 ∧ addBlockIndex > me.allocBlockEnd then
    let startBlock := me.startIndex / me.blockSize
    if startBlock > me.allocBlockStart then do
      let block ← me.load me.allocBlockStart
      let me ← me.store addBlockIndex block
      pure ⟨.ok, { me with allocBlockStart := me.allocBlockStart + 1, allocBlockEnd := me.allocBlockEnd + 1 }, heap⟩
    else if malloc then do
      let made := mallocBlock heap me.blockSize
      let me ← me.store addBlockIndex made.1
      pure ⟨.ok, { me with allocBlockEnd := me.allocBlockEnd + 1 }, made.2⟩
    else do
      let me ← me.store addBlockIndex 0
      pure ⟨.enomem, me, heap⟩
  else pure ⟨.ok, me, heap⟩

def dequePushBack : Outcome (DequeResult α) := do
  let room ← dequeMakeRoomBack realloc me
  if room.1 ≠ .ok then pure ⟨room.1, room.2, heap⟩
  else do
    let taken ← dequeTakeBlockBack malloc room.2 heap
    if taken.err ≠ .ok then pure taken
    else do
      let heap ← taken.me.writeElement taken.heap taken.me.endIndex data
      pure ⟨.ok, { taken.me with endIndex := taken.me.endIndex + 1 }, heap⟩

/-- What `deque_push_front` does when the table has no entry before the first block. -/
def dequeMakeRoomFront : Outcome (BkErr × InternalDeque) :=
  if me.startIndex = 0 then
    let availableEnd := me.blockCount - me.allocBlockEnd - 1
    if availableEnd > dequeInitialBlockCount then do
      let shiftEnd := availableEnd / 2
      let allocatedBlocks := me.allocBlockEnd - me.allocBlockStart + 1
      let moved ← me.memmove (me.allocBlockStart + shiftEnd) me.allocBlockStart allocatedBlocks
      pure (.ok, { moved with
        startIndex := me.startIndex + shiftEnd * me.blockSize
        endIndex := me.endIndex + shiftEnd * me.blockSize
        allocBlockStart := me.allocBlockStart + shiftEnd
        allocBlockEnd := me.allocBlockEnd + shiftEnd })
    else
      let newBlockCount := dequeGetNewBlockCount me
      if newBlockCount = 0 then pure (.erange, me)
      else if realloc then do
        let addedBlocks := newBlockCount - me.blockCount
        let moved ← (me.realloc newBlockCount).memmove addedBlocks 0 me.blockCount
        pure (.ok, { moved with
          blockCount := newBlockCount
          startIndex := me.startIndex + addedBlocks * me.blockSize
          endIndex := me.endIndex + addedBlocks * me.blockSize
          allocBlockStart := me.allocBlockStart + addedBlocks
          allocBlockEnd := me.allocBlockEnd + addedBlocks })
      else pure (.enomem, me)
  else pure (.ok, me)

/-- What `deque_push_front` does at the end of a block that is not there yet. -/
def dequeTakeBlockFront : Outcome (DequeResult α) :=
  let addBlockIndex := sizeSub (me.startIndex / me.blockSize) 1
  if me.startIndex % me.blockSize = 0 ∧ addBlockIndex < me.allocBlockStart then
    let endBlock := sizeSub me.endIndex 1 / me.blockSize
    if endBlock < me.allocBlockEnd then do
      let block ← me.load me.allocBlockEnd
      let me ← me.store addBlockIndex block
      pure ⟨.ok, { me with allocBlockEnd := me.allocBlockEnd - 1, allocBlockStart := me.allocBlockStart - 1 }, heap⟩
    else if malloc then do
      let made := mallocBlock heap me.blockSize
      let me ← me.store addBlockIndex made.1
      pure ⟨.ok, { me with allocBlockStart := me.allocBlockStart - 1 }, made.2⟩
    else do
      let me ← me.store addBlockIndex 0
      pure ⟨.enomem, me, heap⟩
  else pure ⟨.ok, me, heap⟩

def dequePushFront : Outcome (DequeResult α) := do
  let room ← dequeMakeRoomFront realloc me
  if room.1 ≠ .ok then pure ⟨room.1, room.2, heap⟩
  else do
    let taken ← dequeTakeBlockFront malloc room.2 heap
    if taken.err ≠ .ok then pure taken
    else do
      let me := { taken.me with startIndex := taken.me.startIndex - 1 }
      let heap ← me.writeElement taken.heap me.startIndex data
      pure ⟨.ok, me, heap⟩

end Push

/-- `deque_pop_front`: `none` is `-BK_EINVAL`. -/
def dequePopFront (me : InternalDeque) (heap : Memory (DequeBlock α)) : Outcome (Option α × InternalDeque) :=
  if dequeIsEmpty me then pure (none, me)
  else do
    let data ← me.readElement heap me.startIndex
    pure (some data, { me with startIndex := me.startIndex + 1 })

/-- `deque_pop_back`: `none` is `-BK_EINVAL`. -/
def dequePopBack (me : InternalDeque) (heap : Memory (DequeBlock α)) : Outcome (Option α × InternalDeque) :=
  if dequeIsEmpty me then pure (none, me)
  else do
    let data ← me.readElement heap (me.endIndex - 1)
    pure (some data, { me with endIndex := me.endIndex - 1 })

/-- `deque_set_at`. -/
def dequeSetAt (me : InternalDeque) (heap : Memory (DequeBlock α)) (index : Nat) (data : α) : Outcome (DequeResult α) :=
  if index ≥ dequeSize me then pure ⟨.einval, me, heap⟩
  else do
    let heap ← me.writeElement heap ((index + me.startIndex) % 2 ^ 64) data
    pure ⟨.ok, me, heap⟩

/-- `deque_get_at`: `none` is `-BK_EINVAL`. -/
def dequeGetAt (me : InternalDeque) (heap : Memory (DequeBlock α)) (index : Nat) : Outcome (Option α) :=
  if index ≥ dequeSize me then pure none
  else do
    let data ← me.readElement heap ((index + me.startIndex) % 2 ^ 64)
    pure (some data)

def dequeSetFirst (me : InternalDeque) (heap : Memory (DequeBlock α)) (data : α) : Outcome (DequeResult α) :=
  dequeSetAt me heap 0 data

def dequeSetLast (me : InternalDeque) (heap : Memory (DequeBlock α)) (data : α) : Outcome (DequeResult α) :=
  dequeSetAt me heap (sizeSub (dequeSize me) 1) data

def dequeGetFirst (me : InternalDeque) (heap : Memory (DequeBlock α)) : Outcome (Option α) := dequeGetAt me heap 0

def dequeGetLast (me : InternalDeque) (heap : Memory (DequeBlock α)) : Outcome (Option α) :=
  dequeGetAt me heap (sizeSub (dequeSize me) 1)

/-- `deque_clear`; `granted` says whether its two calls of `malloc` succeed. -/
def dequeClear (granted : Bool) (me : InternalDeque) (heap : Memory (DequeBlock α)) : Outcome (DequeResult α) :=
  if !granted then pure ⟨.enomem, me, heap⟩
  else do
    let made := mallocBlock heap me.blockSize
    let heap ← me.freeBlocks made.2 me.allocBlockStart (me.allocBlockEnd + 1 - me.allocBlockStart)
    pure ⟨.ok, .initial me.dataSize me.blockSize made.1, heap⟩

/-- `deque_destroy`: what is left of the memory. -/
def dequeDestroy (me : InternalDeque) (heap : Memory (DequeBlock α)) : Outcome (Memory (DequeBlock α)) :=
  me.freeBlocks heap me.allocBlockStart (me.allocBlockEnd + 1 - me.allocBlockStart)

/-- `deque_trim`; `granted` says whether its call of `malloc` succeeds. -/
def dequeTrim (granted : Bool) (me : InternalDeque) (heap : Memory (DequeBlock α)) : Outcome (DequeResult α) :=
  let startBlockIndex := me.startIndex / me.blockSize
  let endBlockIndex := if dequeIsEmpty me then startBlockIndex else (me.endIndex - 1) / me.blockSize
  let updatedBlockCount := endBlockIndex - startBlockIndex + 1
  if !granted then pure ⟨.enomem, me, heap⟩
  else if me.data.length < startBlockIndex + updatedBlockCount then .error .outside
  else do
    let heap ← me.freeBlocks heap me.allocBlockStart (startBlockIndex - me.allocBlockStart)
    let heap ← me.freeBlocks heap (endBlockIndex + 1) (me.allocBlockEnd - endBlockIndex)
    pure ⟨.ok, { me with
      startIndex := me.startIndex - startBlockIndex * me.blockSize
      endIndex := me.endIndex - startBlockIndex * me.blockSize
      blockCount := updatedBlockCount
      allocBlockStart := 0
      allocBlockEnd := updatedBlockCount - 1
      data := (me.data.drop startBlockIndex).take updatedBlockCount }, heap⟩

end DynamicRPC
