import DynamicRPC.Struct

namespace DynamicRPC

/-- A cell of the lookup table: not written since it was allocated, `NULL`, a
pointer to a live element, or a pointer to one that was released. -/
inductive Cell (E : Type)
  | uninit
  | null
  | elem (e : E)
  | dangling
  deriving DecidableEq

def Cell.ofPointer {E : Type} : Option E → Cell E
  | none => .null
  | some e => .elem e

def Cell.map {E F : Type} (f : E → F) : Cell E → Cell F
  | .uninit => .uninit
  | .null => .null
  | .elem e => .elem (f e)
  | .dangling => .dangling

/-- The element that a cell points to. -/
def Cell.element {E : Type} : Cell E → Option E
  | .elem e => some e
  | _ => none

/-- `lookup_size` is the length of `lookupTable`. -/
structure DArray (E : Type) where
  realSize : Nat
  lookupTable : List (Cell E)
  deriving DecidableEq

variable {E : Type}

def DArray.lookupSize (a : DArray E) : Nat := a.lookupTable.length

/-- The element at an index, as a reader who trusts the table sees it. -/
def DArray.lookup (a : DArray E) (index : Nat) : Option E := a.lookupTable[index]?.bind Cell.element

def DArray.elements (a : DArray E) : List E := a.lookupTable.filterMap Cell.element

/-- Every cell is `NULL` or points to a live element, `real_size` counts at
least these, and the table is an allocated block. -/
structure DArray.Wf (a : DArray E) : Prop where
  initialised : .uninit ∉ a.lookupTable
  live : .dangling ∉ a.lookupTable
  counted : a.elements.length ≤ a.realSize
  allocated : a.lookupSize < 2 ^ 61

/-- The occupied indices are exactly the first ones. -/
def DArray.Dense (a : DArray E) : Prop := ∃ n, ∀ index, (a.lookup index).isSome ↔ index < n

def newDArray (startCapacity : Nat) : DArray E where
  realSize := 0
  lookupTable := List.replicate (if startCapacity = 0 then 1 else startCapacity) .null

/-- `sizeof(*darray->lookup_table)`. -/
def cellBytes : Nat := 8

/-- The growth of the table in `d_array_set_internal`, with the cells behind
the new table that its `memset` writes. The offset of the `memset` is scaled
by the cell size twice, by the code and by the pointer arithmetic. -/
def dArrayGrow (table : List (Cell E)) (index : Nat) : List (Cell E) × List Nat :=
  let prev := table.length
  let size := (index + 1) * 3 / 2
  let first := prev * cellBytes
  let realloced := table ++ List.replicate (size - prev) .uninit
  (realloced.mapIdx fun i cell => if first ≤ i ∧ i < first + (size - prev) then .null else cell,
    (List.range' first (size - prev)).filter (size ≤ ·))

/-- `d_array_set_internal`, with the cells it writes outside the table. -/
def dArraySetInternal (a : DArray E) (index : Nat) (element : Option E) : DArray E × List Nat :=
  let (table, stray) := if a.lookupSize ≤ index then dArrayGrow a.lookupTable index else (a.lookupTable, [])
  ({ realSize := a.realSize + 1, lookupTable := table.set index (Cell.ofPointer element) }, stray)

def dArrayGetInternal (a : DArray E) (index : Nat) : Outcome (Option E) :=
  match a.lookupTable[index]? with
  | none => pure none
  | some .null => pure none
  | some (.elem e) => pure (some e)
  | some .uninit => .error .uninitialised
  | some .dangling => .error .outside

def dArrayDelInternal (a : DArray E) (index : Nat) : Outcome (DArray E) := do
  let found ← dArrayGetInternal a index
  match found with
  | none => pure a
  | some _ => pure { realSize := a.realSize - 1, lookupTable := a.lookupTable.set index .null }

/-- `d_array_set`, with the cells written outside the table. An unsupported
type releases the element of an occupied cell and leaves the cell. -/
def dArraySet (a : DArray E) (index : Nat) : Native E → Outcome (DArray E × List Nat)
  | .null => .error .assertion
  | .element e => do
    let _ ← dArrayGetInternal a index
    pure (dArraySetInternal a index (some e))
  | .unsupported => do
    let found ← dArrayGetInternal a index
    match found with
    | none => pure (a, [])
    | some _ => pure ({ a with lookupTable := a.lookupTable.set index .dangling }, [])

def dArrayRemove (a : DArray E) (index : Nat) : Outcome (DArray E) := dArrayDelInternal a index

def dArrayLen (a : DArray E) : Nat := a.realSize

section Typed
variable [DStructElement E]

/-- `d_array_get`: the element, or `none` for the return value 1. -/
def dArrayGet (a : DArray E) (index : Nat) (type : UInt8) : Outcome (Option E) := do
  let found ← dArrayGetInternal a index
  pure (found.filter fun e => DStructElement.type e == type)

def dArrayGetType (a : DArray E) (index : Nat) : Outcome UInt8 := do
  let found ← dArrayGetInternal a index
  pure ((found.map DStructElement.type).getD DrpcTypes.dVoid.toChar)

/-- `d_array_unlink`, with its success. Packed elements stay. -/
def dArrayUnlink (a : DArray E) (index : Nat) : Outcome (DArray E × Bool) := do
  let found ← dArrayGetInternal a index
  match found with
  | some e =>
    if DStructElement.isPacked e then pure (a, false)
    else do
      let a' ← dArrayDelInternal a index
      pure (a', true)
  | none => pure (a, false)

end Typed

end DynamicRPC
