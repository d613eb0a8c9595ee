import DynamicRPC.Array
import DynamicRPC.Library.Memory

/-! The containers in memory: what each function allocates, reads and frees. -/

namespace DynamicRPC
open Outcome

def DrpcTypes.isNested : DrpcTypes → Bool
  | dArray | dStruct | dQueue => true
  | _ => false

namespace Heap

/-- `struct d_struct_element`; `sizedbuf_len` is the length of the block at `data`. -/
structure HeapElement where
  data : Nat
  isPacked : Bool
  type : DrpcTypes
  deriving DecidableEq

/-- The key and the value of an entry of a table, both pointers. -/
structure HeapField where
  key : Nat
  element : Nat
  deriving DecidableEq

/-- What an allocated block holds. A container is one block with its tables and
queues, which come and go with it. The tables and `heap_keys` note beside each
pointer to a key what was written there. -/
inductive Block
  | unwritten
  | string (s : CString)
  | bytes (block : List UInt8)
  | drpcType (type : DrpcTypes) (packedData : Nat)
  | element (e : HeapElement)
  | dstruct (d : DStruct HeapField) (heapKeys : List (Nat × CString))
  | dqueue (que : List Nat)
  | darray (a : DArray Nat)

/-- What a setter stores. -/
inductive Stored
  | scalar (type : DrpcTypes) (packedData : List UInt8) (wide : type.scalarWidth = some packedData.length)
  | str (s : CString)
  | sizedbuf (block : List UInt8)
  | container (type : DrpcTypes) (pointer : Nat) (isNested : type.isNested = true)

/-- The arguments `native_type` and `type` of a setter. -/
inductive Native
  | null
  | unsupported
  | stored (s : Stored)

/-- What a getter writes through `native_type`. -/
inductive Got
  | scalar (packedData : List UInt8)
  | pointer (data : Nat)
  deriving DecidableEq

section Blocks
variable (m : Memory Block)

def readElement (p : Nat) : Outcome HeapElement := do
  match ← m.read p with
  | .element e => pure e
  | .unwritten => .error .uninitialised
  | _ => .error .outside

def readStruct (p : Nat) : Outcome (DStruct HeapField × List (Nat × CString)) := do
  match ← m.read p with
  | .dstruct d heapKeys => pure (d, heapKeys)
  | _ => .error .outside

def readQueue (p : Nat) : Outcome (List Nat) := do
  match ← m.read p with
  | .dqueue que => pure que
  | _ => .error .outside

def readArray (p : Nat) : Outcome (DArray Nat) := do
  match ← m.read p with
  | .darray a => pure a
  | _ => .error .outside

def readRecord (p : Nat) : Outcome (DrpcTypes × Nat) := do
  match ← m.read p with
  | .drpcType type packedData => pure (type, packedData)
  | _ => .error .outside

/-- `strcmp` reads the keys that a probe passes; here it is all of the table. -/
def readKeys (table : Hashtable HeapField) : Outcome Unit :=
  table.bindings.forM fun binding => do
    match ← m.read binding.2.key with
    | .string s => if s = binding.1 then pure () else .error .outside
    | _ => .error .outside

/-- `drpc_to_X`, which copies as many bytes as the type has. -/
def drpcToScalar (p width : Nat) : Outcome (List UInt8) := do
  let (_, packedData) ← readRecord m p
  match ← m.read packedData with
  | .bytes block => if block.length < width then .error .outside else pure (block.take width)
  | _ => .error .outside

/-- `drpc_type_free`. -/
def drpcTypeFree (p : Nat) : Outcome (Memory Block) := do
  let (_, packedData) ← readRecord m p
  m.free packedData

/-- The switch over the type that every setter makes of a new or an emptied element. -/
def elementFill (element : Nat) : Stored → Outcome (Memory Block)
  | .scalar type packedData _ => do
    let (record, m) := m.alloc .unwritten
    let (data, m) := m.alloc (.bytes packedData)
    let m ← m.write record (.drpcType type data)
    m.write element (.element ⟨record, true, type⟩)
  | .str s => do
    let (data, m) := m.alloc (.string s)
    m.write element (.element ⟨data, false, .dStr⟩)
  | .sizedbuf block => do
    let (data, m) := m.alloc (.bytes block)
    m.write element (.element ⟨data, false, .dSizedbuf⟩)
  | .container type pointer _ => m.write element (.element ⟨pointer, false, type⟩)

/-- The switch of the getters. -/
def elementGet (e : HeapElement) : Outcome Got :=
  match e.type.scalarWidth with
  | some width => do
    let packedData ← drpcToScalar m e.data width
    pure (.scalar packedData)
  | none => pure (.pointer e.data)

/-- The switch of the two functions that pop: a scalar is freed once it is copied. -/
def elementPop (e : HeapElement) : Outcome (Memory Block × Got) := do
  let got ← elementGet m e
  if e.type.scalarWidth.isSome then do
    let m ← drpcTypeFree m e.data
    let m ← m.free e.data
    pure (m, got)
  else pure (m, got)

end Blocks

section Reads
variable {m : Memory Block} {p : Nat}

theorem readElement_eq {e : HeapElement} (content : m.cells p = some (.element e)) : readElement m p = .ok e := by
  rw [readElement, Memory.read_eq_ok.mpr content]
  rfl

theorem readStruct_eq {d : DStruct HeapField} {heapKeys : List (Nat × CString)}
    (content : m.cells p = some (.dstruct d heapKeys)) : readStruct m p = .ok (d, heapKeys) := by
  rw [readStruct, Memory.read_eq_ok.mpr content]
  rfl

theorem readQueue_eq {que : List Nat} (content : m.cells p = some (.dqueue que)) : readQueue m p = .ok que := by
  rw [readQueue, Memory.read_eq_ok.mpr content]
  rfl

theorem readArray_eq {a : DArray Nat} (content : m.cells p = some (.darray a)) : readArray m p = .ok a := by
  rw [readArray, Memory.read_eq_ok.mpr content]
  rfl

theorem readRecord_eq {type : DrpcTypes} {packedData : Nat} (content : m.cells p = some (.drpcType type packedData)) :
    readRecord m p = .ok (type, packedData) := by
  rw [readRecord, Memory.read_eq_ok.mpr content]
  rfl

end Reads

section Free
variable (free : DrpcTypes → Memory Block → Nat → Outcome (Memory Block)) (m : Memory Block)

/-- Freeing what an element holds, as all three containers do it. -/
def elementRelease (e : HeapElement) : Outcome (Memory Block) :=
  if e.isPacked then do
    let m ← drpcTypeFree m e.data
    m.free e.data
  else
    match e.type with
    | .dSizedbuf | .dStr => m.free e.data
    | .dStruct | .dQueue | .dArray => free e.type m e.data
    | _ => pure m

def elementFree (element : Nat) : Outcome (Memory Block) := do
  let e ← readElement m element
  let m ← elementRelease free m e
  m.free element

/-- `d_struct_free`. The keys are freed from `heap_keys`, whether or not the table still holds them. -/
def dStructFreeWith (p : Nat) : Outcome (Memory Block) :=
  if p = 0 then pure m
  else do
    let (d, heapKeys) ← readStruct m p
    let m ← d.hashtable.bindings.foldlM (fun m binding => elementFree free m binding.2.element) m
    let m ← heapKeys.foldlM (fun m heapKey => m.free heapKey.1) m
    m.free p

/-- `d_queue_free`. -/
def dQueueFreeWith (p : Nat) : Outcome (Memory Block) :=
  if p = 0 then pure m
  else do
    let que ← readQueue m p
    let m ← que.foldlM (elementFree free) m
    m.free p

/-- `d_array_remove`. -/
def dArrayRemoveWith (p index : Nat) : Outcome (Memory Block) := do
  let a ← readArray m p
  match ← dArrayGetInternal a index with
  | none => pure m
  | some element => do
    let a ← dArrayDelInternal a index
    let m ← m.write p (.darray a)
    elementFree free m element

/-- `d_array_free`, which skips the empty cells as `d_array_remove` does. -/
def dArrayFreeWith (p : Nat) : Outcome (Memory Block) := do
  let a ← readArray m p
  let m ← (List.range a.lookupSize).foldlM (fun m index => dArrayRemoveWith free m p index) m
  m.free p

end Free

/-- The three functions that free a container call one another; `depth` bounds
how deep the containers are nested. -/
def containerFree : Nat → DrpcTypes → Memory Block → Nat → Outcome (Memory Block)
  | 0, _, _, _ => .error .diverges
  | depth + 1, .dStruct, m, p => dStructFreeWith (containerFree depth) m p
  | depth + 1, .dQueue, m, p => dQueueFreeWith (containerFree depth) m p
  | depth + 1, .dArray, m, p => dArrayFreeWith (containerFree depth) m p
  | _ + 1, _, m, _ => pure m

section Calls
variable (m : Memory Block)

/-- Containers are not nested deeper than there are blocks. -/
def dStructFree (p : Nat) : Outcome (Memory Block) := containerFree m.next .dStruct m p

def dQueueFree (p : Nat) : Outcome (Memory Block) := containerFree m.next .dQueue m p

def dArrayFree (p : Nat) : Outcome (Memory Block) := containerFree m.next .dArray m p

def release (e : HeapElement) : Outcome (Memory Block) := elementRelease (containerFree m.next) m e

def newDStruct : Nat × Memory Block := m.alloc (.dstruct DynamicRPC.newDStruct [])

def newDQueue : Nat × Memory Block := m.alloc (.dqueue [])

def newDArray (startCapacity : Nat) : Nat × Memory Block := m.alloc (.darray (DynamicRPC.newDArray startCapacity))

/-- `d_struct_set`. Every call leaves its copy of the key in `heap_keys`. -/
def dStructSet (p : Nat) (key : CString) (native : Native) : Outcome (Memory Block) :=
  if p = 0 then .error .assertion
  else
    match native with
    | .null => pure m
    | native => do
      let (heapKey, m) := m.alloc (.string key)
      let (d, heapKeys) ← readStruct m p
      let heapKeys := heapKeys ++ [(heapKey, key)]
      let m ← m.write p (.dstruct d heapKeys)
      readKeys m d.hashtable
      match ← hashtableGet d.hashtable key with
      | none => do
        let (element, m) := m.alloc .unwritten
        let table ← hashtableSet d.hashtable key ⟨heapKey, element⟩
        match native with
        | .stored s => do
          let m ← elementFill m element s
          m.write p (.dstruct ⟨table, d.currentLen + 1⟩ heapKeys)
        | _ => do
          let table ← hashtableRemove table key
          let m ← m.free element
          m.write p (.dstruct ⟨table, d.currentLen⟩ heapKeys)
      | some field => do
        let e ← readElement m field.element
        let m ← release m e
        match native with
        | .stored s => do
          let m ← elementFill m field.element s
          m.write p (.dstruct ⟨d.hashtable, d.currentLen - 1 + 1⟩ heapKeys)
        | _ => do
          let table ← hashtableRemove d.hashtable key
          let m ← m.free field.element
          m.write p (.dstruct ⟨table, d.currentLen - 1⟩ heapKeys)

/-- `d_struct_get`, or `none` for the return value 1. -/
def dStructGet (p : Nat) (key : CString) (type : DrpcTypes) : Outcome (Option Got) := do
  let (d, _) ← readStruct m p
  readKeys m d.hashtable
  match ← hashtableGet d.hashtable key with
  | none => pure none
  | some field => do
    let e ← readElement m field.element
    if e.type = type then do
      let got ← elementGet m e
      pure (some got)
    else pure none

/-- `d_struct_remove`. -/
def dStructRemove (p : Nat) (key : CString) : Outcome (Memory Block) := do
  let (d, heapKeys) ← readStruct m p
  readKeys m d.hashtable
  match ← hashtableGet d.hashtable key with
  | none => pure m
  | some field => do
    let table ← hashtableRemove d.hashtable key
    let m ← m.write p (.dstruct ⟨table, d.currentLen - 1⟩ heapKeys)
    let e ← readElement m field.element
    let m ← release m e
    m.free field.element

/-- `d_struct_unlink`, with the element that it took apart. -/
def dStructUnlink (p : Nat) (key : CString) : Outcome (Memory Block × Option HeapElement) := do
  let (d, heapKeys) ← readStruct m p
  readKeys m d.hashtable
  match ← hashtableGet d.hashtable key with
  | none => pure (m, none)
  | some field => do
    let e ← readElement m field.element
    if e.isPacked then pure (m, none)
    else do
      let m ← m.free field.element
      let table ← hashtableRemove d.hashtable key
      let m ← m.write p (.dstruct ⟨table, d.currentLen - 1⟩ heapKeys)
      pure (m, some e)

/-- `d_queue_push`. -/
def dQueuePush (p : Nat) (native : Native) : Outcome (Memory Block) :=
  if p = 0 then .error .assertion
  else
    match native with
    | .null => .error .assertion
    | native => do
      let (element, m) := m.alloc .unwritten
      match native with
      | .stored s => do
        let m ← elementFill m element s
        let que ← readQueue m p
        m.write p (.dqueue (que ++ [element]))
      | _ => m.free element

/-- `d_queue_pop_with_type`; `d_queue_pop` is the same with a type that it
compares first, putting an element of another type back at the end. -/
def dQueuePopWith (wanted : Option DrpcTypes) (p : Nat) : Outcome (Memory Block × Option (HeapElement × Got)) :=
  if p = 0 then pure (m, none)
  else do
    match ← readQueue m p with
    | [] => pure (m, none)
    | element :: que => do
      let m ← m.write p (.dqueue que)
      let e ← readElement m element
      if ∃ type ∈ wanted, e.type ≠ type then do
        let m ← m.write p (.dqueue (que ++ [element]))
        pure (m, none)
      else do
        let (m, got) ← elementPop m e
        let m ← m.free element
        pure (m, some (e, got))

def dQueuePop (p : Nat) (type : DrpcTypes) : Outcome (Memory Block × Option (HeapElement × Got)) :=
  dQueuePopWith m (some type) p

def dQueuePopWithType (p : Nat) : Outcome (Memory Block × Option (HeapElement × Got)) := dQueuePopWith m none p

/-- `d_array_set`. An unsupported type frees the element and leaves the pointer to it in the table. -/
def dArraySet (p index : Nat) (native : Native) : Outcome (Memory Block) :=
  if p = 0 then .error .assertion
  else
    match native with
    | .null => .error .assertion
    | native => do
      let a ← readArray m p
      let (element, m) ← match ← dArrayGetInternal a index with
        | none => pure (m.alloc .unwritten)
        | some element => do
          let e ← readElement m element
          let m ← release m e
          pure (element, m)
      match native with
      | .stored s => do
        let m ← elementFill m element s
        let (a, stray) := dArraySetInternal a index (some element)
        if stray = [] then m.write p (.darray a) else .error .outside
      | _ => m.free element

/-- `d_array_get`, or `none` for the return value 1. -/
def dArrayGet (p index : Nat) (type : DrpcTypes) : Outcome (Option Got) := do
  let a ← readArray m p
  match ← dArrayGetInternal a index with
  | none => pure none
  | some element => do
    let e ← readElement m element
    if e.type = type then do
      let got ← elementGet m e
      pure (some got)
    else pure none

def dArrayRemove (p index : Nat) : Outcome (Memory Block) :=
  dArrayRemoveWith (containerFree m.next) m p index

/-- `d_array_unlink`, with the element that it took apart. -/
def dArrayUnlink (p index : Nat) : Outcome (Memory Block × Option HeapElement) := do
  let a ← readArray m p
  match ← dArrayGetInternal a index with
  | none => pure (m, none)
  | some element => do
    let e ← readElement m element
    if e.isPacked then pure (m, none)
    else do
      let a ← dArrayDelInternal a index
      let m ← m.write p (.darray a)
      let m ← m.free element
      pure (m, some e)

end Calls
end Heap
end DynamicRPC
