import DynamicRPC.ArrayFields
import DynamicRPC.Element
import DynamicRPC.Queue

namespace DynamicRPC
open LittleEndian

/-- A container element with the record that packing it made. Packing a
container rewrites the queues in it, so the element is kept too. -/
structure Packed where
  element : Element
  data : DrpcType

def strToDrpc (s : CString) : DrpcType := ⟨DrpcTypes.dStr.toChar, s.block⟩

def sizedbufToDrpc (block : List UInt8) : DrpcType := ⟨DrpcTypes.dSizedbuf.toChar, block⟩

def dStructToDrpc (buf : List UInt8) : DrpcType := ⟨DrpcTypes.dStruct.toChar, buf⟩

def dQueueToDrpc (buf : List UInt8) : DrpcType := ⟨DrpcTypes.dQueue.toChar, buf⟩

def dArrayToDrpc (buf : List UInt8) : DrpcType := ⟨DrpcTypes.dArray.toChar, buf⟩

def voidToDrpc : DrpcType := ⟨DrpcTypes.dVoid.toChar, []⟩

/-- The record of a struct field: the key, its NUL and the packed value. -/
def keyedRecord (key : CString) (item : Packed) : DrpcType :=
  ⟨item.element.type, key.block ++ drpcBuf item.data⟩

/-- The record of a queue entry. -/
def queueRecord : Option Packed → DrpcType
  | none => voidToDrpc
  | some item => ⟨item.element.type, drpcBuf item.data⟩

/-- `d_struct_buf` over fields that are packed already. The record table has
`current_len` rows, whatever the loop over the hashtable finds. -/
def dStructBufPacked (d : DStruct Packed) : Outcome (List UInt8) :=
  if d.currentLen = 0 then pure (u64 0)
  else
    let records := d.hashtable.bindings.map fun field => keyedRecord field.1 field.2
    if d.currentLen < records.length then .error .outside
    else if records.length < d.currentLen then .error .uninitialised
    else pure (drpcTypesBuf records)

/-- The loop of `d_queue_buf`: every entry is popped, packed and pushed back. -/
def dQueueBufLoop : Nat → List (Option Packed) → List DrpcType → List (Option Packed) × List DrpcType
  | 0, que, records => (que, records)
  | count + 1, que, records =>
    let (element, que) := queuePop que
    dQueueBufLoop count (queuePush que element) (records ++ [queueRecord element])

def dQueueBufPacked (que : List (Option Packed)) : List (Option Packed) × List UInt8 :=
  let (que, records) := dQueueBufLoop (queueCount que) que []
  (que, drpcTypesBuf records)

/-- The temporary struct of `d_array_buf`, keyed by the printed indices. -/
def dArrayBufFields (cells : List (Cell Packed)) : Outcome (DStruct Packed) :=
  cells.zipIdx.foldlM (fun packed entry =>
    match entry with
    | (.null, _) => pure packed
    | (.elem item, i) => dStructInsert packed (CString.sprintfZu i) item
    | (.uninit, _) => .error .uninitialised
    | (.dangling, _) => .error .outside) newDStruct

def dArrayBufPacked (cells : List (Cell Packed)) : Outcome (List UInt8) := do
  let packed ← dArrayBufFields cells
  dStructBufPacked packed

mutual
/-- The `X_to_drpc` of an element's type, or the record it holds already. -/
def Element.pack : Element → Outcome Packed
  | .packed type data => pure ⟨.packed type data, data⟩
  | .str block => do
    let s ← CString.read block
    pure ⟨.str block, strToDrpc s⟩
  | .sizedbuf block => pure ⟨.sizedbuf block, sizedbufToDrpc block⟩
  | .dstruct ⟨⟨size, body⟩, currentLen⟩ => do
    let body ← packEntries body
    let buf ← dStructBufPacked ⟨⟨size, body⟩, currentLen⟩
    pure ⟨.dstruct ⟨⟨size, body.map (HashtableEntry.map Packed.element)⟩, currentLen⟩, dStructToDrpc buf⟩
  | .queue q => do
    let q ← packQueue q
    let (q, buf) := dQueueBufPacked q
    pure ⟨.queue (q.map (Option.map Packed.element)), dQueueToDrpc buf⟩
  | .array ⟨realSize, cells⟩ => do
    let cells ← packCells cells
    let buf ← dArrayBufPacked cells
    pure ⟨.array ⟨realSize, cells.map (Cell.map Packed.element)⟩, dArrayToDrpc buf⟩

def packEntries : List (HashtableEntry Element) → Outcome (List (HashtableEntry Packed))
  | [] => pure []
  | .null :: rest => do
    let rest ← packEntries rest
    pure (.null :: rest)
  | .dead :: rest => do
    let rest ← packEntries rest
    pure (.dead :: rest)
  | .live key e :: rest => do
    let item ← e.pack
    let rest ← packEntries rest
    pure (.live key item :: rest)

def packQueue : List (Option Element) → Outcome (List (Option Packed))
  | [] => pure []
  | none :: rest => do
    let rest ← packQueue rest
    pure (none :: rest)
  | some e :: rest => do
    let item ← e.pack
    let rest ← packQueue rest
    pure (some item :: rest)

def packCells : List (Cell Element) → Outcome (List (Cell Packed))
  | [] => pure []
  | .uninit :: rest => do
    let rest ← packCells rest
    pure (.uninit :: rest)
  | .null :: rest => do
    let rest ← packCells rest
    pure (.null :: rest)
  | .dangling :: rest => do
    let rest ← packCells rest
    pure (.dangling :: rest)
  | .elem e :: rest => do
    let item ← e.pack
    let rest ← packCells rest
    pure (.elem item :: rest)
end

/-- `d_struct_buf`, with the struct as it leaves it. -/
def dStructBuf (d : DStruct Element) : Outcome (List UInt8 × DStruct Element) := do
  let body ← packEntries d.hashtable.body
  let buf ← dStructBufPacked ⟨⟨d.hashtable.size, body⟩, d.currentLen⟩
  pure (buf, ⟨⟨d.hashtable.size, body.map (HashtableEntry.map Packed.element)⟩, d.currentLen⟩)

/-- `d_queue_buf`, with the queue as it leaves it. -/
def dQueueBuf (q : DQueue) : Outcome (List UInt8 × DQueue) := do
  let q ← packQueue q
  let (q, buf) := dQueueBufPacked q
  pure (buf, q.map (Option.map Packed.element))

/-- `d_array_buf`, with the array as it leaves it. -/
def dArrayBuf (a : DArray Element) : Outcome (List UInt8 × DArray Element) := do
  let cells ← packCells a.lookupTable
  let buf ← dArrayBufPacked cells
  pure (buf, ⟨a.realSize, cells.map (Cell.map Packed.element)⟩)

/-- `buf_d_struct`, over the switch that rebuilds one element from its type and
the memory behind the key. -/
def bufDStructWith (unpack : UInt8 → List UInt8 → Outcome Element) (buf : List UInt8) (d : DStruct Element) :
    Outcome (DStruct Element) :=
  if buf.length < 8 then .error .outside
  else if buf.take 8 = u64 0 then pure d
  else do
    let (packedTypes, _) ← bufDrpcTypes buf
    packedTypes.foldlM (fun d t =>
      if t.type = DrpcTypes.dVoid.toChar then pure d
      else do
        let key ← CString.read t.packedData
        let element ← unpack t.type (t.packedData.drop (key.bytes.length + 1))
        dStructInsert d key element) d

def bufDQueueWith (unpack : UInt8 → List UInt8 → Outcome Element) (buf : List UInt8) (q : DQueue) :
    Outcome DQueue := do
  let (packedTypes, _) ← bufDrpcTypes buf
  packedTypes.foldlM (fun q t =>
    if t.type = DrpcTypes.dVoid.toChar then pure q
    else do
      let element ← unpack t.type t.packedData
      pure (queuePush q (some element))) q

/-- The loop of `buf_d_array` over the printed indices, with the cells it
writes outside the table. -/
def bufDArrayLoop (packed : DStruct Element) (keys : List (Option CString)) (new : DArray Element × List Nat) :
    Outcome (DArray Element × List Nat) :=
  keys.foldlM (fun (new, stray) key =>
    match key with
    | none => .error .outside
    | some key => do
      let element ← hashtableGet packed.hashtable key
      let (new, more) := dArraySetInternal new (CString.toSizeT (CString.atol key)) element
      pure (new, stray ++ more)) new

/-- `buf_d_array`. A write outside the new table is where it stops. -/
def bufDArrayWith (unpack : UInt8 → List UInt8 → Outcome Element) (buf : List UInt8) :
    Outcome (DArray Element) := do
  let packed ← bufDStructWith unpack buf newDStruct
  let keys ← dStructGetFields packed
  let (new, stray) ← bufDArrayLoop packed keys (newDArray keys.length, [])
  if stray = [] then pure new else .error .outside

/-- The switch over the element types in `buf_d_struct` and `buf_d_queue`;
`depth` bounds the nesting. -/
def bufElement : Nat → UInt8 → List UInt8 → Outcome Element
  | 0, _, _ => .error .diverges
  | depth + 1, type, memory => do
    let (t, _) ← bufDrpc memory
    if type = DrpcTypes.dStr.toChar then pure (.str t.packedData)
    else if type = DrpcTypes.dSizedbuf.toChar then pure (.sizedbuf t.packedData)
    else if type = DrpcTypes.dArray.toChar then do
      let a ← bufDArrayWith (bufElement depth) t.packedData
      pure (.array a)
    else if type = DrpcTypes.dStruct.toChar then do
      let d ← bufDStructWith (bufElement depth) t.packedData newDStruct
      pure (.dstruct d)
    else if type = DrpcTypes.dQueue.toChar then do
      let q ← bufDQueueWith (bufElement depth) t.packedData []
      pure (.queue q)
    else pure (.packed type t)

/-- A nested buffer is shorter than the one around it, so the length of the
buffer is depth enough (`bufElement_roundTrip`). -/
def bufDStruct (buf : List UInt8) (d : DStruct Element) : Outcome (DStruct Element) :=
  bufDStructWith (bufElement buf.length) buf d

def bufDQueue (buf : List UInt8) (q : DQueue) : Outcome DQueue := bufDQueueWith (bufElement buf.length) buf q

def bufDArray (buf : List UInt8) : Outcome (DArray Element) := bufDArrayWith (bufElement buf.length) buf

end DynamicRPC
