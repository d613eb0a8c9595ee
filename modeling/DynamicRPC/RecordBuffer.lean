import DynamicRPC.Encode
import DynamicRPC.Library.WriteBuffer

namespace DynamicRPC
open Outcome LittleEndian

/-- A block of memory as a buffer of the encoder grows in it. -/
abbrev Block := List (Option UInt8)

/-- `drpc_buf` at an offset of a block, with the value that it returns. -/
def drpcBufAt (t : DrpcType) (block : Block) (buf : Nat) : Outcome (Block × Nat) := do
  let block ← WriteBuffer.write block buf [t.type]
  let block ← WriteBuffer.write block (buf + 1) (u64 t.packedData.length)
  let block ← if t.type ≠ DrpcTypes.dVoid.toChar then WriteBuffer.write block (buf + 1 + 8) t.packedData else pure block
  pure (block, t.buflen)

/-- `drpc_types_buflen`, in `size_t`. -/
def drpcTypesBuflen (types : List DrpcType) : Nat := types.foldl (fun ret t => (ret + t.buflen) % 2 ^ 64) 8

/-- The loop of `drpc_types_buf`: `buf` advances by what `drpc_buf` returns. -/
def drpcTypesBufLoop : List DrpcType → Block → Nat → Outcome Block
  | [], block, _ => pure block
  | t :: types, block, buf => do
    let (block, len) ← drpcBufAt t block buf
    drpcTypesBufLoop types block (buf + len)

/-- `drpc_types_buf` from the start of a block. -/
def drpcTypesBufAt (types : List DrpcType) (block : Block) : Outcome Block := do
  let block ← WriteBuffer.write block 0 (u64 types.length)
  drpcTypesBufLoop types block 8

/-- The row of `d_struct_buf` for a field: the key and the record in a block of their size. -/
def keyedRecordAlloc (key : CString) (item : Packed) : Outcome DrpcType := do
  let keylen := key.bytes.length
  let keyedBuf ← WriteBuffer.write (WriteBuffer.malloc ((keylen + 1 + item.data.buflen) % 2 ^ 64)) 0 key.block
  let (keyedBuf, _) ← drpcBufAt item.data keyedBuf (keylen + 1)
  let packedData ← WriteBuffer.read keyedBuf
  pure ⟨item.element.type, packedData⟩

/-- `d_struct_buf` down to its blocks. It sums the length up itself. -/
def dStructBufAlloc (d : DStruct Packed) : Outcome (List UInt8) :=
  if d.currentLen = 0 then pure (u64 0)
  else do
    let packed ← d.hashtable.bindings.mapM fun field => keyedRecordAlloc field.1 field.2
    if d.currentLen < packed.length then .error .outside
    else if packed.length < d.currentLen then .error .uninitialised
    else do
      let buflen := packed.foldl (fun buflen t => (buflen + t.buflen) % 2 ^ 64) 0
      let buf ← drpcTypesBufAt packed (WriteBuffer.malloc ((buflen + 8) % 2 ^ 64))
      WriteBuffer.read buf

/-- The row of `d_queue_buf` for an entry. -/
def queueRecordAlloc : Option Packed → Outcome DrpcType
  | none => pure voidToDrpc
  | some item => do
    let (buf, _) ← drpcBufAt item.data (WriteBuffer.malloc (item.data.buflen % 2 ^ 64)) 0
    let packedData ← WriteBuffer.read buf
    pure ⟨item.element.type, packedData⟩

def dQueueBufAllocLoop : Nat → List (Option Packed) → List DrpcType → Outcome (List (Option Packed) × List DrpcType)
  | 0, que, packedTypes => pure (que, packedTypes)
  | count + 1, que, packedTypes => do
    let (element, que) := queuePop que
    let packedType ← queueRecordAlloc element
    dQueueBufAllocLoop count (queuePush que element) (packedTypes ++ [packedType])

/-- `d_queue_buf` down to its blocks. -/
def dQueueBufAlloc (que : List (Option Packed)) : Outcome (List (Option Packed) × List UInt8) := do
  let (que, packedTypes) ← dQueueBufAllocLoop (queueCount que) que []
  let buf ← drpcTypesBufAt packedTypes (WriteBuffer.malloc (drpcTypesBuflen packedTypes))
  let outbuf ← WriteBuffer.read buf
  pure (que, outbuf)

/-- An array of records as it lies in memory: every row takes the 24 bytes of a
`struct drpc_type`, every payload is a block of its own, and a `d_void` row has none. -/
structure RecordsInMemory (types : List DrpcType) : Prop where
  voidEmpty : ∀ t ∈ types, t.VoidEmpty
  space : (types.map fun t => 24 + t.packedData.length).sum < 2 ^ 64

/-- What `drpc_buf` copies, piece by piece. -/
def DrpcType.pieces (t : DrpcType) : List (List UInt8) :=
  [t.type] :: u64 t.packedData.length :: if t.type = DrpcTypes.dVoid.toChar then [] else [t.packedData]

theorem DrpcType.pieces_flatten (t : DrpcType) : t.pieces.flatten = drpcBuf t := by
  rw [pieces, drpcBuf]
  split <;> simp

theorem drpcBufAt_eq (t : DrpcType) (block : Block) (buf : Nat) :
    drpcBufAt t block buf = WriteBuffer.writeAll block buf t.pieces >>= fun block => pure (block, t.buflen) := by
  have eight := u64_length t.packedData.length
  by_cases void : t.type = DrpcTypes.dVoid.toChar
  · simp [drpcBufAt, DrpcType.pieces, WriteBuffer.writeAll, void]
  · simp [drpcBufAt, DrpcType.pieces, WriteBuffer.writeAll, void]

/-- The cursor of the loop is where the records so far end. -/
theorem drpcTypesBufLoop_eq {types : List DrpcType} (voidEmpty : ∀ t ∈ types, t.VoidEmpty) (block : Block) (buf : Nat) :
    drpcTypesBufLoop types block buf = WriteBuffer.writeAll block buf (types.flatMap DrpcType.pieces) := by
  induction types generalizing block buf with
  | nil => rfl
  | cons t types ih =>
    obtain ⟨first, later⟩ := List.forall_mem_cons.mp voidEmpty
    rw [drpcTypesBufLoop, drpcBufAt_eq, bind_assoc, List.flatMap_cons, WriteBuffer.writeAll_append,
      DrpcType.pieces_flatten, drpcBuf_length first]
    simp only [pure_bind, ih later]

theorem drpcTypesBufAt_eq {types : List DrpcType} (voidEmpty : ∀ t ∈ types, t.VoidEmpty) (block : Block) :
    drpcTypesBufAt types block =
      WriteBuffer.writeAll block 0 (u64 types.length :: types.flatMap DrpcType.pieces) := by
  rw [drpcTypesBufAt, WriteBuffer.writeAll]
  simp only [drpcTypesBufLoop_eq voidEmpty, u64_length, Nat.zero_add]

theorem pieces_flatMap (types : List DrpcType) : (types.flatMap DrpcType.pieces).flatten = types.flatMap drpcBuf := by
  induction types with
  | nil => rfl
  | cons t types ih => rw [List.flatMap_cons, List.flatten_append, ih, DrpcType.pieces_flatten, List.flatMap_cons]

theorem buflen_sum {types : List DrpcType} (voidEmpty : ∀ t ∈ types, t.VoidEmpty) :
    (drpcTypesBuf types).length = 8 + (types.map DrpcType.buflen).sum := by
  rw [drpcTypesBuf_length, List.map_congr_left fun t member => drpcBuf_length (voidEmpty t member)]

/-- Sums in `size_t` wrap around once, at the end. -/
theorem buflen_foldl (types : List DrpcType) {start : Nat} (small : start < 2 ^ 64) :
    types.foldl (fun ret t => (ret + t.buflen) % 2 ^ 64) start = (start + (types.map DrpcType.buflen).sum) % 2 ^ 64 := by
  induction types generalizing start with
  | nil => exact (Nat.mod_eq_of_lt small).symm
  | cons t types ih =>
    rw [List.foldl_cons, ih (Nat.mod_lt _ (by decide)), List.map_cons, List.sum_cons]
    omega

section Memory
variable {types : List DrpcType}

/-- The rows leave no room in memory for a buffer of 2^64 bytes. -/
theorem RecordsInMemory.fits (memory : RecordsInMemory types) : (drpcTypesBuf types).length < 2 ^ 64 := by
  have rows : (types.map fun t => 24 + t.packedData.length).sum = (types.map DrpcType.buflen).sum + 15 * types.length := by
    induction types with
    | nil => rfl
    | cons t types ih =>
      have space := memory.space
      have rest := ih ⟨(List.forall_mem_cons.mp memory.voidEmpty).2, by
        rw [List.map_cons, List.sum_cons] at space
        omega⟩
      simp only [List.map_cons, List.sum_cons, List.length_cons, DrpcType.buflen] at rest ⊢
      omega
  have space := memory.space
  rw [buflen_sum memory.voidEmpty]
  cases types with
  | nil => decide
  | cons t types =>
    rw [List.length_cons] at rows
    omega

theorem RecordsInMemory.buflen (memory : RecordsInMemory types) : drpcTypesBuflen types = (drpcTypesBuf types).length := by
  have fits := memory.fits
  have total := buflen_sum memory.voidEmpty
  rw [drpcTypesBuflen, buflen_foldl types (by decide), ← total, Nat.mod_eq_of_lt fits]

/-- Only a block of `drpc_types_buflen` bytes is filled from end to end. -/
theorem RecordsInMemory.fill (memory : RecordsInMemory types) (size : Nat) :
    (drpcTypesBufAt types (WriteBuffer.malloc size) >>= WriteBuffer.read) =
      if size = drpcTypesBuflen types then .ok (drpcTypesBuf types)
      else if size < drpcTypesBuflen types then .error .outside
      else .error .uninitialised := by
  have filled := WriteBuffer.fill_eq size (u64 types.length :: types.flatMap DrpcType.pieces)
  rw [List.flatten_cons, pieces_flatMap] at filled
  rw [drpcTypesBufAt_eq memory.voidEmpty, filled, memory.buflen, drpcTypesBuf]

end Memory

/-- A single record fills a block of its `drpc_type_buflen`, behind what is there already. -/
theorem drpcBufAt_fill {t : DrpcType} (voidEmpty : t.VoidEmpty) (written : List UInt8) :
    drpcBufAt t (WriteBuffer.upTo written t.buflen) written.length =
      .ok (WriteBuffer.upTo (written ++ drpcBuf t) 0, t.buflen) := by
  have size := drpcBuf_length voidEmpty
  rw [drpcBufAt_eq, WriteBuffer.writeAll_upTo, DrpcType.pieces_flatten, if_pos (by omega), size, Nat.sub_self]
  rfl

theorem keyedRecordAlloc_eq {key : CString} {item : Packed} (voidEmpty : item.data.VoidEmpty)
    (fits : (keyedRecord key item).packedData.length < 2 ^ 64) :
    keyedRecordAlloc key item = .ok (keyedRecord key item) := by
  have size := drpcBuf_length voidEmpty
  have total : (keyedRecord key item).packedData.length = key.bytes.length + 1 + item.data.buflen := by
    rw [keyedRecord, List.length_append, CString.block_length, size]
  have head := WriteBuffer.write_upTo [] key.block (key.bytes.length + 1 + item.data.buflen)
  rw [CString.block_length, if_pos (by omega), Nat.add_sub_cancel_left, List.nil_append, List.length_nil] at head
  have tail := drpcBufAt_fill voidEmpty key.block
  rw [CString.block_length] at tail
  rw [keyedRecordAlloc]
  dsimp only
  rw [Nat.mod_eq_of_lt (total ▸ fits), WriteBuffer.malloc_eq, head, ok_bind, tail, ok_bind]
  dsimp only
  rw [WriteBuffer.read_upTo]
  rfl

theorem queueRecordAlloc_eq {item : Option Packed} (voidEmpty : ∀ packed, item = some packed → packed.data.VoidEmpty)
    (fits : (queueRecord item).packedData.length < 2 ^ 64) : queueRecordAlloc item = .ok (queueRecord item) := by
  cases item with
  | none => rfl
  | some packed =>
    have size := drpcBuf_length (voidEmpty packed rfl)
    have small : packed.data.buflen < 2 ^ 64 := size ▸ fits
    have filled := drpcBufAt_fill (voidEmpty packed rfl) []
    rw [List.length_nil, List.nil_append] at filled
    rw [queueRecordAlloc, Nat.mod_eq_of_lt small, WriteBuffer.malloc_eq, filled, ok_bind]
    dsimp only
    rw [WriteBuffer.read_upTo]
    rfl

section Encoders
variable {d : DStruct Packed} {que : List (Option Packed)} {types : List DrpcType}

theorem RecordsInMemory.payload_lt (memory : RecordsInMemory types) {t : DrpcType} (member : t ∈ types) :
    t.packedData.length < 2 ^ 64 := by
  have row := List.single_le_sum (by simp) _ (List.mem_map.mpr ⟨t, member, rfl⟩ :
    24 + t.packedData.length ∈ types.map fun t => 24 + t.packedData.length)
  have space := memory.space
  omega

/-- `d_struct_buf` fills every block that it allocates, with the bytes of the encoder. -/
theorem dStructBufAlloc_eq (counted : d.currentLen = d.hashtable.bindings.length)
    (voidEmpty : ∀ field ∈ d.hashtable.bindings, field.2.data.VoidEmpty)
    (records : (d.hashtable.bindings.map fun field => keyedRecord field.1 field.2) = types)
    (memory : RecordsInMemory types) : dStructBufAlloc d = .ok (drpcTypesBuf types) := by
  have rows : (d.hashtable.bindings.mapM fun field => keyedRecordAlloc field.1 field.2) = .ok types := by
    rw [← records]
    refine mapM_ok fun field member => keyedRecordAlloc_eq (voidEmpty field member) (memory.payload_lt ?_)
    rw [← records]
    exact List.mem_map.mpr ⟨field, member, rfl⟩
  have length : types.length = d.currentLen := by rw [← records, List.length_map, counted]
  have filled := memory.fill (drpcTypesBuflen types)
  rw [if_pos rfl] at filled
  have summed : (types.foldl (fun buflen t => (buflen + t.buflen) % 2 ^ 64) 0 + 8) % 2 ^ 64 = drpcTypesBuflen types := by
    rw [drpcTypesBuflen, buflen_foldl types (by decide), buflen_foldl types (by decide)]
    omega
  rw [dStructBufAlloc]
  by_cases empty : d.currentLen = 0
  · have none_left : types = [] := List.eq_nil_of_length_eq_zero (by omega)
    rw [if_pos empty, none_left]
    rfl
  · rw [if_neg empty, rows, ok_bind, if_neg (by omega), if_neg (by omega)]
    dsimp only
    rw [summed]
    exact filled

theorem dQueueBufAllocLoop_eq (count : Nat) (packedTypes : List DrpcType)
    (rows : ∀ item ∈ que, queueRecordAlloc item = .ok (queueRecord item)) :
    dQueueBufAllocLoop count que packedTypes = .ok (dQueueBufLoop count que packedTypes) := by
  induction count generalizing que packedTypes with
  | zero => rfl
  | succ count ih =>
    cases que with
    | nil => exact @ih (queuePush [] none) (packedTypes ++ [voidToDrpc]) (by simp [queuePush, queueRecordAlloc, queueRecord])
    | cons element que =>
      obtain ⟨row, others⟩ := List.forall_mem_cons.mp rows
      have rest := @ih (queuePush que element) (packedTypes ++ [queueRecord element]) (fun item member => by
        rcases List.mem_append.mp member with inside | last
        · exact others item inside
        · rw [List.mem_singleton.mp last, row])
      rw [dQueueBufAllocLoop, dQueueBufLoop, queuePop]
      dsimp only
      rw [row, ok_bind, rest]

/-- `d_queue_buf` fills every block that it allocates, with the bytes of the encoder. -/
theorem dQueueBufAlloc_eq (voidEmpty : ∀ item, some item ∈ que → item.data.VoidEmpty)
    (records : que.map queueRecord = types) (memory : RecordsInMemory types) :
    dQueueBufAlloc que = .ok (que, drpcTypesBuf types) := by
  have round := dQueueBufLoop_eq que [] []
  rw [List.append_nil, List.nil_append, List.nil_append, records] at round
  have filled := memory.fill (drpcTypesBuflen types)
  rw [if_pos rfl] at filled
  obtain ⟨block, wrote, whole⟩ := bind_eq_ok.mp filled
  have rows : ∀ item ∈ que, queueRecordAlloc item = .ok (queueRecord item) := by
    intro item member
    refine queueRecordAlloc_eq (fun packed same => voidEmpty packed (same ▸ member)) (memory.payload_lt ?_)
    rw [← records]
    exact List.mem_map.mpr ⟨item, member, rfl⟩
  rw [dQueueBufAlloc, queueCount, dQueueBufAllocLoop_eq _ _ rows, round, ok_bind]
  dsimp only
  rw [wrote, ok_bind, whole]
  rfl

end Encoders

section Elements
variable {d : DStruct Element} {q : DQueue}

/-- The records of a well-formed struct have no `d_void` among them. -/
theorem Element.Wf.dStructBufAlloc (wf : (Element.dstruct d).Wf)
    (memory : RecordsInMemory (d.hashtable.bindings.map fieldRecord)) : ∃ body, packEntries d.hashtable.body = .ok body ∧
      DynamicRPC.dStructBufAlloc ⟨⟨d.hashtable.size, body⟩, d.currentLen⟩ = .ok (fieldsBuf d.hashtable.bindings) := by
  cases wf with
  | dstruct wf items =>
    have packed := bindings_map Element.packedUp d.hashtable.size d.hashtable.body
    refine ⟨_, packEntries_eq fun key e member => (items key e (List.mem_filterMap.mpr ⟨_, member, rfl⟩)).pack, ?_⟩
    refine dStructBufAlloc_eq ?_ (fun field member => ?_) ?_ memory
    · rw [packed, List.length_map]
      exact wf.counted
    · rw [packed] at member
      obtain ⟨⟨key, e⟩, inside, rfl⟩ := List.mem_map.mp member
      exact (items key e inside).record_voidEmpty
    · rw [packed, List.map_map]
      rfl

theorem Element.Wf.dQueueBufAlloc (wf : (Element.queue q).Wf)
    (memory : RecordsInMemory (q.map fun item => queueRecord (item.map Element.packedUp))) :
    ∃ que, packQueue q = .ok que ∧ DynamicRPC.dQueueBufAlloc que = .ok (que, queueBuf q) := by
  cases wf with
  | queue full items =>
    refine ⟨_, packQueue_eq fun e member => (items e member).pack, ?_⟩
    refine dQueueBufAlloc_eq (fun item member => ?_) ?_ memory
    · obtain ⟨entry, inside, same⟩ := List.mem_map.mp member
      obtain ⟨e, rfl, rfl⟩ := Option.map_eq_some_iff.mp same
      exact (items e inside).record_voidEmpty
    · rw [List.map_map]
      rfl

end Elements

/-- A list of records fills a block of `drpc_types_buflen` bytes and no other, is
read back from it whatever follows, and is all that `d_struct_buf` and
`d_queue_buf` write when it is the list they have made. -/
theorem recordBuffers_exact {types : List DrpcType} (memory : RecordsInMemory types) :
    drpcTypesBuflen types = (drpcTypesBuf types).length ∧
    (∀ size, (drpcTypesBufAt types (WriteBuffer.malloc size) >>= WriteBuffer.read) =
      if size = drpcTypesBuflen types then .ok (drpcTypesBuf types)
      else if size < drpcTypesBuflen types then .error .outside
      else .error .uninitialised) ∧
    (∀ rest, bufDrpcTypes (drpcTypesBuf types ++ rest) = .ok (types, rest)) ∧
    (∀ d : DStruct Packed, d.currentLen = d.hashtable.bindings.length →
      (∀ field ∈ d.hashtable.bindings, field.2.data.VoidEmpty) →
      (d.hashtable.bindings.map fun field => keyedRecord field.1 field.2) = types →
      dStructBufAlloc d = .ok (drpcTypesBuf types)) ∧
    ∀ que : List (Option Packed), (∀ item, some item ∈ que → item.data.VoidEmpty) → que.map queueRecord = types →
      dQueueBufAlloc que = .ok (que, drpcTypesBuf types) :=
  ⟨memory.buflen, memory.fill, bufDrpcTypes_drpcTypesBuf memory.voidEmpty memory.fits,
    fun _ counted voidEmpty records => dStructBufAlloc_eq counted voidEmpty records memory,
    fun _ voidEmpty records => dQueueBufAlloc_eq voidEmpty records memory⟩

theorem recordBuffers_exact_void :
    bufDrpcTypes (drpcTypesBuf [voidToDrpc, ⟨200, []⟩, ⟨3, [1, 9, 0, 0, 0, 0, 0, 0, 0]⟩] ++ [7]) =
      .ok ([voidToDrpc, ⟨200, []⟩, ⟨3, [1, 9, 0, 0, 0, 0, 0, 0, 0]⟩], [7]) := by
  have memory : RecordsInMemory [voidToDrpc, ⟨200, []⟩, ⟨3, [1, 9, 0, 0, 0, 0, 0, 0, 0]⟩] := by
    refine ⟨fun t member => ?_, by decide⟩
    rcases List.mem_cons.mp member with rfl | others
    · exact fun _ => rfl
    · refine .of_ne ?_
      rcases List.mem_cons.mp others with rfl | last
      · decide
      · rw [List.mem_singleton.mp last]
        decide
  exact (recordBuffers_exact memory).2.2.1 [7]

end DynamicRPC
