import DynamicRPC.Codec

namespace DynamicRPC
open List LittleEndian

/-- The record an element is packed into. -/
def Element.record (e : Element) : DrpcType :=
  match e.pack with
  | .ok item => item.data
  | .error _ => voidToDrpc

/-- The element together with its record. -/
def Element.packedUp (e : Element) : Packed := ⟨e, e.record⟩

/-- The record of a field in the buffer of a struct. -/
def fieldRecord (field : CString × Element) : DrpcType := keyedRecord field.1 field.2.packedUp

/-- The buffer of a struct with the given fields in slot order. -/
def fieldsBuf (fields : List (CString × Element)) : List UInt8 := drpcTypesBuf (fields.map fieldRecord)

def queueBuf (q : DQueue) : List UInt8 := drpcTypesBuf (q.map fun item => queueRecord (item.map Element.packedUp))

theorem Element.record_eq {e : Element} {data : DrpcType} (run : e.pack = .ok ⟨e, data⟩) : e.record = data := by
  rw [Element.record, run]

theorem Element.pack_record {e : Element} {data : DrpcType} (run : e.pack = .ok ⟨e, data⟩) :
    e.pack = .ok e.packedUp := by
  rw [run, Element.packedUp, Element.record_eq run]

section Bindings
variable {V W : Type}

theorem bindings_map (f : V → W) (size : Nat) (body : List (HashtableEntry V)) :
    Hashtable.bindings ⟨size, body.map (HashtableEntry.map f)⟩ =
      (Hashtable.bindings ⟨size, body⟩).map (Prod.map id f) := by
  unfold Hashtable.bindings
  rw [List.filterMap_map, List.map_filterMap]
  refine List.filterMap_congr fun entry _ => ?_
  cases entry <;> rfl

end Bindings

section Undone
variable {V W : Type} {f : V → W} {g : W → V} (undone : ∀ v, g (f v) = v)
include undone

/-- Taking the elements out of what was made of them gives the containers back. -/
theorem entries_undone (body : List (HashtableEntry V)) :
    (body.map (HashtableEntry.map f)).map (HashtableEntry.map g) = body := by
  rw [List.map_map]
  refine (List.map_congr_left fun entry _ => ?_).trans body.map_id
  cases entry with
  | live key value => exact congrArg (HashtableEntry.live key) (undone value)
  | _ => rfl

theorem queue_undone (q : List (Option V)) : (q.map (Option.map f)).map (Option.map g) = q := by
  rw [List.map_map]
  refine (List.map_congr_left fun item _ => ?_).trans q.map_id
  cases item with
  | none => rfl
  | some value => exact congrArg some (undone value)

theorem cells_undone (cells : List (Cell V)) : (cells.map (Cell.map f)).map (Cell.map g) = cells := by
  rw [List.map_map]
  refine (List.map_congr_left fun cell _ => ?_).trans cells.map_id
  cases cell with
  | elem value => exact congrArg Cell.elem (undone value)
  | _ => rfl

end Undone

/-- Packing keeps the element. -/
theorem packedUp_element (e : Element) : e.packedUp.element = e := rfl

theorem packEntries_eq {body : List (HashtableEntry Element)}
    (packs : ∀ key e, .live key e ∈ body → e.pack = .ok e.packedUp) :
    packEntries body = .ok (body.map (HashtableEntry.map Element.packedUp)) := by
  induction body with
  | nil => rfl
  | cons entry body ih =>
    have rest := ih fun key e member => packs key e (List.mem_cons_of_mem _ member)
    cases entry with
    | null => simp [packEntries, rest, HashtableEntry.map]
    | dead => simp [packEntries, rest, HashtableEntry.map]
    | live key e => simp [packEntries, rest, HashtableEntry.map, packs key e (List.mem_cons_self ..)]

theorem packQueue_eq {q : DQueue} (packs : ∀ e, some e ∈ q → e.pack = .ok e.packedUp) :
    packQueue q = .ok (q.map (Option.map Element.packedUp)) := by
  induction q with
  | nil => rfl
  | cons item q ih =>
    have rest := ih fun e member => packs e (List.mem_cons_of_mem _ member)
    cases item with
    | none => simp [packQueue, rest]
    | some e => simp [packQueue, rest, packs e (List.mem_cons_self ..)]

theorem packCells_eq {cells : List (Cell Element)} (packs : ∀ e, .elem e ∈ cells → e.pack = .ok e.packedUp) :
    packCells cells = .ok (cells.map (Cell.map Element.packedUp)) := by
  induction cells with
  | nil => rfl
  | cons cell cells ih =>
    have rest := ih fun e member => packs e (List.mem_cons_of_mem _ member)
    cases cell with
    | uninit => simp [packCells, rest, Cell.map]
    | null => simp [packCells, rest, Cell.map]
    | dangling => simp [packCells, rest, Cell.map]
    | elem e => simp [packCells, rest, Cell.map, packs e (List.mem_cons_self ..)]

/-- With `current_len` right, the buffer holds one record for every field. -/
theorem dStructBufPacked_counted {d : DStruct Packed} (counted : d.currentLen = d.hashtable.bindings.length) :
    dStructBufPacked d =
      .ok (drpcTypesBuf (d.hashtable.bindings.map fun field => keyedRecord field.1 field.2)) := by
  unfold dStructBufPacked
  split
  · have empty : d.hashtable.bindings = [] := List.eq_nil_of_length_eq_zero (by omega)
    simp [empty, drpcTypesBuf]
  · simp [counted]

/-- One round of the rotation: the entries come out in order and the queue is
the one it was. The induction is on the entries still at the front. -/
theorem dQueueBufLoop_eq (front back : List (Option Packed)) (records : List DrpcType) :
    dQueueBufLoop front.length (front ++ back) records = (back ++ front, records ++ front.map queueRecord) := by
  induction front generalizing back records with
  | nil => simp [dQueueBufLoop]
  | cons item front ih =>
    have rest := ih (back ++ [item]) (records ++ [queueRecord item])
    rw [List.append_assoc, List.singleton_append, List.append_assoc, List.singleton_append] at rest
    rw [List.length_cons, dQueueBufLoop, List.cons_append, queuePop]
    dsimp only
    rw [queuePush, List.append_assoc, rest]
    rfl

theorem dQueueBufPacked_eq (q : List (Option Packed)) :
    dQueueBufPacked q = (q, drpcTypesBuf (q.map queueRecord)) := by
  have round := dQueueBufLoop_eq q [] []
  rw [List.append_nil, List.nil_append, List.nil_append] at round
  rw [dQueueBufPacked, queueCount, round]

/-- The loop of `d_array_buf` inserts the occupied cells, in order. -/
theorem dArrayBufFields_eq {cells : List (Cell Packed)} (initialised : .uninit ∉ cells) (live : .dangling ∉ cells) :
    dArrayBufFields cells = ((cellFields cells).map (Prod.map CString.sprintfZu id)).foldlM
      (fun d field => dStructInsert d field.1 field.2) newDStruct := by
  unfold dArrayBufFields cellFields
  generalize newDStruct = d, (0 : Nat) = first
  induction cells generalizing d first with
  | nil => rfl
  | cons cell cells ih =>
    have rest := fun d => ih (fun member => initialised (List.mem_cons_of_mem _ member))
      (fun member => live (List.mem_cons_of_mem _ member)) d (first + 1)
    rw [List.zipIdx_cons, List.foldlM_cons]
    cases cell with
    | uninit => exact absurd (List.mem_cons_self ..) initialised
    | dangling => exact absurd (List.mem_cons_self ..) live
    | null => exact rest d
    | elem item => exact bind_congr rest

section Buffers

theorem dStructBuf_eq {d : DStruct Element} (counted : d.currentLen = d.hashtable.bindings.length)
    (packs : ∀ key e, (key, e) ∈ d.hashtable.bindings → e.pack = .ok e.packedUp) :
    dStructBuf d = .ok (fieldsBuf d.hashtable.bindings, d) := by
  obtain ⟨⟨size, body⟩, currentLen⟩ := d
  have entries : packEntries body = .ok (body.map (HashtableEntry.map Element.packedUp)) := by
    refine packEntries_eq fun key e member => packs key e ?_
    exact List.mem_filterMap.mpr ⟨_, member, rfl⟩
  have fields := bindings_map Element.packedUp size body
  have buf := dStructBufPacked_counted (d := ⟨⟨size, body.map (HashtableEntry.map Element.packedUp)⟩, currentLen⟩)
    (by rw [fields, List.length_map]; exact counted)
  rw [dStructBuf, entries, Outcome.ok_bind, buf, Outcome.ok_bind, entries_undone packedUp_element, fields, List.map_map]
  rfl

theorem dQueueBuf_eq {q : DQueue} (packs : ∀ e, some e ∈ q → e.pack = .ok e.packedUp) :
    dQueueBuf q = .ok (queueBuf q, q) := by
  rw [dQueueBuf, packQueue_eq packs, Outcome.ok_bind, dQueueBufPacked_eq]
  dsimp only
  rw [queue_undone packedUp_element, List.map_map]
  rfl

/-- The buffer of an array is that of a struct with its printed indices, in
the order of a hashtable that was built for it. -/
theorem dArrayBuf_eq {a : DArray Element} (uninit : .uninit ∉ a.lookupTable) (dangling : .dangling ∉ a.lookupTable)
    (packs : ∀ e, .elem e ∈ a.lookupTable → e.pack = .ok e.packedUp) :
    ∃ fields : List (CString × Element), fields ~ a.fields.map (Prod.map CString.sprintfZu id) ∧
      dArrayBuf a = .ok (fieldsBuf fields, a) := by
  obtain ⟨realSize, cells⟩ := a
  have initialised : .uninit ∉ cells.map (Cell.map Element.packedUp) := fun member => by
    obtain ⟨cell, inside, shape⟩ := List.mem_map.mp member
    cases cell <;> cases shape
    exact uninit inside
  have live : .dangling ∉ cells.map (Cell.map Element.packedUp) := fun member => by
    obtain ⟨cell, inside, shape⟩ := List.mem_map.mp member
    cases cell <;> cases shape
    exact dangling inside
  have printed : (cellFields (cells.map (Cell.map Element.packedUp))).map (Prod.map CString.sprintfZu id) =
      ((cellFields cells).map (Prod.map CString.sprintfZu id)).map (Prod.map id Element.packedUp) := by
    rw [cellFields_map, List.map_map, List.map_map]
    rfl
  have distinct : (((cellFields (cells.map (Cell.map Element.packedUp))).map
      (Prod.map CString.sprintfZu id)).map Prod.fst).Nodup := by
    rw [List.map_map, show Prod.fst ∘ Prod.map CString.sprintfZu (id : Packed → Packed) =
      CString.sprintfZu ∘ Prod.fst from rfl, ← List.map_map]
    exact (cellFields_indices_nodup _).map CString.sprintfZu_injective
  obtain ⟨packed, run, filled⟩ := DStruct.Filled.fold distinct
  have buf := dStructBufPacked_counted filled.wf.counted
  have order := filled.bindings
  rw [printed] at order
  have back : packed.hashtable.bindings =
      (packed.hashtable.bindings.map (Prod.map id Packed.element)).map (Prod.map id Element.packedUp) := by
    rw [List.map_map]
    refine (List.map_id _).symm.trans (List.map_congr_left fun field member => ?_)
    obtain ⟨source, _, rfl⟩ := List.mem_map.mp (order.mem_iff.mp member)
    rfl
  have records : (packed.hashtable.bindings.map fun field => keyedRecord field.1 field.2) =
      (packed.hashtable.bindings.map (Prod.map id Packed.element)).map fieldRecord := by
    conv_lhs => rw [back]
    rw [List.map_map]
    rfl
  refine ⟨packed.hashtable.bindings.map (Prod.map id Packed.element), ?_, ?_⟩
  · refine (order.map (Prod.map id Packed.element)).trans (List.Perm.of_eq ?_)
    rw [List.map_map]
    exact List.map_id _
  · rw [dArrayBuf, packCells_eq packs, Outcome.ok_bind, dArrayBufPacked, dArrayBufFields_eq initialised live, run,
      Outcome.ok_bind, buf, Outcome.ok_bind, cells_undone packedUp_element, records]
    rfl

end Buffers

theorem Element.pack_dstruct (d : DStruct Element) :
    (Element.dstruct d).pack = (fun result => ⟨.dstruct result.2, dStructToDrpc result.1⟩) <$> dStructBuf d := by
  obtain ⟨⟨size, body⟩, currentLen⟩ := d
  simp [Element.pack, dStructBuf]

theorem Element.pack_queue (q : DQueue) :
    (Element.queue q).pack = (fun result => ⟨.queue result.2, dQueueToDrpc result.1⟩) <$> dQueueBuf q := by
  simp [Element.pack, dQueueBuf]

theorem Element.pack_array (a : DArray Element) :
    (Element.array a).pack = (fun result => ⟨.array result.2, dArrayToDrpc result.1⟩) <$> dArrayBuf a := by
  obtain ⟨realSize, cells⟩ := a
  simp [Element.pack, dArrayBuf]

/-- What packing needs of an element, all the way down: terminated strings,
structs that count their fields and arrays whose cells are all written. -/
inductive Element.Packable : Element → Prop
  | packed {type : UInt8} {data : DrpcType} : Packable (.packed type data)
  | str {block : List UInt8} (terminated : 0 ∈ block) : Packable (.str block)
  | sizedbuf {block : List UInt8} : Packable (.sizedbuf block)
  | dstruct {d : DStruct Element} (counted : d.currentLen = d.hashtable.bindings.length)
      (fields : ∀ key e, (key, e) ∈ d.hashtable.bindings → Packable e) : Packable (.dstruct d)
  | queue {q : DQueue} (items : ∀ e, some e ∈ q → Packable e) : Packable (.queue q)
  | array {a : DArray Element} (initialised : .uninit ∉ a.lookupTable) (live : .dangling ∉ a.lookupTable)
      (items : ∀ e, .elem e ∈ a.lookupTable → Packable e) : Packable (.array a)

theorem Element.Wf.packable {e : Element} (wf : e.Wf) : e.Packable := by
  induction wf with
  | packed => exact .packed
  | str terminated => exact .str terminated
  | sizedbuf => exact .sizedbuf
  | dstruct wf _ ih => exact .dstruct wf.counted ih
  | queue _ _ ih => exact .queue ih
  | array wf _ ih => exact .array wf.initialised wf.live ih

/-- Packing succeeds and leaves the element as it was. -/
theorem Element.Packable.pack {e : Element} (packable : e.Packable) : e.pack = .ok e.packedUp := by
  suffices packs : ∃ data, e.pack = .ok ⟨e, data⟩ by
    obtain ⟨data, run⟩ := packs
    exact Element.pack_record run
  induction e using Element.induct with
  | packed type data => exact ⟨data, by simp [Element.pack]⟩
  | str block =>
    cases packable with
    | str terminated =>
      obtain ⟨s, content, _⟩ := CString.read_terminated terminated
      refine ⟨strToDrpc s, ?_⟩
      rw [Element.pack, content]
      rfl
  | sizedbuf block => exact ⟨sizedbufToDrpc block, by simp [Element.pack]⟩
  | dstruct d ih =>
    cases packable with
    | dstruct counted fields =>
      have packs : ∀ key e, (key, e) ∈ d.hashtable.bindings → e.pack = .ok e.packedUp := fun key e member => by
        obtain ⟨data, run⟩ := ih key e member (fields key e member)
        exact Element.pack_record run
      refine ⟨dStructToDrpc (fieldsBuf d.hashtable.bindings), ?_⟩
      rw [Element.pack_dstruct, dStructBuf_eq counted packs]
      rfl
  | queue q ih =>
    cases packable with
    | queue items =>
      have packs : ∀ e, some e ∈ q → e.pack = .ok e.packedUp := fun e member => by
        obtain ⟨data, run⟩ := ih e member (items e member)
        exact Element.pack_record run
      refine ⟨dQueueToDrpc (queueBuf q), ?_⟩
      rw [Element.pack_queue, dQueueBuf_eq packs]
      rfl
  | array a ih =>
    cases packable with
    | array initialised live items =>
      have packs : ∀ e, .elem e ∈ a.lookupTable → e.pack = .ok e.packedUp := fun e member => by
        obtain ⟨data, run⟩ := ih e member (items e member)
        exact Element.pack_record run
      obtain ⟨fields, _, run⟩ := dArrayBuf_eq initialised live packs
      refine ⟨dArrayToDrpc (fieldsBuf fields), ?_⟩
      rw [Element.pack_array, run]
      rfl

theorem Element.Wf.pack {e : Element} (wf : e.Wf) : e.pack = .ok e.packedUp := wf.packable.pack

section Records
variable {d : DStruct Element} {q : DQueue} {a : DArray Element}

theorem Element.record_packed (type : UInt8) (data : DrpcType) : (Element.packed type data).record = data :=
  Element.record_eq (by simp [Element.pack])

theorem Element.record_sizedbuf (block : List UInt8) : (Element.sizedbuf block).record = sizedbufToDrpc block :=
  Element.record_eq (by simp [Element.pack])

theorem Element.record_str {block : List UInt8} {s : CString} (content : CString.read block = .ok s) :
    (Element.str block).record = strToDrpc s := by
  refine Element.record_eq ?_
  rw [Element.pack, content]
  rfl

theorem Element.Wf.dStructBuf (wf : (Element.dstruct d).Wf) :
    DynamicRPC.dStructBuf d = .ok (fieldsBuf d.hashtable.bindings, d) := by
  cases wf with
  | dstruct wf fields => exact dStructBuf_eq wf.counted fun key e member => (fields key e member).pack

theorem Element.Wf.dQueueBuf (wf : (Element.queue q).Wf) : DynamicRPC.dQueueBuf q = .ok (queueBuf q, q) := by
  cases wf with
  | queue full items => exact dQueueBuf_eq fun e member => (items e member).pack

theorem Element.Wf.dArrayBuf (wf : (Element.array a).Wf) :
    ∃ fields : List (CString × Element), fields ~ a.fields.map (Prod.map CString.sprintfZu id) ∧
      DynamicRPC.dArrayBuf a = .ok (fieldsBuf fields, a) := by
  cases wf with
  | array wf items => exact dArrayBuf_eq wf.initialised wf.live fun e member => (items e member).pack

theorem Element.record_dstruct (wf : (Element.dstruct d).Wf) :
    (Element.dstruct d).record = dStructToDrpc (fieldsBuf d.hashtable.bindings) := by
  refine Element.record_eq ?_
  rw [Element.pack_dstruct, wf.dStructBuf]
  rfl

theorem Element.record_queue (wf : (Element.queue q).Wf) : (Element.queue q).record = dQueueToDrpc (queueBuf q) := by
  refine Element.record_eq ?_
  rw [Element.pack_queue, wf.dQueueBuf]
  rfl

theorem Element.record_array {buf : List UInt8} (run : DynamicRPC.dArrayBuf a = .ok (buf, a)) :
    (Element.array a).record = dArrayToDrpc buf := by
  refine Element.record_eq ?_
  rw [Element.pack_array, run]
  rfl

theorem Element.Wf.type_ne_void {e : Element} (wf : e.Wf) : e.type ≠ DrpcTypes.dVoid.toChar := by
  cases wf with
  | @packed t bytes sized =>
    intro void
    cases DrpcTypes.toChar_injective void
    cases sized
  | str => exact (by decide : DrpcTypes.dStr.toChar ≠ DrpcTypes.dVoid.toChar)
  | sizedbuf => exact (by decide : DrpcTypes.dSizedbuf.toChar ≠ DrpcTypes.dVoid.toChar)
  | dstruct => exact (by decide : DrpcTypes.dStruct.toChar ≠ DrpcTypes.dVoid.toChar)
  | queue => exact (by decide : DrpcTypes.dQueue.toChar ≠ DrpcTypes.dVoid.toChar)
  | array => exact (by decide : DrpcTypes.dArray.toChar ≠ DrpcTypes.dVoid.toChar)

/-- The record of an element carries its type. -/
theorem Element.Wf.record_type {e : Element} (wf : e.Wf) : e.record.type = e.type := by
  cases e with
  | packed type data =>
    cases wf
    rw [Element.record_packed]
    rfl
  | str block =>
    cases wf with
    | str terminated =>
      obtain ⟨s, content, _⟩ := CString.read_terminated terminated
      rw [Element.record_str content]
      rfl
  | sizedbuf block =>
    rw [Element.record_sizedbuf]
    rfl
  | dstruct d => rw [Element.record_dstruct wf]; rfl
  | queue q => rw [Element.record_queue wf]; rfl
  | array a =>
    obtain ⟨fields, _, run⟩ := wf.dArrayBuf
    rw [Element.record_array run]
    rfl

theorem Element.Wf.record_voidEmpty {e : Element} (wf : e.Wf) : e.record.VoidEmpty :=
  .of_ne (by rw [wf.record_type]; exact wf.type_ne_void)

end Records
end DynamicRPC
