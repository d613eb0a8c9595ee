import DynamicRPC.RoundTrip

namespace DynamicRPC
open List Outcome

/-- An element with the copy that was made of it. Copying a container rotates
the queues in it, so the original is kept too. -/
structure Copied where
  original : Element
  copy : Element

/-- The loop of `d_struct_copy`, over copied values. -/
def dStructCopyLoop (body : List (HashtableEntry Copied)) : Outcome (DStruct Element) :=
  body.foldlM (fun new entry =>
    match entry with
    | .live key item => dStructInsert new key item.copy
    | _ => pure new) newDStruct

/-- The loop of `d_queue_copy`: every element is popped, its copy goes to the
new queue and the element back to the old one. -/
def dQueueCopyLoop : Nat → List (Option Copied) → DQueue → Outcome (List (Option Copied) × DQueue)
  | 0, que, new => pure (que, new)
  | count + 1, que, new =>
    let (element, que) := queuePop que
    match element with
    | none => .error .assertion
    | some item => dQueueCopyLoop count (queuePush que (some item)) (queuePush new (some item.copy))

/-- One round of `d_array_copy`, with the cells it writes outside the new table. -/
def dArrayCopyCell (new : DArray Element × List Nat) (entry : Cell Copied × Nat) : Outcome (DArray Element × List Nat) :=
  match entry.1 with
  | .null => pure new
  | .elem item =>
    let (grown, stray) := dArraySetInternal new.1 entry.2 (some item.copy)
    pure (grown, new.2 ++ stray)
  | .uninit => .error .uninitialised
  | .dangling => .error .outside

/-- The loop of `d_array_copy`. A write outside the new table is where it stops. -/
def dArrayCopyLoop (cells : List (Cell Copied)) : Outcome (DArray Element) := do
  let (new, stray) ← cells.zipIdx.foldlM dArrayCopyCell (newDArray cells.length, [])
  if stray = [] then pure new else .error .outside

mutual
/-- The copy of one element, as the three copy routines make it. -/
def Element.copy : Element → Outcome Copied
  | .packed type data => pure ⟨.packed type data, .packed type data⟩
  | .str block => do
    let s ← CString.read block
    pure ⟨.str block, .str s.block⟩
  | .sizedbuf block => pure ⟨.sizedbuf block, .sizedbuf block⟩
  | .dstruct ⟨⟨size, body⟩, currentLen⟩ => do
    let body ← copyEntries body
    let new ← dStructCopyLoop body
    pure ⟨.dstruct ⟨⟨size, body.map (HashtableEntry.map Copied.original)⟩, currentLen⟩, .dstruct new⟩
  | .queue q => do
    let q ← copyQueue q
    let (q, new) ← dQueueCopyLoop (queueCount q) q []
    pure ⟨.queue (q.map (Option.map Copied.original)), .queue new⟩
  | .array ⟨realSize, cells⟩ => do
    let cells ← copyCells cells
    let new ← dArrayCopyLoop cells
    pure ⟨.array ⟨realSize, cells.map (Cell.map Copied.original)⟩, .array new⟩

def copyEntries : List (HashtableEntry Element) → Outcome (List (HashtableEntry Copied))
  | [] => pure []
  | .null :: rest => do
    let rest ← copyEntries rest
    pure (.null :: rest)
  | .dead :: rest => do
    let rest ← copyEntries rest
    pure (.dead :: rest)
  | .live key e :: rest => do
    let item ← e.copy
    let rest ← copyEntries rest
    pure (.live key item :: rest)

def copyQueue : List (Option Element) → Outcome (List (Option Copied))
  | [] => pure []
  | none :: rest => do
    let rest ← copyQueue rest
    pure (none :: rest)
  | some e :: rest => do
    let item ← e.copy
    let rest ← copyQueue rest
    pure (some item :: rest)

def copyCells : List (Cell Element) → Outcome (List (Cell Copied))
  | [] => pure []
  | .uninit :: rest => do
    let rest ← copyCells rest
    pure (.uninit :: rest)
  | .null :: rest => do
    let rest ← copyCells rest
    pure (.null :: rest)
  | .dangling :: rest => do
    let rest ← copyCells rest
    pure (.dangling :: rest)
  | .elem e :: rest => do
    let item ← e.copy
    let rest ← copyCells rest
    pure (.elem item :: rest)
end

/-- `d_struct_copy`, with the struct as it leaves it. -/
def dStructCopy (d : DStruct Element) : Outcome (DStruct Element × DStruct Element) := do
  let body ← copyEntries d.hashtable.body
  let new ← dStructCopyLoop body
  pure (new, ⟨⟨d.hashtable.size, body.map (HashtableEntry.map Copied.original)⟩, d.currentLen⟩)

/-- `d_queue_copy`, with the queue as it leaves it. -/
def dQueueCopy (q : DQueue) : Outcome (DQueue × DQueue) := do
  let q ← copyQueue q
  let (q, new) ← dQueueCopyLoop (queueCount q) q []
  pure (new, q.map (Option.map Copied.original))

/-- `d_array_copy`, with the array as it leaves it. -/
def dArrayCopy (a : DArray Element) : Outcome (DArray Element × DArray Element) := do
  let cells ← copyCells a.lookupTable
  let new ← dArrayCopyLoop cells
  pure (new, ⟨a.realSize, cells.map (Cell.map Copied.original)⟩)

theorem Element.copy_dstruct (d : DStruct Element) :
    (Element.dstruct d).copy = (fun result => ⟨.dstruct result.2, .dstruct result.1⟩) <$> dStructCopy d := by
  obtain ⟨⟨size, body⟩, currentLen⟩ := d
  simp [Element.copy, dStructCopy]

theorem Element.copy_queue (q : DQueue) :
    (Element.queue q).copy = (fun result => ⟨.queue result.2, .queue result.1⟩) <$> dQueueCopy q := by
  simp [Element.copy, dQueueCopy]

theorem Element.copy_array (a : DArray Element) :
    (Element.array a).copy = (fun result => ⟨.array result.2, .array result.1⟩) <$> dArrayCopy a := by
  obtain ⟨realSize, cells⟩ := a
  simp [Element.copy, dArrayCopy]

section Children
variable (twin : Element → Element)

/-- An element with a chosen copy. -/
def Element.withCopy (e : Element) : Copied := ⟨e, twin e⟩

theorem copyEntries_eq {body : List (HashtableEntry Element)}
    (copies : ∀ key e, .live key e ∈ body → e.copy = .ok (e.withCopy twin)) :
    copyEntries body = .ok (body.map (HashtableEntry.map (Element.withCopy twin))) := by
  induction body with
  | nil => rfl
  | cons entry body ih =>
    have rest := ih fun key e member => copies key e (List.mem_cons_of_mem _ member)
    cases entry with
    | null => simp [copyEntries, rest, HashtableEntry.map]
    | dead => simp [copyEntries, rest, HashtableEntry.map]
    | live key e => simp [copyEntries, rest, HashtableEntry.map, copies key e (List.mem_cons_self ..)]

theorem copyQueue_eq {q : DQueue} (copies : ∀ e, some e ∈ q → e.copy = .ok (e.withCopy twin)) :
    copyQueue q = .ok (q.map (Option.map (Element.withCopy twin))) := by
  induction q with
  | nil => rfl
  | cons item q ih =>
    have rest := ih fun e member => copies e (List.mem_cons_of_mem _ member)
    cases item with
    | none => simp [copyQueue, rest]
    | some e => simp [copyQueue, rest, copies e (List.mem_cons_self ..)]

theorem copyCells_eq {cells : List (Cell Element)} (copies : ∀ e, .elem e ∈ cells → e.copy = .ok (e.withCopy twin)) :
    copyCells cells = .ok (cells.map (Cell.map (Element.withCopy twin))) := by
  induction cells with
  | nil => rfl
  | cons cell cells ih =>
    have rest := ih fun e member => copies e (List.mem_cons_of_mem _ member)
    cases cell with
    | uninit => simp [copyCells, rest, Cell.map]
    | null => simp [copyCells, rest, Cell.map]
    | dangling => simp [copyCells, rest, Cell.map]
    | elem e => simp [copyCells, rest, Cell.map, copies e (List.mem_cons_self ..)]

theorem withCopy_original (e : Element) : (e.withCopy twin).original = e := rfl

end Children

/-- The copy of a struct sees the copied bindings inserted, in slot order. -/
theorem dStructCopyLoop_eq (size : Nat) (body : List (HashtableEntry Copied)) :
    dStructCopyLoop body = ((Hashtable.bindings ⟨size, body⟩).map (Prod.map id Copied.copy)).foldlM
      (fun d field => dStructInsert d field.1 field.2) newDStruct := by
  unfold dStructCopyLoop Hashtable.bindings
  rw [List.foldlM_map, List.foldlM_filterMap]
  congr 1
  funext new entry
  cases entry <;> rfl

/-- One round of the rotation: the copies come out in order and the queue is
the one it was. The induction is on the elements still at the front. -/
theorem dQueueCopyLoop_eq {front : List (Option Copied)} (full : none ∉ front) (back : List (Option Copied)) (new : DQueue) :
    dQueueCopyLoop front.length (front ++ back) new = .ok (back ++ front, new ++ front.map (Option.map Copied.copy)) := by
  induction front generalizing back new with
  | nil => simp [dQueueCopyLoop]
  | cons item front ih =>
    cases item with
    | none => exact absurd List.mem_cons_self full
    | some item =>
      have rest := ih (fun member => full (List.mem_cons_of_mem _ member)) (back ++ [some item]) (new ++ [some item.copy])
      rw [List.append_assoc, List.singleton_append, List.append_assoc, List.singleton_append, ← List.append_assoc] at rest
      exact rest

/-- The rounds from an index on stay within the table and store the copies of
the occupied cells. -/
theorem dArrayCopyCell_run {first : Nat} {cells : List (Cell Copied)} {new : DArray Element} (initialised : .uninit ∉ cells)
    (live : .dangling ∉ cells) (bound : first + cells.length ≤ new.lookupSize) :
    (cells.zipIdx first).foldlM dArrayCopyCell (new, []) =
      .ok (new.storeAll (((cells.zipIdx first).filterMap fun entry => entry.1.element.map (Prod.mk entry.2)).map
        (Prod.map id Copied.copy)), []) := by
  induction cells generalizing first new with
  | nil => rfl
  | cons cell cells ih =>
    rw [List.length_cons] at bound
    have later : ∀ {new : DArray Element}, first + 1 + cells.length ≤ new.lookupSize → _ := fun bound =>
      ih (fun member => initialised (List.mem_cons_of_mem _ member))
        (fun member => live (List.mem_cons_of_mem _ member)) bound
    rw [List.zipIdx_cons, List.foldlM_cons]
    cases cell with
    | uninit => exact absurd List.mem_cons_self initialised
    | dangling => exact absurd List.mem_cons_self live
    | null => exact later (by omega)
    | elem item =>
      have within : first < new.lookupSize := by omega
      rw [dArrayCopyCell]
      dsimp only
      rw [dArraySetInternal_within _ within]
      exact later (by rw [DArray.store_lookupSize]; omega)

theorem dArrayCopyLoop_eq {cells : List (Cell Copied)} (initialised : .uninit ∉ cells) (live : .dangling ∉ cells) :
    dArrayCopyLoop cells =
      .ok ((newDArray cells.length).storeAll ((cellFields cells).map (Prod.map id Copied.copy))) := by
  have size := newDArray_lookupSize Element cells.length
  unfold dArrayCopyLoop
  rw [dArrayCopyCell_run initialised live (by omega)]
  rfl

/-- Copying leaves the element as it was and makes a well-formed one that means the same. -/
structure Element.CopiesTo (e e' : Element) : Prop where
  run : e.copy = .ok ⟨e, e'⟩
  value : e'.value = e.value
  wf : e'.Wf

section Containers

theorem dStructCopy_spec {d : DStruct Element} (wf : (Element.dstruct d).Wf)
    (children : ∀ key e, (key, e) ∈ d.hashtable.bindings → ∃ e', e.CopiesTo e') :
    ∃ d', dStructCopy d = .ok (d', d) ∧ d'.value = d.value ∧ (Element.dstruct d').Wf := by
  obtain ⟨⟨size, body⟩, currentLen⟩ := d
  cases wf with
  | dstruct table fields =>
    have each : ∀ e, (∃ key, (key, e) ∈ Hashtable.bindings ⟨size, body⟩) → ∃ e', e.CopiesTo e' := by
      rintro e ⟨key, member⟩
      exact children key e member
    choose! twin copies using each
    have entries : copyEntries body = .ok (body.map (HashtableEntry.map (Element.withCopy twin))) :=
      copyEntries_eq twin fun key e member => (copies e ⟨key, List.mem_filterMap.mpr ⟨_, member, rfl⟩⟩).run
    have inserted := dStructCopyLoop_eq size (body.map (HashtableEntry.map (Element.withCopy twin)))
    rw [bindings_map, List.map_map,
      show Prod.map id Copied.copy ∘ Prod.map id (Element.withCopy twin) = Prod.map (id : CString → CString) twin from rfl]
      at inserted
    have distinct : (((Hashtable.bindings ⟨size, body⟩).map (Prod.map id twin)).map Prod.fst).Nodup := by
      rw [List.map_map]
      exact table.table.keys_nodup
    obtain ⟨d', fold, filled⟩ := DStruct.Filled.fold distinct
    refine ⟨d', ?_, ?_, .dstruct filled.wf fun key e member => ?_⟩
    · rw [dStructCopy, entries, ok_bind, inserted, fold, ok_bind, entries_undone (withCopy_original twin)]
      rfl
    · funext key
      rw [DStruct.value_eq, DStruct.value_eq, filled.lookup,
        lookup_map_value (fun name e member => (copies e ⟨name, member⟩).value) table.table.keys_nodup]
      rfl
    · obtain ⟨⟨_, old⟩, inside, shape⟩ := List.mem_map.mp (filled.bindings.mem_iff.mp member)
      cases shape
      exact (copies old ⟨_, inside⟩).wf

/-- The copy of a queue holds the copies of its elements, and the queue is as it was. -/
theorem dQueueCopy_run {q : DQueue} (full : none ∉ q) {twin : Element → Element}
    (copies : ∀ e, some e ∈ q → e.copy = .ok (e.withCopy twin)) :
    dQueueCopy q = .ok (q.map (Option.map twin), q) := by
  have none_there : none ∉ q.map (Option.map (Element.withCopy twin)) := by
    intro member
    obtain ⟨item, inside, shape⟩ := List.mem_map.mp member
    rw [Option.map_eq_none_iff] at shape
    exact full (shape ▸ inside)
  have round := dQueueCopyLoop_eq none_there [] []
  rw [List.append_nil, List.nil_append, List.nil_append, List.map_map, Option.map_comp_map] at round
  rw [dQueueCopy, copyQueue_eq twin copies, ok_bind, queueCount, round, ok_bind]
  dsimp only
  rw [queue_undone (withCopy_original twin)]
  rfl

theorem dQueueCopy_spec {q : DQueue} (full : none ∉ q) (children : ∀ e, some e ∈ q → ∃ e', e.CopiesTo e') :
    ∃ q', dQueueCopy q = .ok (q', q) ∧ queueValue q' = queueValue q ∧ (Element.queue q').Wf := by
  choose! twin copies using children
  have run := dQueueCopy_run full fun e member => (copies e member).run
  refine ⟨q.map (Option.map twin), run, ?_, .queue ?_ fun e member => ?_⟩
  · rw [queueValue_eq, queueValue_eq, List.map_map]
    refine List.map_congr_left fun item member => ?_
    cases item with
    | none => rfl
    | some e => exact congrArg some (copies e member).value
  · intro member
    obtain ⟨item, inside, shape⟩ := List.mem_map.mp member
    rw [Option.map_eq_none_iff] at shape
    exact full (shape ▸ inside)
  · obtain ⟨item, inside, shape⟩ := List.mem_map.mp member
    obtain ⟨old, rfl, rfl⟩ := Option.map_eq_some_iff.mp shape
    exact (copies old inside).wf

/-- The copy of an array has the copies at the same indices and counts them. -/
theorem dArrayCopy_spec {a : DArray Element} (table : a.Wf) (children : ∀ e, .elem e ∈ a.lookupTable → ∃ e', e.CopiesTo e') :
    ∃ a', dArrayCopy a = .ok (a', a) ∧ a'.value = a.value ∧ (Element.array a').Wf ∧
      a'.realSize = a'.elements.length ∧ a'.lookupSize = max a.lookupSize 1 := by
  obtain ⟨realSize, cells⟩ := a
  choose! twin copies using children
  have copied : copyCells cells = .ok (cells.map (Cell.map (Element.withCopy twin))) :=
    copyCells_eq twin fun e member => (copies e member).run
  have initialised : .uninit ∉ cells.map (Cell.map (Element.withCopy twin)) := fun member => by
    obtain ⟨cell, inside, shape⟩ := List.mem_map.mp member
    cases cell <;> cases shape
    exact table.initialised inside
  have live : .dangling ∉ cells.map (Cell.map (Element.withCopy twin)) := fun member => by
    obtain ⟨cell, inside, shape⟩ := List.mem_map.mp member
    cases cell <;> cases shape
    exact table.live inside
  have loop := dArrayCopyLoop_eq initialised live
  rw [cellFields_map, List.map_map, List.length_map, show Prod.map id Copied.copy ∘ Prod.map id (Element.withCopy twin) =
    Prod.map (id : Nat → Nat) twin from rfl] at loop
  have distinct : (((cellFields cells).map (Prod.map id twin)).map Prod.fst).Nodup := by
    rw [List.map_map]
    exact cellFields_indices_nodup cells
  have within : ∀ entry ∈ (cellFields cells).map (Prod.map id twin), entry.1 < cells.length := by
    intro entry member
    obtain ⟨⟨i, e⟩, inside, rfl⟩ := List.mem_map.mp member
    exact (List.getElem?_eq_some_iff.mp (mem_cellFields.mp inside)).choose
  obtain ⟨stored, counted, lookup⟩ := newDArray_storeAll distinct within table.allocated
  have reads : ∀ i, ((newDArray cells.length).storeAll ((cellFields cells).map (Prod.map id twin))).lookup i =
      (DArray.lookup ⟨realSize, cells⟩ i).map twin := by
    intro i
    apply Option.ext
    intro e
    rw [lookup, List.mem_map, Option.map_eq_some_iff]
    constructor
    · rintro ⟨⟨j, old⟩, inside, shape⟩
      cases shape
      exact ⟨old, DArray.mem_fields.mp inside, rfl⟩
    · rintro ⟨old, held, rfl⟩
      exact ⟨(i, old), DArray.mem_fields.mpr held, rfl⟩
  refine ⟨_, by rw [dArrayCopy, copied, ok_bind, loop, ok_bind, cells_undone (withCopy_original twin)]; rfl, ?_,
    .array stored fun e member => ?_, counted, (DArray.storeAll_lookupSize _ _).trans (newDArray_lookupSize Element _)⟩
  · funext i
    rw [DArray.value_eq, DArray.value_eq, reads]
    cases there : DArray.lookup ⟨realSize, cells⟩ i with
    | none => rfl
    | some e => exact congrArg some (copies e (List.mem_of_getElem? (DArray.lookup_eq_some.mp there))).value
  · obtain ⟨i, at_i⟩ := List.mem_iff_getElem?.mp member
    have held := DArray.lookup_eq_some.mpr at_i
    rw [reads] at held
    obtain ⟨old, there, rfl⟩ := Option.map_eq_some_iff.mp held
    exact (copies old (List.mem_of_getElem? (DArray.lookup_eq_some.mp there))).wf

end Containers

/-- Copying an element copies everything below it, by induction on the element. -/
theorem Element.Wf.copies {e : Element} (wf : e.Wf) : ∃ e', e.CopiesTo e' := by
  induction e using Element.induct with
  | packed type data => exact ⟨.packed type data, by simp [Element.copy], rfl, wf⟩
  | str block =>
    cases wf with
    | str terminated =>
      obtain ⟨s, content, bytes⟩ := CString.read_terminated terminated
      refine ⟨.str s.block, ?_, ?_, .str (by simp [CString.block])⟩
      · rw [Element.copy, content]
        rfl
      · rw [Element.value, Element.value, ← bytes]
        exact congrArg Value.str (CString.takeWhile_append_nul s [])
  | sizedbuf block => exact ⟨.sizedbuf block, by simp [Element.copy], rfl, wf⟩
  | dstruct d ih =>
    obtain ⟨d', run, value, wf'⟩ := dStructCopy_spec wf fun key e member => by
      cases wf with
      | dstruct table fields => exact ih key e member (fields key e member)
    refine ⟨.dstruct d', ?_, congrArg Value.struct value, wf'⟩
    rw [Element.copy_dstruct, run]
    rfl
  | queue q ih =>
    cases wf with
    | queue full items =>
      obtain ⟨q', run, value, wf'⟩ := dQueueCopy_spec full fun e member => ih e member (items e member)
      refine ⟨.queue q', ?_, ?_, wf'⟩
      · rw [Element.copy_queue, run]
        rfl
      · rw [Element.value, Element.value, value]
  | array a ih =>
    cases wf with
    | array table items =>
      obtain ⟨a', run, value, wf', -⟩ := dArrayCopy_spec table fun e member => ih e member (items e member)
      refine ⟨.array a', ?_, congrArg Value.array value, wf'⟩
      rw [Element.copy_array, run]
      rfl

/-- Deep copies are equal to their originals: each copy routine returns a
container that binds the same keys, positions and indices to values that mean
the same all the way down, and leaves the container it was given as it was,
with every queue in it. -/
theorem containerCopy_equal :
    (∀ d, (Element.dstruct d).Wf → ∃ d', dStructCopy d = .ok (d', d) ∧ d'.value = d.value ∧ (Element.dstruct d').Wf) ∧
    (∀ q, (Element.queue q).Wf → ∃ q', dQueueCopy q = .ok (q', q) ∧ queueValue q' = queueValue q ∧ (Element.queue q').Wf) ∧
    (∀ a, (Element.array a).Wf → ∃ a', dArrayCopy a = .ok (a', a) ∧ a'.value = a.value ∧ (Element.array a').Wf ∧
      a'.realSize = a'.elements.length) := by
  refine ⟨fun d wf => ?_, fun q wf => ?_, fun a wf => ?_⟩
  · refine dStructCopy_spec wf fun key e member => ?_
    cases wf with
    | dstruct table fields => exact (fields key e member).copies
  · cases wf with
    | queue full items => exact dQueueCopy_spec full fun e member => (items e member).copies
  · cases wf with
    | array table items =>
      obtain ⟨a', run, value, wf', counted, -⟩ := dArrayCopy_spec table fun e member => (items e member).copies
      exact ⟨a', run, value, wf', counted⟩

/-- A sparse array that holds a queue of a string and a number. -/
def queueArray : DArray Element := ⟨1, [.null, .elem (.queue [some (.str [104, 105, 0]), some (.packed 1 ⟨1, [7]⟩)])]⟩

theorem queueArray_wf : (Element.array queueArray).Wf := by
  refine .array ⟨by simp [queueArray], by simp [queueArray], by decide, by decide⟩ fun e member => ?_
  obtain same | later := List.mem_cons.mp member
  · cases same
  cases List.mem_singleton.mp later
  refine .queue (by simp) fun e member => ?_
  obtain same | member := List.mem_cons.mp member
  · cases same
    exact .str (by decide)
  · cases List.mem_singleton.mp member
    exact @Element.Wf.packed .dInt8 [7] rfl

theorem containerCopy_equal_sparse : ∃ a', dArrayCopy queueArray = .ok (a', queueArray) ∧ a'.value = queueArray.value ∧
    (Element.array a').Wf ∧ a'.realSize = a'.elements.length :=
  containerCopy_equal.2.2 queueArray queueArray_wf

end DynamicRPC
