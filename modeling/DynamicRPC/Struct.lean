import DynamicRPC.HashtableSpec
import DynamicRPC.Types

namespace DynamicRPC

/-- The fields of `struct d_struct_element` that the containers inspect. -/
class DStructElement (E : Type) where
  type : E → UInt8
  isPacked : E → Bool

/-- What `native_type` and `type` of a setter amount to: a null pointer, a type
that falls into the default branch of the switch, or the element it builds. -/
inductive Native (E : Type)
  | null
  | unsupported
  | element (e : E)

structure DStruct (E : Type) where
  hashtable : Hashtable E
  currentLen : Nat

variable {E : Type}

def newDStruct : DStruct E where
  hashtable := hashtableCreate
  currentLen := 0

/-- The table is well formed and `current_len` counts its keys. -/
structure DStruct.Wf (d : DStruct E) : Prop where
  table : d.hashtable.Wf
  counted : d.currentLen = d.hashtable.bindings.length

theorem newDStruct_wf : (newDStruct : DStruct E).Wf where
  table := hashtableCreate_refill.wf
  counted := by rw [newDStruct, hashtableCreate_bindings]; rfl

/-- How the codec adds a field: `hashtable_set` and `current_len++`, without
looking for the key. -/
def dStructInsert (d : DStruct E) (key : CString) (e : E) : Outcome (DStruct E) := do
  let table ← hashtableSet d.hashtable key e
  pure { hashtable := table, currentLen := d.currentLen + 1 }

section Operations
variable [DStructElement E] [Inhabited E]

/-- `d_struct_set`. A new element enters the table before the switch fills it,
so an unsupported type inserts the key and takes it out again. -/
def dStructSet (d : DStruct E) (key : CString) : Native E → Outcome (DStruct E)
  | .null => pure d
  | .element e => do
    let found ← hashtableGet d.hashtable key
    let table ← hashtableSet d.hashtable key e
    let len := if found.isSome then d.currentLen - 1 else d.currentLen
    pure { hashtable := table, currentLen := len + 1 }
  | .unsupported => do
    let found ← hashtableGet d.hashtable key
    if found.isSome then do
      let table ← hashtableRemove d.hashtable key
      pure { hashtable := table, currentLen := d.currentLen - 1 }
    else do
      let table ← hashtableSet d.hashtable key default
      let table ← hashtableRemove table key
      pure { hashtable := table, currentLen := d.currentLen }

omit [Inhabited E] in
/-- `d_struct_get`: the element, or `none` for the return value 1. -/
def dStructGet (d : DStruct E) (key : CString) (type : DrpcTypes) : Outcome (Option E) := do
  let found ← hashtableGet d.hashtable key
  pure (found.filter fun e => DStructElement.type e == type.toChar)

omit [Inhabited E] in
def dStructGetType (d : DStruct E) (key : CString) : Outcome UInt8 := do
  let found ← hashtableGet d.hashtable key
  pure ((found.map DStructElement.type).getD DrpcTypes.dVoid.toChar)

omit [Inhabited E] in
/-- `d_struct_unlink`, with its success. Packed elements stay. -/
def dStructUnlink (d : DStruct E) (key : CString) : Outcome (DStruct E × Bool) := do
  let found ← hashtableGet d.hashtable key
  match found with
  | some e =>
    if DStructElement.isPacked e then pure (d, false)
    else do
      let table ← hashtableRemove d.hashtable key
      pure ({ hashtable := table, currentLen := d.currentLen - 1 }, true)
  | none => pure (d, false)

omit [DStructElement E] [Inhabited E] in
def dStructRemove (d : DStruct E) (key : CString) : Outcome (DStruct E × Bool) := do
  let found ← hashtableGet d.hashtable key
  match found with
  | some _ => do
    let table ← hashtableRemove d.hashtable key
    pure ({ hashtable := table, currentLen := d.currentLen - 1 }, true)
  | none => pure (d, false)

omit [DStructElement E] [Inhabited E] in
/-- Writing through the pointer that `d_struct_get` returned for a key. -/
def dStructModify (d : DStruct E) (key : CString) (f : E → E) : Outcome (DStruct E) := do
  let index ← hashtableFindSlot d.hashtable key
  match d.hashtable.body[index]? with
  | some (.live same e) => pure { d with hashtable := d.hashtable.store d.hashtable.size index (.live same (f e)) }
  | _ => pure d

/-- `d_struct_get_fields`: an array of `current_len` pointers, zeroed, that the
loop over the table fills from the front. -/
def dStructGetFields (d : DStruct E) : Outcome (List (Option CString)) :=
  if d.currentLen = 0 then pure []
  else if d.currentLen < d.hashtable.keys.length then .error .outside
  else pure (d.hashtable.keys.map some ++ List.replicate (d.currentLen - d.hashtable.keys.length) none)

end Operations

section Pointers
open Outcome
variable {d : DStruct E} {key : CString}

/-- Writing through the pointer of a field is read back by its key. -/
theorem dStructModify_get {e : E} (found : hashtableGet d.hashtable key = .ok (some e)) (f : E → E) :
    ∃ d', dStructModify d key f = .ok d' ∧ hashtableGet d'.hashtable key = .ok (some (f e)) := by
  obtain ⟨index, run, found⟩ := bind_eq_ok.mp found
  obtain ⟨within, null | ⟨value, live⟩⟩ := hashtableFindSlot_spec run
  · rw [null] at found
    cases found
  · rw [live] at found
    cases found
    refine ⟨_, by rw [dStructModify, run, ok_bind, live]; rfl, ?_⟩
    have slots := Hashtable.store_slot d.hashtable.size (.live key (f e)) within
    have here := slots index
    rw [if_pos rfl] at here
    have again : hashtableFindSlot (d.hashtable.store d.hashtable.size index (.live key (f e))) key = .ok index := by
      refine Hashtable.store_findSlot within run (fun _ => hashtableSlotStops_iff.mpr (Or.inr ⟨e, live⟩)) ?_
      exact hashtableSlotStops_iff.mpr (Or.inr ⟨f e, here⟩)
    rw [hashtableGet, again, ok_bind, here]
    rfl

variable [DStructElement E]

theorem dStructGet_some {type : DrpcTypes} {e : E} (found : dStructGet d key type = .ok (some e)) :
    hashtableGet d.hashtable key = .ok (some e) ∧ DStructElement.type e = type.toChar := by
  obtain ⟨held, get, same⟩ := bind_eq_ok.mp found
  have filtered := Option.filter_eq_some_iff.mp (Except.ok.inj same)
  exact ⟨filtered.1 ▸ get, by simpa using filtered.2⟩

theorem dStructGet_of_get {type : DrpcTypes} {e : E} (held : hashtableGet d.hashtable key = .ok (some e))
    (same : DStructElement.type e = type.toChar) : dStructGet d key type = .ok (some e) := by
  rw [dStructGet, held, ok_bind, Option.filter_some, if_pos]
  · rfl
  · exact beq_of_eq same

end Pointers

/-- A struct that only saw the given keys inserted, in some order. -/
structure DStruct.Filled (entries : List (CString × E)) (d : DStruct E) : Prop where
  table : d.hashtable.Wf
  noDead : d.hashtable.deadCount = 0
  bindings : d.hashtable.bindings.Perm entries
  counted : d.currentLen = entries.length

namespace DStruct.Filled
variable {entries : List (CString × E)} {d : DStruct E}

theorem start : (newDStruct : DStruct E).Filled [] where
  table := hashtableCreate_refill.wf
  noDead := hashtableCreate_refill.noDead
  bindings := by rw [newDStruct, hashtableCreate_bindings]
  counted := rfl

theorem wf (filled : d.Filled entries) : d.Wf where
  table := filled.table
  counted := by rw [filled.counted, filled.bindings.length_eq]

theorem room (filled : d.Filled entries) : 0 < d.hashtable.nullCount :=
  filled.table.room filled.noDead

theorem keys (filled : d.Filled entries) : d.hashtable.keys.Perm (entries.map Prod.fst) :=
  filled.bindings.map Prod.fst

theorem nodup (filled : d.Filled entries) : (entries.map Prod.fst).Nodup :=
  filled.keys.nodup_iff.mp filled.table.keys_nodup

theorem insert {key : CString} {e : E} (filled : d.Filled entries) (absent : key ∉ entries.map Prod.fst) :
    ∃ d', dStructInsert d key e = .ok d' ∧ d'.Filled (entries ++ [(key, e)]) := by
  have fresh : key ∉ d.hashtable.keys := fun member => absent (filled.keys.mem_iff.mp member)
  obtain ⟨table, run, inserted⟩ := hashtableSet_inserted filled.table e filled.room fresh
  refine ⟨⟨table, d.currentLen + 1⟩, by rw [dStructInsert, run]; rfl, inserted.wf, ?_, ?_, ?_⟩
  · rcases inserted.slots with ⟨_, _, same⟩ | ⟨_, none_left⟩
    · rw [same, filled.noDead]
    · exact none_left
  · exact inserted.bindings.trans ((List.Perm.cons _ filled.bindings).trans (List.perm_append_singleton _ _).symm)
  · rw [List.length_append, filled.counted]
    rfl

theorem get (filled : d.Filled entries) (key : CString) : hashtableGet d.hashtable key = .ok (entries.lookup key) := by
  rw [filled.table.get_eq (Or.inl filled.room), Hashtable.lookup,
    Assoc.lookup_perm filled.bindings filled.table.keys_nodup]

/-- Setting a new key of a struct that only saw insertions. -/
theorem set [Inhabited E] (key : CString) (e : E) (filled : d.Filled entries) (absent : key ∉ entries.map Prod.fst) :
    ∃ d', dStructSet d key (.element e) = .ok d' ∧ d'.Filled (entries ++ [(key, e)]) := by
  obtain ⟨d', run, kept⟩ := filled.insert (e := e) absent
  refine ⟨d', ?_, kept⟩
  rw [dStructSet, filled.get, Assoc.lookup_eq_none_iff_not_mem.mpr absent]
  exact run

/-- Adding fields with distinct keys one by one returns and keeps them all. -/
theorem fold (distinct : (entries.map Prod.fst).Nodup) :
    ∃ d', entries.foldlM (fun d field => dStructInsert d field.1 field.2) newDStruct = .ok d' ∧ d'.Filled entries := by
  refine Outcome.foldlM_invariant (fun past d => DStruct.Filled past d) [] ?_ start
  intro before next after d shape filled
  refine filled.insert fun member => ?_
  rw [← List.nil_append entries, shape, List.map_append, List.map_cons, List.nodup_middle, List.nodup_cons] at distinct
  exact distinct.1 (List.mem_append_left _ member)

theorem lookup (filled : d.Filled entries) (key : CString) : d.hashtable.lookup key = entries.lookup key :=
  Assoc.lookup_perm filled.bindings filled.table.keys_nodup key

end DStruct.Filled

theorem dStructGetFields_counted {d : DStruct E} (counted : d.currentLen = d.hashtable.bindings.length) :
    dStructGetFields d = .ok (d.hashtable.keys.map some) := by
  have length : d.hashtable.keys.length = d.hashtable.bindings.length := List.length_map ..
  unfold dStructGetFields
  split
  · have empty : d.hashtable.keys = [] := List.eq_nil_of_length_eq_zero (by omega)
    rw [empty]
    rfl
  · rw [if_neg (by omega), show d.currentLen - d.hashtable.keys.length = 0 by omega]
    simp

end DynamicRPC
