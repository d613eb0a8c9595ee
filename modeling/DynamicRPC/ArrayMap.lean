import DynamicRPC.ArraySet
import DynamicRPC.Library.Assoc

namespace DynamicRPC
open List
variable {E : Type}

/-- An array whose table of `size` cells is initialised and holds a map. -/
structure DArray.Holds (a : DArray E) (size : Nat) (map : Nat → Option E) : Prop where
  size : a.lookupSize = size
  initialised : .uninit ∉ a.lookupTable
  live : .dangling ∉ a.lookupTable
  counted : a.elements.length ≤ a.realSize
  lookup : ∀ i, a.lookup i = map i

namespace DArray.Holds
variable {a : DArray E} {size index : Nat} {map : Nat → Option E}

theorem start (startCapacity : Nat) : (newDArray startCapacity : DArray E).Holds (max startCapacity 1) fun _ => none where
  size := newDArray_lookupSize E startCapacity
  initialised := fun member => by cases newDArray_cell member
  live := fun member => by cases newDArray_cell member
  counted := by
    rw [newDArray_elements]
    exact Nat.zero_le _
  lookup := fun i => newDArray_lookup startCapacity

variable (holds : a.Holds size map)
include holds

/-- Reading never meets a cell that was not written. -/
theorem get : dArrayGetInternal a index = .ok (map index) := by
  have held := holds.lookup index
  unfold DArray.lookup at held
  unfold dArrayGetInternal
  cases at_index : a.lookupTable[index]? with
  | none =>
    rw [at_index] at held
    exact congrArg _ held
  | some cell =>
    rw [at_index] at held
    cases cell with
    | uninit => exact absurd (List.mem_of_getElem? at_index) holds.initialised
    | dangling => exact absurd (List.mem_of_getElem? at_index) holds.live
    | null => exact congrArg _ held
    | elem e => exact congrArg _ held

theorem elements_store (element : Option E) (within : index < size) :
    (a.store index element).elements.length + (map index).toList.length = a.elements.length + element.toList.length := by
  obtain ⟨old, at_index⟩ : ∃ old, a.lookupTable[index]? = some old := by
    rw [← holds.size] at within
    exact ⟨_, List.getElem?_eq_getElem within⟩
  obtain ⟨rest, before, after⟩ := Assoc.filterMap_set_perm Cell.element at_index (Cell.ofPointer element)
  have held := holds.lookup index
  unfold DArray.lookup at held
  rw [at_index, Option.bind_some] at held
  rw [held] at before
  rw [Cell.element_ofPointer] at after
  have length := before.length_eq
  have length' := after.length_eq
  unfold DArray.elements DArray.store
  rw [length, length', List.length_append, List.length_append]
  omega

theorem store (element : Option E) (within : index < size) (realSize : Nat)
    (counted : (a.store index element).elements.length ≤ realSize) :
    ({ a.store index element with realSize := realSize } : DArray E).Holds size (Function.update map index element) where
  size := (DArray.store_lookupSize (a := a) element).trans holds.size
  initialised := fun member => by
    rcases DArray.store_cell member with written | before
    · cases element <;> cases written
    · exact holds.initialised before
  live := fun member => by
    rcases DArray.store_cell member with written | before
    · cases element <;> cases written
    · exact holds.live before
  counted := counted
  lookup := fun i => by
    have stored := DArray.store_lookup (i := i) element (by rw [holds.size]; exact within : index < a.lookupSize)
    refine Eq.trans stored ?_
    rw [Function.update_apply, holds.lookup]

/-- Removing keeps the map, and never writes outside the table. -/
theorem del (index : Nat) : ∃ a', dArrayDelInternal a index = .ok a' ∧ a'.Holds size (Function.update map index none) := by
  rw [dArrayDelInternal, holds.get, Outcome.ok_bind]
  cases held : map index with
  | none =>
    refine ⟨a, rfl, { holds with lookup := fun i => ?_ }⟩
    rw [Function.update_apply, holds.lookup]
    split
    · rename_i same
      rw [same, held]
    · rfl
  | some e =>
    have occupied : (a.lookup index).isSome := by rw [holds.lookup, held]; rfl
    have within := DArray.lookup_isSome_lt occupied
    rw [holds.size] at within
    have fewer := holds.elements_store none within
    have counted := holds.counted
    rw [held] at fewer
    simp only [Option.toList_some, Option.toList_none, List.length_cons, List.length_nil] at fewer
    exact ⟨_, rfl, holds.store none within (a.realSize - 1) (by omega)⟩

end DArray.Holds

section Calls
variable [DStructElement E]

/-- A call of the array interface, on an array of elements of the supported types. -/
inductive ArrayCall (E : Type)
  | set (index : Nat) (e : E)
  | get (index : Nat) (type : UInt8)
  | getType (index : Nat)
  | remove (index : Nat)
  | unlink (index : Nat)

/-- The call, with the cells it writes outside the table. -/
def ArrayCall.run (call : ArrayCall E) (a : DArray E) : Outcome (DArray E × List Nat) :=
  match call with
  | .set index e => dArraySet a index (.element e)
  | .get index type => do
    let _ ← dArrayGet a index type
    pure (a, [])
  | .getType index => do
    let _ ← dArrayGetType a index
    pure (a, [])
  | .remove index => do
    let a ← dArrayRemove a index
    pure (a, [])
  | .unlink index => do
    let (a, _) ← dArrayUnlink a index
    pure (a, [])

def runArray (calls : List (ArrayCall E)) (start : DArray E × List Nat) : Outcome (DArray E × List Nat) :=
  calls.foldlM (fun current call => do
    let (a, stray) ← call.run current.1
    pure (a, current.2 ++ stray)) start

/-- The partial map that an array stands for, after a call. Unlinking a packed
element is refused. -/
def ArrayCall.apply (map : Nat → Option E) : ArrayCall E → Nat → Option E
  | .set index e => Function.update map index (some e)
  | .get _ _ => map
  | .getType _ => map
  | .remove index => Function.update map index none
  | .unlink index => if (map index).any DStructElement.isPacked then map else Function.update map index none

def ArrayCall.applyAll (calls : List (ArrayCall E)) : Nat → Option E :=
  calls.foldl ArrayCall.apply fun _ => none

section Step
variable {a : DArray E} {size : Nat} {map : Nat → Option E}

/-- Every call whose index lies in the table returns, keeps the map up to date
and writes inside the table only. -/
theorem DArray.Holds.step (call : ArrayCall E) (holds : a.Holds size map) (inside : ∀ index e, call = .set index e → index < size) :
    ∃ a', call.run a = .ok (a', []) ∧ a'.Holds size (call.apply map) := by
  cases call with
  | set index e =>
    have within := inside index e rfl
    have bound := holds.elements_store (some e) within
    have counted := holds.counted
    refine ⟨a.store index (some e), ?_, holds.store (some e) within (a.realSize + 1) ?_⟩
    · rw [ArrayCall.run, dArraySet, holds.get, Outcome.ok_bind,
        dArraySetInternal_within _ (by rw [holds.size]; exact within)]
      rfl
    · simp only [Option.toList_some, List.length_cons, List.length_nil] at bound
      omega
  | get index type => exact ⟨a, by rw [ArrayCall.run, dArrayGet, holds.get]; rfl, holds⟩
  | getType index => exact ⟨a, by rw [ArrayCall.run, dArrayGetType, holds.get]; rfl, holds⟩
  | remove index =>
    obtain ⟨a', run, held⟩ := holds.del index
    exact ⟨a', by rw [ArrayCall.run, dArrayRemove, run]; rfl, held⟩
  | unlink index =>
    rw [ArrayCall.run, dArrayUnlink, holds.get, ArrayCall.apply]
    cases held : map index with
    | none =>
      refine ⟨a, rfl, ?_⟩
      rw [Option.any_none, if_neg (by decide), Function.update_eq_self_iff.mpr held.symm]
      exact holds
    | some e =>
      cases packed : DStructElement.isPacked e with
      | true =>
        refine ⟨a, ?_, ?_⟩
        · simp [packed]
        · rwa [Option.any_some, if_pos packed]
      | false =>
        obtain ⟨a', run, held⟩ := holds.del index
        refine ⟨a', ?_, ?_⟩
        · simp [packed, run]
        · rwa [Option.any_some, if_neg (by rw [packed]; decide)]

end Step

/-- What the readers of an array see: the type and the value of an index in
the map, and nothing elsewhere. -/
def DArray.Reads (a : DArray E) (map : Nat → Option E) : Prop :=
  ∀ index, dArrayGetType a index = .ok (((map index).map DStructElement.type).getD DrpcTypes.dVoid.toChar) ∧
    ∀ type, dArrayGet a index type = .ok ((map index).filter fun e => DStructElement.type e == type)

theorem DArray.Holds.reads {a : DArray E} {size : Nat} {map : Nat → Option E} (holds : a.Holds size map) :
    a.Reads map := by
  intro index
  refine ⟨?_, fun type => ?_⟩
  · rw [dArrayGetType, holds.get]
    rfl
  · rw [dArrayGet, holds.get]
    rfl

/-- The cells written outside the table are never forgotten. -/
theorem runArray_stray {calls : List (ArrayCall E)} {start last : DArray E × List Nat}
    (run : runArray calls start = .ok last) : start.2 <+: last.2 := by
  induction calls generalizing start with
  | nil =>
    cases run
    exact List.prefix_rfl
  | cons call calls ih =>
    obtain ⟨next, step, rest⟩ := Outcome.bind_eq_ok.mp run
    obtain ⟨⟨a, stray⟩, _, same⟩ := Outcome.bind_eq_ok.mp step
    cases same
    exact (List.prefix_append _ _).trans (ih rest)

/-- A run whose calls stay inside the table. The induction is on the calls. -/
theorem runArray_within {calls : List (ArrayCall E)} {a : DArray E} {size : Nat} {map : Nat → Option E}
    (holds : a.Holds size map) (inside : ∀ index e, .set index e ∈ calls → index < size) :
    ∃ a', runArray calls (a, []) = .ok (a', []) ∧ a'.Holds size (calls.foldl ArrayCall.apply map) := by
  induction calls generalizing a map with
  | nil => exact ⟨a, rfl, holds⟩
  | cons call calls ih =>
    obtain ⟨next, step, kept⟩ := DArray.Holds.step call holds fun index e same =>
      inside index e (same ▸ List.mem_cons_self ..)
    obtain ⟨last, rest, held⟩ := ih kept fun index e member => inside index e (List.mem_cons_of_mem _ member)
    refine ⟨last, ?_, held⟩
    rw [runArray, List.foldlM_cons, step, Outcome.ok_bind]
    exact rest

/-- A run that wrote inside the table only never called for its growth. -/
theorem runArray_inside {calls : List (ArrayCall E)} {a last : DArray E} {size : Nat} {map : Nat → Option E}
    (positive : 0 < size) (holds : a.Holds size map) (run : runArray calls (a, []) = .ok (last, [])) :
    ∀ index e, .set index e ∈ calls → index < size := by
  induction calls generalizing a map with
  | nil =>
    intro index e member
    cases member
  | cons call calls ih =>
    obtain ⟨next, step, rest⟩ := Outcome.bind_eq_ok.mp run
    have quiet := List.prefix_nil.mp (runArray_stray rest)
    have here : ∀ index e, call = .set index e → index < size := by
      rintro index e rfl
      by_contra beyond
      rw [← holds.size] at positive beyond
      obtain ⟨⟨a', stray⟩, ran, same⟩ := Outcome.bind_eq_ok.mp step
      cases same
      rw [ArrayCall.run, dArraySet, holds.get, Outcome.ok_bind] at ran
      have grown := dArraySetInternal_stray (some e) positive (not_lt.mp beyond)
      cases ran
      exact grown quiet
    obtain ⟨a', ran, kept⟩ := DArray.Holds.step call holds here
    dsimp only at step
    rw [ran] at step
    cases step
    intro index e member
    rcases List.mem_cons.mp member with same | later
    · exact here index e same.symm
    · exact ih kept rest index e later

end Calls
end DynamicRPC
