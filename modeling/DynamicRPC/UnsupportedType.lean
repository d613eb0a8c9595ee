import DynamicRPC.StructMap
import DynamicRPC.ArrayFields
import DynamicRPC.Queue

namespace DynamicRPC
open Outcome

/-- The types that the switches of the setters list. -/
def storableTypes : List DrpcTypes :=
  [.dInt8, .dUint8, .dInt16, .dUint16, .dInt32, .dUint32, .dInt64, .dUint64, .dFloat, .dDouble,
    .dSizedbuf, .dStr, .dStruct, .dQueue, .dArray]

/-- A value of the C enumeration, which need not be an enumerator, that the
switches list. -/
def Storable (type : UInt32) : Prop := ∃ t ∈ storableTypes, type = t.toChar.toUInt32

instance (type : UInt32) : Decidable (Storable type) := inferInstanceAs (Decidable (∃ t ∈ storableTypes, _))

/-- What a setter makes of a pointer that is not null, where `e` is what it
points to when it is read as the type says. -/
def Native.ofType (type : UInt32) (e : Element) : Native Element :=
  if Storable type then .element e else .unsupported

def dQueuePush (q : DQueue) : Native Element → Outcome DQueue
  | .null => .error .assertion
  | .element e => pure (queuePush q (some e))
  | .unsupported => pure q

/-- The structs that a program can hold: new ones, what the calls of the
interface make of them, and what the decoder and the copier add to them. -/
inductive DStruct.Reached : DStruct Element → Prop
  | new : Reached newDStruct
  | call {d d' : DStruct Element} (call : StructCall Element) (reached : Reached d) (run : call.run d = .ok d') :
      Reached d'
  | insert {d d' : DStruct Element} (key : CString) (e : Element) (reached : Reached d)
      (run : dStructInsert d key e = .ok d') : Reached d'

/-- The call returned a struct with the same bindings and the same size. -/
def DStruct.Unchanged (d : DStruct Element) (result : Outcome (DStruct Element)) : Prop :=
  ∃ d', result = .ok d' ∧ d'.hashtable.lookup = d.hashtable.lookup ∧ d'.currentLen = d.currentLen

/-- The call returned an array with the same elements and the same size, wrote
nothing outside the table, and released no element that a cell points to. -/
def DArray.Unchanged (a : DArray Element) (result : Outcome (DArray Element × List Nat)) : Prop :=
  ∃ a', result = .ok (a', []) ∧ a'.lookup = a.lookup ∧ dArrayLen a' = dArrayLen a ∧
    ∀ i : Nat, a'.lookupTable[i]? = some Cell.dangling → a.lookupTable[i]? = some Cell.dangling

section Table
variable {d d' : DStruct Element} {key : CString}

/-- A setter keeps the table well formed, whatever `current_len` says. -/
theorem dStructSet_table {native : Native Element} (wf : d.hashtable.Wf) (run : dStructSet d key native = .ok d') :
    d'.hashtable.Wf := by
  cases native with
  | null =>
    cases run
    exact wf
  | element e =>
    obtain ⟨found, -, run⟩ := bind_eq_ok.mp run
    obtain ⟨table, set, same⟩ := bind_eq_ok.mp run
    cases same
    exact (hashtableSet_inv wf set).1
  | unsupported =>
    obtain ⟨found, get, run⟩ := bind_eq_ok.mp run
    have held := hashtableGet_inv wf get
    split at run
    · next bound =>
      obtain ⟨table, remove, same⟩ := bind_eq_ok.mp run
      cases same
      exact (hashtableRemove_inv wf remove (by rw [← held]; exact bound)).1
    · obtain ⟨middle, set, run⟩ := bind_eq_ok.mp run
      obtain ⟨table, remove, same⟩ := bind_eq_ok.mp run
      cases same
      obtain ⟨between, lookup, -⟩ := hashtableSet_inv wf set
      exact (hashtableRemove_inv between remove (by rw [lookup, Function.update_self]; rfl)).1

theorem dStructRemove_table {done : Bool} (wf : d.hashtable.Wf) (run : dStructRemove d key = .ok (d', done)) :
    d'.hashtable.Wf := by
  obtain ⟨found, get, run⟩ := bind_eq_ok.mp run
  have held := hashtableGet_inv wf get
  cases found with
  | none =>
    cases run
    exact wf
  | some e =>
    obtain ⟨table, remove, same⟩ := bind_eq_ok.mp run
    cases same
    exact (hashtableRemove_inv wf remove (by rw [← held]; rfl)).1

theorem dStructUnlink_table {done : Bool} (wf : d.hashtable.Wf) (run : dStructUnlink d key = .ok (d', done)) :
    d'.hashtable.Wf := by
  obtain ⟨found, get, run⟩ := bind_eq_ok.mp run
  have held := hashtableGet_inv wf get
  cases found with
  | none =>
    cases run
    exact wf
  | some e =>
    dsimp only at run
    split at run
    · cases run
      exact wf
    · obtain ⟨table, remove, same⟩ := bind_eq_ok.mp run
      cases same
      exact (hashtableRemove_inv wf remove (by rw [← held]; rfl)).1

theorem DStruct.Reached.table (reached : d.Reached) : d.hashtable.Wf := by
  induction reached with
  | new => exact hashtableCreate_refill.wf
  | call call _ run wf =>
    cases call with
    | set key native => exact dStructSet_table wf run
    | get key type =>
      obtain ⟨found, -, same⟩ := bind_eq_ok.mp run
      cases same
      exact wf
    | getType key =>
      obtain ⟨type, -, same⟩ := bind_eq_ok.mp run
      cases same
      exact wf
    | unlink key =>
      obtain ⟨⟨left, done⟩, unlinked, same⟩ := bind_eq_ok.mp run
      cases same
      exact dStructUnlink_table wf unlinked
    | remove key =>
      obtain ⟨⟨left, done⟩, removed, same⟩ := bind_eq_ok.mp run
      cases same
      exact dStructRemove_table wf removed
  | insert key e _ run wf =>
    obtain ⟨table, set, same⟩ := bind_eq_ok.mp run
    cases same
    exact (hashtableSet_inv wf set).1

/-- The rejecting branch undoes an insertion, and removes what was bound. -/
theorem dStructSet_unsupported_iff (wf : d.hashtable.Wf) :
    d.Unchanged (dStructSet d key .unsupported) ↔ d.hashtable.lookup key = none ∧ 0 < d.hashtable.nullCount := by
  constructor
  · rintro ⟨d', run, same, -⟩
    obtain ⟨found, get, run⟩ := bind_eq_ok.mp run
    have held := hashtableGet_inv wf get
    have absent : d.hashtable.lookup key = none := by
      split at run
      · next bound =>
        obtain ⟨table, remove, result⟩ := bind_eq_ok.mp run
        cases result
        obtain ⟨-, lookup, -⟩ := hashtableRemove_inv wf remove (by rw [← held]; exact bound)
        have gone := congrFun lookup key
        rw [Function.update_self] at gone
        rw [← same, gone]
      · next unbound =>
        rw [← held]
        exact Option.not_isSome_iff_eq_none.mp unbound
    obtain ⟨index, probe, -⟩ := bind_eq_ok.mp get
    obtain room | member := (hashtableFindSlot_returns_iff wf.positive key).mp ⟨index, probe⟩
    · exact ⟨absent, room⟩
    · have bound := Hashtable.Probed.lookup_isSome.mpr member
      rw [absent] at bound
      cases bound
  · rintro ⟨absent, room⟩
    have isOpen : d.hashtable.Open := ⟨wf, room⟩
    obtain ⟨d', run, -⟩ := dStructSet_unsupported key isOpen
    refine ⟨d', run, ?_⟩
    rw [dStructSet, isOpen.get, ok_bind, absent] at run
    obtain ⟨middle, set, run⟩ := bind_eq_ok.mp run
    obtain ⟨table, remove, result⟩ := bind_eq_ok.mp run
    cases result
    obtain ⟨between, inserted, -⟩ := hashtableSet_inv wf set
    obtain ⟨-, removed, -⟩ := hashtableRemove_inv between remove (by rw [inserted, Function.update_self]; rfl)
    refine ⟨?_, rfl⟩
    rw [removed, inserted, Function.update_idem]
    exact Function.update_eq_self_iff.mpr absent.symm

end Table

/-- The rejecting branch releases the element of an occupied cell and leaves the
pointer to it there. -/
theorem dArraySet_unsupported_iff (a : DArray Element) (index : Nat) :
    a.Unchanged (dArraySet a index .unsupported) ↔ dArrayGetInternal a index = .ok none := by
  constructor
  · rintro ⟨a', run, same, -⟩
    obtain ⟨found, get, run⟩ := bind_eq_ok.mp run
    cases found with
    | none => exact get
    | some e =>
      cases run
      have held : a.lookupTable[index]? = some (.elem e) := by
        unfold dArrayGetInternal at get
        split at get <;> cases get
        assumption
      have within : index < a.lookupTable.length := (List.getElem?_eq_some_iff.mp held).choose
      have before : a.lookup index = some e := DArray.lookup_eq_some.mpr held
      have after : DArray.lookup { a with lookupTable := a.lookupTable.set index .dangling } index = none := by
        rw [DArray.lookup, List.getElem?_set_self within]
        rfl
      rw [same, before] at after
      cases after
  · intro vacant
    refine ⟨a, ?_, rfl, rfl, fun i cell => cell⟩
    rw [dArraySet, vacant]
    rfl

/-- A type that the switches do not list leaves a struct, its bindings and its
size exactly as they were where the key is not bound and the table has an empty
slot, an array exactly where its cell is `NULL` or beyond the table, and every
queue. -/
theorem unsupportedType_keeps_iff {type : UInt32} (unsupported : ¬ Storable type) (e : Element) :
    (∀ (d : DStruct Element) (key : CString), d.Reached →
        (d.Unchanged (dStructSet d key (.ofType type e)) ↔
          d.hashtable.lookup key = none ∧ 0 < d.hashtable.nullCount)) ∧
      (∀ (a : DArray Element) (index : Nat),
        a.Unchanged (dArraySet a index (.ofType type e)) ↔ dArrayGetInternal a index = .ok none) ∧
      ∀ q : DQueue, dQueuePush q (.ofType type e) = .ok q := by
  have rejected : Native.ofType type e = .unsupported := if_neg unsupported
  rw [rejected]
  refine ⟨fun d key reached => ?_, fun a index => ?_, fun q => rfl⟩
  · exact dStructSet_unsupported_iff reached.table
  · exact dArraySet_unsupported_iff a index

/-- `d_void` for a key that a new struct does not bind. -/
theorem unsupportedType_keeps_iff_void :
    DStruct.Unchanged newDStruct (dStructSet newDStruct (CString.ofChars ['a']) (.ofType 0 (.sizedbuf [7]))) := by
  have void : ¬ Storable 0 := by decide
  obtain ⟨struct, -, -⟩ := unsupportedType_keeps_iff void (.sizedbuf [7])
  exact (struct newDStruct (CString.ofChars ['a']) .new).mpr ⟨rfl, by decide⟩

/-- A bound key loses its value to `d_void`, and a set index keeps a pointer to
an element that was released. -/
theorem unsupportedType_bound :
    (∃ d : DStruct Element, d.Reached ∧
        ¬ d.Unchanged (dStructSet d (CString.ofChars ['a']) (.ofType 0 (.sizedbuf [7])))) ∧
      ∃ a : DArray Element, dArraySet (newDArray 1) 0 (.element (.sizedbuf [8])) = .ok (a, []) ∧
        ¬ a.Unchanged (dArraySet a 0 (.ofType 0 (.sizedbuf [7]))) := by
  refine ⟨⟨_, .call (.set (CString.ofChars ['a']) (.element (.sizedbuf [8]))) .new rfl, ?_⟩,
    ⟨1, [.elem (.sizedbuf [8])]⟩, rfl, ?_⟩
  · rintro ⟨d', run, -, counted⟩
    cases run
    exact absurd counted (by decide)
  · rintro ⟨a', run, -, -, released⟩
    cases run
    have before := released 0 rfl
    cases before

end DynamicRPC
