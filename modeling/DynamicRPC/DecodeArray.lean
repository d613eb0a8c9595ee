import DynamicRPC.Decode
import DynamicRPC.ArraySet

namespace DynamicRPC
open List

/-- The loop in `buf_d_array` stays within the table when every index does; an
index outside makes it grow the table, and write outside. -/
theorem bufDArrayLoop_stray {packed : DStruct Element} {keys : List CString}
    (gets : ∀ key ∈ keys, Outcome.Returns (hashtableGet packed.hashtable key)) (new : DArray Element × List Nat)
    (positive : 0 < new.1.lookupSize) : ∃ last, bufDArrayLoop packed (keys.map some) new = .ok last ∧
      (last.2 = [] ↔ new.2 = [] ∧ ∀ key ∈ keys, CString.toSizeT (CString.atol key) < new.1.lookupSize) := by
  induction keys generalizing new with
  | nil => exact ⟨new, rfl, by simp⟩
  | cons key keys ih =>
    obtain ⟨⟨element, get⟩, later⟩ := List.forall_mem_cons.mp gets
    obtain ⟨index, same⟩ : ∃ index, index = CString.toSizeT (CString.atol key) := ⟨_, rfl⟩
    have grown := dArraySetInternal_size_le new.1 index element
    obtain ⟨last, run, clean⟩ := ih later ((dArraySetInternal new.1 index element).1,
      new.2 ++ (dArraySetInternal new.1 index element).2) (by dsimp only; omega)
    refine ⟨last, ?_, clean.trans ?_⟩
    · unfold bufDArrayLoop at run ⊢
      rw [List.map_cons, List.foldlM_cons]
      dsimp only
      rw [get, Outcome.ok_bind, ← same]
      exact run
    · rw [List.forall_mem_cons, ← same]
      dsimp only
      by_cases within : index < new.1.lookupSize
      · rw [dArraySetInternal_within element within, List.append_nil, DArray.store_lookupSize]
        exact and_congr_right fun _ => (and_iff_right within).symm
      · have stray := dArraySetInternal_stray element positive (not_lt.mp within)
        exact iff_of_false (fun both => stray (List.append_eq_nil_iff.mp both.1).2) fun both => within both.2.1

/-- With every index inside the new table, the loop fills it. -/
theorem bufDArrayLoop_within {packed : DStruct Element} {fields : List (CString × Element)}
    (gets : ∀ field ∈ fields, hashtableGet packed.hashtable field.1 = .ok (some field.2)) (a : DArray Element)
    (within : ∀ field ∈ fields, CString.toSizeT (CString.atol field.1) < a.lookupSize) :
    bufDArrayLoop packed (fields.map fun field => some field.1) (a, []) =
      .ok (a.storeAll (fields.map fun field => (CString.toSizeT (CString.atol field.1), field.2)), []) := by
  induction fields generalizing a with
  | nil => rfl
  | cons field fields ih =>
    obtain ⟨get, gets⟩ := List.forall_mem_cons.mp gets
    obtain ⟨bound, within⟩ := List.forall_mem_cons.mp within
    have rest := ih gets (a.store (CString.toSizeT (CString.atol field.1)) (some field.2)) fun other member => by
      rw [DArray.store_lookupSize]
      exact within other member
    unfold bufDArrayLoop at rest ⊢
    rw [List.map_cons, List.foldlM_cons]
    dsimp only
    rw [get, Outcome.ok_bind, dArraySetInternal_within _ bound]
    exact rest

/-- A struct that `buf_d_array` decoded: its keys are printed indices. -/
structure Printed (packed : DStruct Element) (entries : List (Nat × Element)) : Prop where
  wf : packed.Wf
  room : 0 < packed.hashtable.nullCount
  bindings : packed.hashtable.bindings = entries.map (Prod.map CString.sprintfZu id)
  bounded : ∀ entry ∈ entries, entry.1 < 2 ^ 63

namespace Printed
variable {packed : DStruct Element} {entries : List (Nat × Element)} (printed : Printed packed entries)
include printed

theorem keys : packed.hashtable.keys = entries.map fun entry => CString.sprintfZu entry.1 := by
  rw [Hashtable.keys, printed.bindings, List.map_map]
  rfl

theorem distinct : (entries.map Prod.fst).Nodup := by
  have nodup := printed.wf.table.keys_nodup
  rw [printed.keys, show (fun entry : Nat × Element => CString.sprintfZu entry.1) = CString.sprintfZu ∘ Prod.fst from rfl,
    ← List.map_map] at nodup
  exact List.Nodup.of_map _ nodup

theorem get {i : Nat} {e : Element} (member : (i, e) ∈ entries) :
    hashtableGet packed.hashtable (CString.sprintfZu i) = .ok (some e) := by
  have bound : (CString.sprintfZu i, e) ∈ packed.hashtable.bindings := by
    rw [printed.bindings]
    exact List.mem_map_of_mem member
  rw [printed.wf.table.get_eq (Or.inl printed.room), printed.wf.table.lookup_eq_some.mpr bound]

theorem fields : dStructGetFields packed = .ok (entries.map fun entry => some (CString.sprintfZu entry.1)) := by
  rw [dStructGetFields_counted printed.wf.counted, printed.keys, List.map_map]
  rfl

theorem loop_within (a : DArray Element) (within : ∀ entry ∈ entries, entry.1 < a.lookupSize) :
    bufDArrayLoop packed (entries.map fun entry => some (CString.sprintfZu entry.1)) (a, []) =
      .ok (a.storeAll entries, []) := by
  have index : ∀ entry ∈ entries, CString.toSizeT (CString.atol (CString.sprintfZu entry.1)) = entry.1 :=
    fun entry member => CString.toSizeT_atol_sprintfZu (printed.bounded entry member)
  have gets : ∀ field ∈ entries.map (Prod.map CString.sprintfZu id),
      hashtableGet packed.hashtable field.1 = .ok (some field.2) := by
    intro field member
    obtain ⟨entry, listed, rfl⟩ := List.mem_map.mp member
    exact printed.get listed
  have inside : ∀ field ∈ entries.map (Prod.map CString.sprintfZu (id : Element → Element)),
      CString.toSizeT (CString.atol field.1) < a.lookupSize := by
    intro field member
    obtain ⟨entry, listed, rfl⟩ := List.mem_map.mp member
    have bound := within entry listed
    rw [← index entry listed] at bound
    exact bound
  have loop := bufDArrayLoop_within gets a inside
  rw [List.map_map, List.map_map] at loop
  have back : entries.map ((fun field : CString × Element => (CString.toSizeT (CString.atol field.1), field.2)) ∘
      Prod.map CString.sprintfZu id) = entries := by
    refine (List.map_congr_left fun entry member => ?_).trans entries.map_id
    exact Prod.ext (index entry member) rfl
  rwa [back] at loop

variable {unpack : UInt8 → List UInt8 → Outcome Element} {buf : List UInt8}

theorem bufDArrayWith_dense (run : bufDStructWith unpack buf newDStruct = .ok packed)
    (within : ∀ entry ∈ entries, entry.1 < entries.length) :
    bufDArrayWith unpack buf = .ok ((newDArray entries.length).storeAll entries) := by
  have loop := printed.loop_within (newDArray entries.length) fun entry member => by
    have bound := within entry member
    rw [newDArray_lookupSize]
    omega
  rw [bufDArrayWith, run, Outcome.ok_bind, printed.fields, Outcome.ok_bind, List.length_map, loop]
  rfl

theorem bufDArrayWith_sparse (run : bufDStructWith unpack buf newDStruct = .ok packed)
    (high : ∃ entry ∈ entries, entries.length ≤ entry.1) : bufDArrayWith unpack buf = .error .outside := by
  obtain ⟨entry, member, bound⟩ := high
  have nonempty : 0 < entries.length := List.length_pos_of_mem member
  have size := newDArray_lookupSize Element entries.length
  have gets : ∀ key ∈ entries.map (fun entry => CString.sprintfZu entry.1),
      Outcome.Returns (hashtableGet packed.hashtable key) := by
    intro key found
    obtain ⟨⟨i, e⟩, listed, rfl⟩ := List.mem_map.mp found
    exact ⟨_, printed.get listed⟩
  obtain ⟨last, loop, clean⟩ := bufDArrayLoop_stray gets (newDArray entries.length, []) (by dsimp only; omega)
  have stray : last.2 ≠ [] := by
    intro empty
    have within := (clean.mp empty).2 (CString.sprintfZu entry.1) (List.mem_map_of_mem member)
    rw [CString.toSizeT_atol_sprintfZu (printed.bounded _ member)] at within
    dsimp only at within
    omega
  rw [List.map_map] at loop
  rw [bufDArrayWith, run, Outcome.ok_bind, printed.fields, Outcome.ok_bind, List.length_map]
  rw [show (fun entry : Nat × Element => some (CString.sprintfZu entry.1)) =
    some ∘ fun entry : Nat × Element => CString.sprintfZu entry.1 from rfl, loop, Outcome.ok_bind]
  exact if_neg stray

end Printed

/-- The new table holds exactly the entries, the others are `NULL`. -/
theorem newDArray_storeAll {E : Type} {size : Nat} {entries : List (Nat × E)} (distinct : (entries.map Prod.fst).Nodup)
    (within : ∀ entry ∈ entries, entry.1 < size) (few : size < 2 ^ 61) :
    ((newDArray size).storeAll entries).Wf ∧
      ((newDArray size).storeAll entries).realSize = ((newDArray size).storeAll entries).elements.length ∧
      ∀ i e, ((newDArray size).storeAll entries).lookup i = some e ↔ (i, e) ∈ entries := by
  have room := newDArray_lookupSize E size
  have cells : ∀ cell ∈ ((newDArray size).storeAll entries).lookupTable,
      (∃ entry ∈ entries, cell = .elem entry.2) ∨ cell = .null := fun cell member =>
    (DArray.storeAll_cell member).imp_right newDArray_cell
  have lookup : ∀ i e, ((newDArray size).storeAll entries).lookup i = some e ↔ (i, e) ∈ entries := by
    intro i e
    rw [DArray.storeAll_lookup distinct fun entry member => by have := within entry member; omega, newDArray_lookup]
    simp
  have counted := (newDArray_storeAll_counts within).mpr distinct
  refine ⟨⟨fun member => ?_, fun member => ?_, counted.ge, ?_⟩, counted, lookup⟩
  · rcases cells _ member with ⟨_, _, same⟩ | same <;> cases same
  · rcases cells _ member with ⟨_, _, same⟩ | same <;> cases same
  · rw [DArray.storeAll_lookupSize, room]
    omega

end DynamicRPC
