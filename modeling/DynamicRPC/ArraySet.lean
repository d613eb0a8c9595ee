import DynamicRPC.ArrayFields

namespace DynamicRPC
open List
variable {E : Type} {a : DArray E} {index i : Nat}

/-- Writing one element into a table that is long enough. -/
def DArray.store (a : DArray E) (index : Nat) (element : Option E) : DArray E where
  realSize := a.realSize + 1
  lookupTable := a.lookupTable.set index (Cell.ofPointer element)

@[simp] theorem DArray.store_lookupSize (element : Option E) : (a.store index element).lookupSize = a.lookupSize :=
  List.length_set

theorem DArray.store_lookup (element : Option E) (within : index < a.lookupSize) :
    (a.store index element).lookup i = if i = index then element else a.lookup i := by
  unfold DArray.lookup DArray.store
  rw [List.getElem?_set]
  by_cases same : i = index
  · subst same
    rw [if_pos rfl, if_pos rfl, if_pos (show i < a.lookupTable.length from within), Option.bind_some,
      Cell.element_ofPointer]
  · rw [if_neg (fun equal => same equal.symm), if_neg same]

theorem DArray.store_cell {element : Option E} {cell : Cell E} (member : cell ∈ (a.store index element).lookupTable) :
    cell = Cell.ofPointer element ∨ cell ∈ a.lookupTable :=
  (List.mem_or_eq_of_mem_set member).symm

/-- Below `lookup_size` a setter only writes its cell. -/
theorem dArraySetInternal_within (element : Option E) (within : index < a.lookupSize) :
    dArraySetInternal a index element = (a.store index element, []) := by
  rw [dArraySetInternal, if_neg (by omega)]
  rfl

theorem dArrayGrow_size {table : List (Cell E)} (beyond : table.length ≤ index) :
    (dArrayGrow table index).1.length = (index + 1) * 3 / 2 := by
  simp only [dArrayGrow, List.length_mapIdx, List.length_append, List.length_replicate]
  omega

/-- Every growth clears cells behind the new table. -/
theorem dArrayGrow_stray {table : List (Cell E)} (positive : 0 < table.length) (beyond : table.length ≤ index) :
    (dArrayGrow table index).2 ≠ [] := by
  have larger : table.length < (index + 1) * 3 / 2 := by omega
  refine List.ne_nil_of_mem (a := table.length * cellBytes + ((index + 1) * 3 / 2 - table.length) - 1) ?_
  simp only [dArrayGrow, List.mem_filter, List.mem_range'_1, decide_eq_true_eq, cellBytes]
  omega

theorem dArraySetInternal_stray (element : Option E) (positive : 0 < a.lookupSize) (beyond : a.lookupSize ≤ index) :
    (dArraySetInternal a index element).2 ≠ [] := by
  rw [dArraySetInternal, if_pos beyond]
  exact dArrayGrow_stray positive beyond

theorem dArraySetInternal_size_le (a : DArray E) (index : Nat) (element : Option E) :
    a.lookupSize ≤ (dArraySetInternal a index element).1.lookupSize := by
  by_cases beyond : a.lookupSize ≤ index
  · rw [dArraySetInternal, if_pos beyond]
    simp only [DArray.lookupSize, List.length_set]
    rw [dArrayGrow_size beyond]
    unfold DArray.lookupSize at beyond
    omega
  · rw [dArraySetInternal_within element (by omega), DArray.store_lookupSize]

variable (E) in
theorem newDArray_lookupSize (startCapacity : Nat) :
    (newDArray startCapacity : DArray E).lookupSize = max startCapacity 1 := by
  simp only [newDArray, DArray.lookupSize, List.length_replicate]
  split <;> omega

theorem newDArray_cell {startCapacity : Nat} {cell : Cell E}
    (member : cell ∈ (newDArray startCapacity : DArray E).lookupTable) : cell = .null :=
  List.eq_of_mem_replicate member

theorem newDArray_elements (startCapacity : Nat) : (newDArray startCapacity : DArray E).elements = [] := by
  refine List.filterMap_eq_nil_iff.mpr fun cell member => ?_
  rw [newDArray_cell member]
  rfl

theorem newDArray_lookup (startCapacity : Nat) : (newDArray startCapacity : DArray E).lookup i = none := by
  unfold DArray.lookup
  cases at_i : (newDArray startCapacity : DArray E).lookupTable[i]? with
  | none => rfl
  | some cell =>
    rw [newDArray_cell (List.mem_of_getElem? at_i)]
    rfl

/-- Writing elements one after the other. -/
def DArray.storeAll (a : DArray E) (entries : List (Nat × E)) : DArray E :=
  entries.foldl (fun a entry => a.store entry.1 (some entry.2)) a

section StoreAll
variable {entries : List (Nat × E)}

@[simp] theorem DArray.storeAll_lookupSize (a : DArray E) (entries : List (Nat × E)) :
    (a.storeAll entries).lookupSize = a.lookupSize := by
  induction entries generalizing a with
  | nil => rfl
  | cons entry entries ih => exact (ih _).trans (DArray.store_lookupSize _)

theorem DArray.storeAll_realSize (a : DArray E) (entries : List (Nat × E)) :
    (a.storeAll entries).realSize = a.realSize + entries.length := by
  induction entries generalizing a with
  | nil => rfl
  | cons entry entries ih =>
    have rest := ih (a.store entry.1 (some entry.2))
    have first : (a.store entry.1 (some entry.2)).realSize = a.realSize + 1 := rfl
    rw [List.length_cons]
    exact rest.trans (by omega)

theorem DArray.storeAll_cell {cell : Cell E} (member : cell ∈ (a.storeAll entries).lookupTable) :
    (∃ entry ∈ entries, cell = .elem entry.2) ∨ cell ∈ a.lookupTable := by
  induction entries generalizing a with
  | nil => exact Or.inr member
  | cons entry entries ih =>
    rcases ih member with ⟨other, later, same⟩ | earlier
    · exact Or.inl ⟨other, List.mem_cons_of_mem _ later, same⟩
    · rcases DArray.store_cell earlier with here | before
      · exact Or.inl ⟨entry, List.mem_cons_self .., here⟩
      · exact Or.inr before

theorem DArray.storeAll_lookup (distinct : (entries.map Prod.fst).Nodup)
    (within : ∀ entry ∈ entries, entry.1 < a.lookupSize) {e : E} :
    (a.storeAll entries).lookup i = some e ↔
      (i, e) ∈ entries ∨ (i ∉ entries.map Prod.fst ∧ a.lookup i = some e) := by
  induction entries generalizing a with
  | nil => simp [DArray.storeAll]
  | cons entry entries ih =>
    obtain ⟨j, held⟩ := entry
    rw [List.map_cons, List.nodup_cons] at distinct
    have bound := within (j, held) (List.mem_cons_self ..)
    have rest := ih (a := a.store j (some held)) distinct.2 fun other member => by
      rw [DArray.store_lookupSize]
      exact within other (List.mem_cons_of_mem _ member)
    rw [show a.storeAll ((j, held) :: entries) = (a.store j (some held)).storeAll entries from rfl, rest,
      DArray.store_lookup _ bound]
    by_cases same : i = j
    · subst same
      have absent : (i, e) ∉ entries := fun member => distinct.1 (List.mem_map.mpr ⟨_, member, rfl⟩)
      rw [if_pos rfl, Option.some_inj]
      constructor
      · rintro (member | ⟨_, rfl⟩)
        · exact absurd member absent
        · exact Or.inl (List.mem_cons_self ..)
      · rintro (member | ⟨missing, _⟩)
        · rcases List.mem_cons.mp member with here | later
          · exact Or.inr ⟨distinct.1, (congrArg Prod.snd here).symm⟩
          · exact absurd later absent
        · exact absurd (List.mem_cons_self ..) missing
    · rw [if_neg same, List.mem_cons, List.map_cons, List.mem_cons]
      simp [same]

/-- Only what was there and what was written is occupied. -/
theorem DArray.storeAll_occupied (within : ∀ entry ∈ entries, entry.1 < a.lookupSize)
    (occupied : ((a.storeAll entries).lookup i).isSome) : i ∈ entries.map Prod.fst ∨ (a.lookup i).isSome := by
  induction entries generalizing a with
  | nil => exact .inr occupied
  | cons entry entries ih =>
    have bound := within entry List.mem_cons_self
    have rest := ih (a := a.store entry.1 (some entry.2)) (fun other member => by
      rw [DArray.store_lookupSize]
      exact within other (List.mem_cons_of_mem _ member)) occupied
    rw [List.map_cons, List.mem_cons]
    rw [DArray.store_lookup _ bound] at rest
    by_cases same : i = entry.1
    · exact .inl (.inl same)
    · rw [if_neg same] at rest
      exact rest.imp_left .inr

/-- Writing distinct elements into an empty array counts them, and a count that
is right means that the indices were distinct. -/
theorem newDArray_storeAll_counts {size : Nat} (within : ∀ entry ∈ entries, entry.1 < size) :
    ((newDArray size).storeAll entries).realSize = ((newDArray size).storeAll entries).elements.length ↔
      (entries.map Prod.fst).Nodup := by
  have room : ∀ entry ∈ entries, entry.1 < (newDArray size : DArray E).lookupSize := fun entry member => by
    have bound := within entry member
    rw [newDArray_lookupSize]
    omega
  have counted : ((newDArray size).storeAll entries).realSize = entries.length := by
    rw [DArray.storeAll_realSize]
    exact Nat.zero_add _
  rw [counted, ← DArray.fields_elements, List.length_map]
  constructor
  · intro same
    have inside : ((newDArray size).storeAll entries).fields.map Prod.fst ⊆ entries.map Prod.fst := by
      intro j member
      obtain written | before := DArray.storeAll_occupied room (DArray.occupied_iff.mpr member)
      · exact written
      · rw [newDArray_lookup] at before
        cases before
    have perm := (List.subperm_of_subset (DArray.fields_nodup _) inside).perm_of_length_le (by
      rw [List.length_map, List.length_map]
      exact same.le)
    exact perm.nodup_iff.mp (DArray.fields_nodup _)
  · intro distinct
    refine (DArray.fields_perm distinct fun j e => ?_).length_eq.symm
    rw [DArray.storeAll_lookup distinct room, newDArray_lookup]
    simp

end StoreAll
end DynamicRPC
