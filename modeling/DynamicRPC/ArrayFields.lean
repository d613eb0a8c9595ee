import DynamicRPC.Array

namespace DynamicRPC
open List
variable {E F : Type}

/-- The occupied indices of a table with their elements, in order. -/
def cellFields (cells : List (Cell E)) : List (Nat × E) :=
  cells.zipIdx.filterMap fun entry => entry.1.element.map (Prod.mk entry.2)

def DArray.fields (a : DArray E) : List (Nat × E) := cellFields a.lookupTable

@[simp] theorem Cell.element_map (f : E → F) (cell : Cell E) : (cell.map f).element = cell.element.map f := by
  cases cell <;> rfl

@[simp] theorem Cell.element_ofPointer (e : Option E) : (Cell.ofPointer e).element = e := by
  cases e <;> rfl

theorem mem_cellFields {cells : List (Cell E)} {i : Nat} {e : E} :
    (i, e) ∈ cellFields cells ↔ cells[i]? = some (.elem e) := by
  unfold cellFields
  rw [List.mem_filterMap]
  constructor
  · rintro ⟨⟨cell, j⟩, member, shape⟩
    obtain ⟨e', held, same⟩ := Option.map_eq_some_iff.mp shape
    cases same
    have at_i := List.mem_zipIdx_iff_getElem?.mp member
    cases cell <;> cases held
    exact at_i
  · intro at_i
    exact ⟨(.elem e, i), List.mem_zipIdx_iff_getElem?.mpr at_i, rfl⟩

theorem DArray.lookup_eq_some {a : DArray E} {i : Nat} {e : E} :
    a.lookup i = some e ↔ a.lookupTable[i]? = some (.elem e) := by
  unfold DArray.lookup
  rw [Option.bind_eq_some_iff]
  constructor
  · rintro ⟨cell, at_i, held⟩
    cases cell <;> cases held
    exact at_i
  · intro at_i
    exact ⟨_, at_i, rfl⟩

theorem DArray.mem_fields {a : DArray E} {i : Nat} {e : E} : (i, e) ∈ a.fields ↔ a.lookup i = some e :=
  mem_cellFields.trans DArray.lookup_eq_some.symm

theorem DArray.occupied_iff {a : DArray E} {i : Nat} : (a.lookup i).isSome ↔ i ∈ a.fields.map Prod.fst := by
  rw [Option.isSome_iff_exists, List.mem_map]
  constructor
  · rintro ⟨e, held⟩
    exact ⟨(i, e), DArray.mem_fields.mpr held, rfl⟩
  · rintro ⟨⟨_, e⟩, member, rfl⟩
    exact ⟨e, DArray.mem_fields.mp member⟩

theorem cellFields_map (f : E → F) (cells : List (Cell E)) :
    cellFields (cells.map (Cell.map f)) = (cellFields cells).map (Prod.map id f) := by
  unfold cellFields
  rw [List.zipIdx_map, List.filterMap_map, List.map_filterMap]
  refine List.filterMap_congr fun entry _ => ?_
  simp only [Function.comp_apply, Prod.map_fst, Prod.map_snd, id_eq, Cell.element_map, Option.map_map]
  rfl

theorem cellFields_indices_nodup (cells : List (Cell E)) : ((cellFields cells).map Prod.fst).Nodup := by
  have indices : (cellFields cells).map Prod.fst <+ cells.zipIdx.map Prod.snd := by
    unfold cellFields
    induction cells.zipIdx with
    | nil => exact List.Sublist.slnil
    | cons entry entries ih =>
      obtain ⟨cell, i⟩ := entry
      cases held : cell.element with
      | none =>
        rw [List.filterMap_cons_none (by simp [held])]
        exact ih.cons i
      | some e =>
        rw [List.filterMap_cons_some (b := (i, e)) (by simp [held])]
        exact ih.cons_cons i
  refine indices.nodup ?_
  rw [List.zipIdx_map_snd]
  exact List.nodup_range'

theorem DArray.fields_nodup (a : DArray E) : (a.fields.map Prod.fst).Nodup :=
  cellFields_indices_nodup a.lookupTable

theorem DArray.fields_elements (a : DArray E) : a.fields.map Prod.snd = a.elements := by
  unfold DArray.fields cellFields DArray.elements
  rw [List.map_filterMap]
  conv_rhs => rw [← List.zipIdx_map_fst 0 a.lookupTable, List.filterMap_map]
  refine List.filterMap_congr fun entry _ => ?_
  rw [Option.map_map]
  exact Option.map_id' ..

/-- A list that has exactly the elements of an array at their indices. -/
theorem DArray.fields_perm {a : DArray E} {entries : List (Nat × E)} (distinct : (entries.map Prod.fst).Nodup)
    (same : ∀ i e, a.lookup i = some e ↔ (i, e) ∈ entries) : a.fields ~ entries := by
  rw [List.perm_ext_iff_of_nodup a.fields_nodup.of_map distinct.of_map]
  rintro ⟨i, e⟩
  rw [DArray.mem_fields, same]

theorem DArray.lookup_isSome_lt {a : DArray E} {i : Nat} (occupied : (a.lookup i).isSome) : i < a.lookupSize := by
  obtain ⟨e, held⟩ := Option.isSome_iff_exists.mp occupied
  exact (List.getElem?_eq_some_iff.mp (DArray.lookup_eq_some.mp held)).choose

/-- In a dense array the bound is the number of elements. -/
theorem DArray.Dense.occupied_iff {a : DArray E} (dense : a.Dense) (i : Nat) :
    (a.lookup i).isSome ↔ i < a.fields.length := by
  obtain ⟨n, bound⟩ := dense
  have same : a.fields.map Prod.fst ~ List.range n := by
    rw [List.perm_ext_iff_of_nodup a.fields_nodup List.nodup_range]
    intro j
    rw [← DArray.occupied_iff, bound, List.mem_range]
  have length := same.length_eq
  rw [List.length_map, List.length_range] at length
  rw [bound, length]

/-- An array that is not dense has an element at or behind their number. -/
theorem DArray.exists_high_of_not_dense {a : DArray E} (sparse : ¬ a.Dense) :
    ∃ i e, a.lookup i = some e ∧ a.fields.length ≤ i := by
  by_contra none_high
  push Not at none_high
  have below : ∀ i ∈ a.fields.map Prod.fst, i < a.fields.length := by
    intro i member
    obtain ⟨⟨_, e⟩, field, rfl⟩ := List.mem_map.mp member
    exact none_high _ e (DArray.mem_fields.mp field)
  have perm : a.fields.map Prod.fst ~ List.range a.fields.length :=
    (List.subperm_of_subset a.fields_nodup fun i member =>
      List.mem_range.mpr (below i member)).perm_of_length_le (by simp)
  refine sparse ⟨a.fields.length, fun i => ?_⟩
  rw [DArray.occupied_iff, perm.mem_iff, List.mem_range]

theorem DArray.mem_of_lookup {a : DArray E} {i : Nat} {e : E} (held : a.lookup i = some e) : e ∈ a.elements :=
  List.mem_filterMap.mpr ⟨_, List.mem_of_getElem? (DArray.lookup_eq_some.mp held), rfl⟩

theorem DArray.lookup_of_mem {a : DArray E} {e : E} (member : e ∈ a.elements) : ∃ i, a.lookup i = some e := by
  obtain ⟨cell, inside, here⟩ := List.mem_filterMap.mp member
  obtain ⟨i, at_i⟩ := List.mem_iff_getElem?.mp inside
  exact ⟨i, by rw [DArray.lookup, at_i, Option.bind_some, here]⟩

/-- An array is dense when no index before an occupied one is free. -/
theorem DArray.dense_iff_noGap {a : DArray E} :
    a.Dense ↔ ∀ i j, i < j → (a.lookup j).isSome → (a.lookup i).isSome := by
  constructor
  · rintro ⟨n, bound⟩ i j before occupied
    exact (bound i).mpr (before.trans ((bound j).mp occupied))
  · intro noGap
    have free : ∃ n, ¬ (a.lookup n).isSome := ⟨a.lookupSize, fun occupied =>
      absurd (DArray.lookup_isSome_lt occupied) (Nat.lt_irrefl _)⟩
    refine ⟨Nat.find free, fun i => ⟨fun occupied => ?_, fun before => not_not.mp (Nat.find_min free before)⟩⟩
    by_contra beyond
    obtain same | later := (Nat.not_lt.mp beyond).eq_or_lt
    · exact Nat.find_spec free (same ▸ occupied)
    · exact Nat.find_spec free (noGap _ i later occupied)

end DynamicRPC
