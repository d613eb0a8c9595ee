import DynamicRPC.Hashtable
import DynamicRPC.Library.Assoc

namespace DynamicRPC
open List
variable {V : Type}

@[simp] theorem hashtableBodyAllocate_length (capacity : Nat) :
    (hashtableBodyAllocate capacity : List (HashtableEntry V)).length = capacity :=
  List.length_replicate

theorem hashtableStart_lt {t : Hashtable V} (positive : 0 < t.capacity) (key : CString) :
    hashtableStart t key < t.capacity :=
  Nat.mod_lt _ positive

theorem hashtableFindSlot_eq_ok {t : Hashtable V} {key : CString} {index : Nat} :
    hashtableFindSlot t key = .ok index ↔
      CyclicSearch.search (hashtableSlotStops t key) t.capacity t.capacity (hashtableStart t key) = some index := by
  unfold hashtableFindSlot
  split
  · rename_i run
    simp [run]
  · rename_i run
    simp [run]

/-- A probe that fails within one round never leaves the loop. -/
theorem hashtableFindSlot_diverges_iff {t : Hashtable V} (positive : 0 < t.capacity) (key : CString) :
    hashtableFindSlot t key = .error .diverges ↔
      ∀ fuel, CyclicSearch.search (hashtableSlotStops t key) t.capacity fuel (hashtableStart t key) = none := by
  unfold hashtableFindSlot
  split
  · rename_i run
    simp only [reduceCtorEq, false_iff, not_forall]
    exact ⟨t.capacity, by simp [run]⟩
  · rename_i run
    exact ⟨fun _ => CyclicSearch.search_forever (hashtableStart_lt positive key) run, fun _ => rfl⟩

theorem hashtableSlotStops_iff {t : Hashtable V} {key : CString} {index : Nat} :
    hashtableSlotStops t key index = true ↔
      t.body[index]? = some .null ∨ ∃ value, t.body[index]? = some (.live key value) := by
  unfold hashtableSlotStops
  split
  · rename_i slot
    simp [slot]
  · rename_i slot
    simp [slot]
  · rename_i other value slot
    simp [slot]
  · rename_i slot
    simp [slot]

/-- The probe loop ends at an empty slot or at the key, inside the table. -/
theorem hashtableFindSlot_spec {t : Hashtable V} {key : CString} {index : Nat}
    (run : hashtableFindSlot t key = .ok index) :
    index < t.capacity ∧
      (t.body[index]? = some .null ∨ ∃ value, t.body[index]? = some (.live key value)) := by
  have stop := hashtableSlotStops_iff.mp (CyclicSearch.search_stop (hashtableFindSlot_eq_ok.mp run))
  refine ⟨?_, stop⟩
  rcases stop with slot | ⟨value, slot⟩ <;> exact (List.getElem?_eq_some_iff.mp slot).choose

theorem hashtableFindSlot_returns_iff {t : Hashtable V} (positive : 0 < t.capacity) (key : CString) :
    Outcome.Returns (hashtableFindSlot t key) ↔ 0 < t.nullCount ∨ key ∈ t.keys := by
  have round := CyclicSearch.search_isSome (hashtableSlotStops t key) (hashtableStart_lt positive key)
  have returns : Outcome.Returns (hashtableFindSlot t key) ↔
      (CyclicSearch.search (hashtableSlotStops t key) t.capacity t.capacity (hashtableStart t key)).isSome := by
    rw [Option.isSome_iff_exists]
    exact exists_congr fun index => hashtableFindSlot_eq_ok
  rw [returns, round]
  constructor
  · rintro ⟨i, bound, stop⟩
    rcases hashtableSlotStops_iff.mp stop with slot | ⟨value, slot⟩
    · exact Or.inl (List.countP_pos_iff.mpr ⟨_, List.mem_of_getElem? slot, rfl⟩)
    · refine Or.inr (List.mem_map.mpr ⟨(key, value), ?_, rfl⟩)
      exact List.mem_filterMap.mpr ⟨_, List.mem_of_getElem? slot, rfl⟩
  · rintro (null | bound)
    · obtain ⟨slot, member, empty⟩ := List.countP_pos_iff.mp null
      obtain ⟨i, at_i⟩ := List.mem_iff_getElem?.mp member
      cases slot with
      | null =>
        exact ⟨i, (List.getElem?_eq_some_iff.mp at_i).choose, hashtableSlotStops_iff.mpr (Or.inl at_i)⟩
      | dead => cases empty
      | live => cases empty
    · obtain ⟨⟨_, value⟩, member, rfl⟩ := List.mem_map.mp bound
      obtain ⟨slot, inside, binding⟩ := List.mem_filterMap.mp member
      obtain ⟨i, at_i⟩ := List.mem_iff_getElem?.mp inside
      cases slot with
      | null => cases binding
      | dead => cases binding
      | live other held =>
        cases binding
        exact ⟨i, (List.getElem?_eq_some_iff.mp at_i).choose, hashtableSlotStops_iff.mpr (Or.inr ⟨_, at_i⟩)⟩

theorem mem_bindings_iff {t : Hashtable V} {key : CString} {value : V} :
    (key, value) ∈ t.bindings ↔ ∃ i : Nat, t.body[i]? = some (.live key value) := by
  constructor
  · intro member
    obtain ⟨slot, inside, binding⟩ := List.mem_filterMap.mp member
    obtain ⟨i, at_i⟩ := List.mem_iff_getElem?.mp inside
    cases slot with
    | null => cases binding
    | dead => cases binding
    | live => cases binding; exact ⟨i, at_i⟩
  · rintro ⟨i, at_i⟩
    exact List.mem_filterMap.mpr ⟨_, List.mem_of_getElem? at_i, rfl⟩

/-- The probe invariant: the probe for a stored key ends at the slot that
holds it. Keys are then distinct, since the probe has one result. -/
structure Hashtable.Probed (t : Hashtable V) : Prop where
  positive : 0 < t.capacity
  found : ∀ {i key value}, t.body[i]? = some (.live key value) → hashtableFindSlot t key = .ok i

namespace Hashtable.Probed
variable {t : Hashtable V} (probed : t.Probed)
include probed

theorem slot_unique {i j : Nat} {key : CString} {value value' : V}
    (at_i : t.body[i]? = some (.live key value)) (at_j : t.body[j]? = some (.live key value')) : i = j := by
  have same := (probed.found at_i).symm.trans (probed.found at_j)
  cases same
  rfl

/-- A probe that ends at an empty slot shows that the key is not stored. -/
theorem not_mem_of_null {key : CString} {index : Nat} (run : hashtableFindSlot t key = .ok index)
    (slot : t.body[index]? = some .null) : key ∉ t.keys := by
  intro member
  obtain ⟨⟨_, value⟩, binding, rfl⟩ := List.mem_map.mp member
  obtain ⟨i, at_i⟩ := mem_bindings_iff.mp binding
  have same := (probed.found at_i).symm.trans run
  cases same
  rw [slot] at at_i
  cases at_i

theorem keys_nodup : t.keys.Nodup := by
  rw [Hashtable.keys, Hashtable.bindings, List.map_filterMap]
  rw [List.nodup_iff_pairwise_ne, List.pairwise_filterMap]
  rw [List.pairwise_iff_getElem]
  intro i j hi hj less key at_i key' at_j same
  subst same
  have live : ∀ (n : Nat) (bound : n < t.body.length),
      key ∈ (t.body[n].binding.map Prod.fst) → ∃ value, t.body[n]? = some (.live key value) := by
    intro n bound mapped
    cases slot : t.body[n] with
    | null => simp [slot, HashtableEntry.binding] at mapped
    | dead => simp [slot, HashtableEntry.binding] at mapped
    | live other value =>
      simp only [slot, HashtableEntry.binding, Option.map_some, Option.mem_some_iff] at mapped
      subst mapped
      exact ⟨value, List.getElem?_eq_some_iff.mpr ⟨bound, slot⟩⟩
  obtain ⟨value, slot⟩ := live i hi at_i
  obtain ⟨value', slot'⟩ := live j hj at_j
  have equal := probed.slot_unique slot slot'
  omega

end Hashtable.Probed
end DynamicRPC
