import DynamicRPC.Struct

namespace DynamicRPC
open Outcome
variable {V W : Type}

/-- Another value for each key, in the same slot. -/
def HashtableEntry.mapKey (f : CString → V → W) : HashtableEntry V → HashtableEntry W
  | .null => .null
  | .dead => .dead
  | .live key value => .live key (f key value)

def Hashtable.mapKey (t : Hashtable V) (f : CString → V → W) : Hashtable W where
  size := t.size
  body := t.body.map (HashtableEntry.mapKey f)

def DStruct.mapKey (d : DStruct V) (f : CString → V → W) : DStruct W where
  hashtable := d.hashtable.mapKey f
  currentLen := d.currentLen

namespace Hashtable
variable {t : Hashtable V} (f : CString → V → W)

theorem mapKey_slot (i : Nat) : (t.mapKey f).body[i]? = t.body[i]?.map (HashtableEntry.mapKey f) :=
  List.getElem?_map ..

@[simp] theorem mapKey_capacity : (t.mapKey f).capacity = t.capacity := List.length_map ..

/-- The probe loop looks at the keys only. -/
theorem mapKey_findSlot (key : CString) : hashtableFindSlot (t.mapKey f) key = hashtableFindSlot t key := by
  have same : hashtableSlotStops (t.mapKey f) key = hashtableSlotStops t key := by
    funext i
    unfold hashtableSlotStops
    rw [mapKey_slot]
    cases at_i : t.body[i]? with
    | none => rfl
    | some entry => cases entry <;> rfl
  unfold hashtableFindSlot hashtableStart
  rw [same, mapKey_capacity]

theorem mapKey_bindings : (t.mapKey f).bindings = t.bindings.map fun field => (field.1, f field.1 field.2) := by
  unfold Hashtable.bindings Hashtable.mapKey
  rw [List.filterMap_map, List.map_filterMap]
  refine List.filterMap_congr fun entry _ => ?_
  cases entry <;> rfl

theorem mapKey_deadCount : (t.mapKey f).deadCount = t.deadCount := by
  unfold Hashtable.deadCount Hashtable.mapKey
  rw [List.countP_map]
  refine List.countP_congr fun entry _ => ?_
  cases entry <;> rfl

theorem Wf.mapKey (wf : t.Wf) : (t.mapKey f).Wf where
  positive := by
    rw [mapKey_capacity]
    exact wf.positive
  found := fun {i key value} at_i => by
    rw [mapKey_slot] at at_i
    obtain ⟨entry, old, shape⟩ := Option.map_eq_some_iff.mp at_i
    rw [mapKey_findSlot]
    cases entry with
    | live other value' =>
      cases shape
      exact wf.found old
    | _ => cases shape
  counted := by
    rw [mapKey_bindings, List.length_map]
    exact wf.counted
  fits := by
    rw [mapKey_capacity]
    exact wf.fits

end Hashtable

theorem DStruct.Filled.mapKey {entries : List (CString × V)} {d : DStruct V} (filled : d.Filled entries)
    (f : CString → V → W) : (d.mapKey f).Filled (entries.map fun field => (field.1, f field.1 field.2)) where
  table := filled.table.mapKey f
  noDead := (Hashtable.mapKey_deadCount f).trans filled.noDead
  bindings := by
    rw [DStruct.mapKey, Hashtable.mapKey_bindings]
    exact filled.bindings.map _
  counted := by
    rw [List.length_map]
    exact filled.counted

theorem DStruct.Wf.mapKey {d : DStruct V} (wf : d.Wf) (f : CString → V → W) : (d.mapKey f).Wf where
  table := wf.table.mapKey f
  counted := by
    rw [DStruct.mapKey, Hashtable.mapKey_bindings, List.length_map]
    exact wf.counted

/-- A struct without tombstones holds its bindings. -/
theorem DStruct.Wf.filled {d : DStruct V} (wf : d.Wf) (noDead : d.hashtable.deadCount = 0) :
    d.Filled d.hashtable.bindings where
  table := wf.table
  noDead := noDead
  bindings := List.Perm.refl _
  counted := wf.counted

theorem lookup_mapKey (f : CString → V → W) (fields : List (CString × V)) (key : CString) :
    (fields.map fun field => (field.1, f field.1 field.2)).lookup key = (fields.lookup key).map (f key) := by
  induction fields with
  | nil => rfl
  | cons field fields ih =>
    rw [List.map_cons, List.lookup_cons, List.lookup_cons]
    by_cases same : key = field.1
    · subst same
      simp
    · rw [beq_false_of_ne same]
      exact ih

end DynamicRPC
