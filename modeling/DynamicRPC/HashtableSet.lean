import DynamicRPC.HashtableProbe

namespace DynamicRPC
open List
variable {V : Type}

/-- Rewriting one slot, with the counter set to `size`. -/
def Hashtable.store (t : Hashtable V) (size index : Nat) (entry : HashtableEntry V) : Hashtable V where
  size := size
  body := t.body.set index entry

namespace Hashtable
variable {t : Hashtable V} {key : CString} {value : V} {size index : Nat} {entry : HashtableEntry V}

@[simp] theorem store_size : (t.store size index entry).size = size := rfl

@[simp] theorem store_capacity : (t.store size index entry).capacity = t.capacity :=
  List.length_set

theorem store_slot (size : Nat) (entry : HashtableEntry V) (within : index < t.capacity) (i : Nat) :
    (t.store size index entry).body[i]? = if index = i then some entry else t.body[i]? := by
  rw [store, List.getElem?_set, if_pos (show index < t.body.length from within)]

theorem capacity_eq (t : Hashtable V) : t.capacity = t.nullCount + t.deadCount + t.bindings.length := by
  unfold capacity nullCount deadCount bindings
  induction t.body with
  | nil => rfl
  | cons entry body ih =>
    cases entry <;>
      simp [HashtableEntry.isNull, HashtableEntry.isDead, HashtableEntry.binding,
        List.filterMap_cons, List.countP_cons] at ih ⊢ <;>
      omega

theorem store_nullCount (size : Nat) (entry : HashtableEntry V) {old : HashtableEntry V} (slot : t.body[index]? = some old) :
    (t.store size index entry).nullCount + old.isNull.toNat = t.nullCount + entry.isNull.toNat :=
  Assoc.countP_set HashtableEntry.isNull slot entry

theorem store_deadCount (size : Nat) (entry : HashtableEntry V) {old : HashtableEntry V} (slot : t.body[index]? = some old) :
    (t.store size index entry).deadCount + old.isDead.toNat = t.deadCount + entry.isDead.toNat :=
  Assoc.countP_set HashtableEntry.isDead slot entry

theorem store_bindings (size : Nat) (entry : HashtableEntry V) {old : HashtableEntry V} (slot : t.body[index]? = some old) :
    ∃ rest, t.bindings ~ old.binding.toList ++ rest ∧
      (t.store size index entry).bindings ~ entry.binding.toList ++ rest :=
  Assoc.filterMap_set_perm HashtableEntry.binding slot entry

/-- A probe survives the rewriting of a slot at which it stops no earlier
than before. -/
theorem store_findSlot {found : Nat} (within : index < t.capacity)
    (run : hashtableFindSlot t key = .ok found)
    (weaker : hashtableSlotStops (t.store size index entry) key index = true →
      hashtableSlotStops t key index = true)
    (here : hashtableSlotStops (t.store size index entry) key found = true) :
    hashtableFindSlot (t.store size index entry) key = .ok found := by
  rw [hashtableFindSlot_eq_ok] at run ⊢
  have start : hashtableStart (t.store size index entry) key = hashtableStart t key := by
    unfold hashtableStart
    rw [store_capacity]
  rw [store_capacity, start]
  refine CyclicSearch.search_weaken run ?_ here
  intro i stop
  by_cases same : index = i
  · exact same ▸ weaker (same ▸ stop)
  · have unchanged := store_slot size entry within i
    rw [if_neg same] at unchanged
    rw [hashtableSlotStops_iff, unchanged] at stop
    exact hashtableSlotStops_iff.mpr stop

theorem Probed.store_live (probed : t.Probed) (run : hashtableFindSlot t key = .ok index) :
    (t.store size index (.live key value)).Probed := by
  obtain ⟨within, _⟩ := hashtableFindSlot_spec run
  have stopped := CyclicSearch.search_stop (hashtableFindSlot_eq_ok.mp run)
  have slots := store_slot size (.live key value) within
  refine ⟨by rw [store_capacity]; exact probed.positive, ?_⟩
  intro i other held at_i
  have here := hashtableSlotStops_iff.mpr (Or.inr ⟨held, at_i⟩)
  rw [slots] at at_i
  split at at_i
  · rename_i same
    cases at_i
    subst same
    exact store_findSlot within run (fun _ => stopped) here
  · rename_i apart
    refine store_findSlot within (probed.found at_i) ?_ here
    intro stop
    rw [hashtableSlotStops_iff, slots, if_pos rfl] at stop
    rcases stop with null | ⟨_, live⟩
    · cases null
    · cases live
      have same := (probed.found at_i).symm.trans run
      cases same
      exact absurd rfl apart

theorem Probed.store_dead (probed : t.Probed) (within : index < t.capacity) :
    (t.store size index .dead).Probed := by
  have slots := store_slot size .dead within
  refine ⟨by rw [store_capacity]; exact probed.positive, ?_⟩
  intro i other held at_i
  have here := hashtableSlotStops_iff.mpr (Or.inr ⟨held, at_i⟩)
  rw [slots] at at_i
  split at at_i
  · cases at_i
  · refine store_findSlot within (probed.found at_i) ?_ here
    intro stop
    rw [hashtableSlotStops_iff, slots, if_pos rfl] at stop
    rcases stop with null | ⟨_, live⟩
    · cases null
    · cases live

/-- What every table reached by the operations keeps: the probe invariant, and
a counter between the stored keys and the capacity. -/
structure Wf (t : Hashtable V) : Prop extends t.Probed where
  counted : t.bindings.length ≤ t.size
  fits : t.size < t.capacity

/-- Without tombstones a table always has an empty slot. -/
theorem Wf.room (wf : t.Wf) (fresh : t.deadCount = 0) : 0 < t.nullCount := by
  have total := t.capacity_eq
  have counted := wf.counted
  have fits := wf.fits
  omega

end Hashtable

theorem floatOfUnsigned_bound {n : Nat} (positive : 0 < n) : 4 * n < 5 * floatOfUnsigned n := by
  unfold floatOfUnsigned
  split
  · omega
  · rename_i large
    have nonzero : n ≠ 0 := by omega
    have high : 24 ≤ n.log2 := (Nat.le_log2 nonzero).mpr (by omega)
    have below : 2 ^ 23 * 2 ^ (n.log2 - 23) ≤ n := by
      rw [← Nat.pow_add, show 23 + (n.log2 - 23) = n.log2 by omega]
      exact Nat.log2_self_le nonzero
    have unit_positive : 0 < 2 ^ (n.log2 - 23) := Nat.two_pow_pos _
    have split := Nat.div_add_mod n (2 ^ (n.log2 - 23))
    have remainder := Nat.mod_lt n unit_positive
    rw [Nat.mul_comm] at split
    dsimp only
    split <;> omega

/-- Below the load threshold the counter stays below the capacity. -/
theorem hashtableCrowded_fits {size capacity : Nat} (positive : 0 < size)
    (calm : hashtableCrowded size capacity = false) : size < capacity := by
  have bound := floatOfUnsigned_bound positive
  simp only [hashtableCrowded, decide_eq_false_iff_not] at calm
  omega

section Store
variable {t : Hashtable V} {key : CString} {value : V} {index : Nat}

theorem hashtableSetWith_bound {resize : Hashtable V → Nat → Outcome (Hashtable V)} {old : V}
    (run : hashtableFindSlot t key = .ok index) (slot : t.body[index]? = some (.live key old)) :
    hashtableSetWith resize t key value = .ok (t.store t.size index (.live key value)) := by
  simp [hashtableSetWith, run, slot, Hashtable.store]

theorem hashtableSetWith_fresh {resize : Hashtable V → Nat → Outcome (Hashtable V)}
    (run : hashtableFindSlot t key = .ok index) (slot : t.body[index]? = some .null)
    (calm : hashtableCrowded (t.size + 1) t.capacity = false) :
    hashtableSetWith resize t key value = .ok (t.store (t.size + 1) index (.live key value)) := by
  have calm' : hashtableCrowded (t.size + 1) (Hashtable.capacity { size := t.size + 1, body := t.body }) = false :=
    calm
  simp [hashtableSetWith, run, slot, calm', Hashtable.store]

theorem hashtableSetWith_resize {resize : Hashtable V → Nat → Outcome (Hashtable V)} {resized : Hashtable V}
    {place : Nat} (run : hashtableFindSlot t key = .ok index) (slot : t.body[index]? = some .null)
    (crowded : hashtableCrowded (t.size + 1) t.capacity = true)
    (grow : resize { size := t.size + 1, body := t.body } (t.capacity * 2) = .ok resized)
    (again : hashtableFindSlot resized key = .ok place) :
    hashtableSetWith resize t key value = .ok (resized.store resized.size place (.live key value)) := by
  have crowded' : hashtableCrowded (t.size + 1) (Hashtable.capacity { size := t.size + 1, body := t.body }) = true :=
    crowded
  have grow' : resize { size := t.size + 1, body := t.body }
      (Hashtable.capacity { size := t.size + 1, body := t.body } * 2) = .ok resized := grow
  simp [hashtableSetWith, run, slot, crowded', grow', again, Hashtable.store]

end Store

/-- What inserting a new key does. Below the threshold it fills one empty slot;
above it the table is built again without tombstones. -/
structure Inserted (t t' : Hashtable V) (key : CString) (value : V) : Prop where
  wf : t'.Wf
  bindings : t'.bindings ~ (key, value) :: t.bindings
  size : t.size < t'.size
  capacity : t.capacity ≤ t'.capacity
  slots : (hashtableCrowded (t.size + 1) t.capacity = false ∧
      t'.nullCount + 1 = t.nullCount ∧ t'.deadCount = t.deadCount) ∨
    (hashtableCrowded (t.size + 1) t.capacity = true ∧ t'.deadCount = 0)

namespace Hashtable.Wf
variable {t : Hashtable V} {key : CString} {index : Nat}

theorem store_fresh (value : V) (wf : t.Wf) (run : hashtableFindSlot t key = .ok index)
    (slot : t.body[index]? = some .null) (size : Nat)
    (counted : t.bindings.length + 1 ≤ size) (fits : size < t.capacity) :
    (t.store size index (.live key value)).Wf ∧
      (t.store size index (.live key value)).bindings ~ (key, value) :: t.bindings ∧
      (t.store size index (.live key value)).nullCount + 1 = t.nullCount ∧
      (t.store size index (.live key value)).deadCount = t.deadCount := by
  obtain ⟨rest, before, after⟩ := t.store_bindings size (.live key value) slot
  have bindings : (t.store size index (.live key value)).bindings ~ (key, value) :: t.bindings :=
    after.trans (List.Perm.cons _ before.symm)
  have nulls := t.store_nullCount size (.live key value) slot
  have deads := t.store_deadCount size (.live key value) slot
  refine ⟨⟨wf.store_live run, ?_, by simpa using fits⟩, bindings, by simpa [HashtableEntry.isNull] using nulls,
    by simpa [HashtableEntry.isDead] using deads⟩
  rw [bindings.length_eq, List.length_cons]
  exact counted

end Hashtable.Wf

/-- The body that `hashtable_resize` fills: the entries inserted so far, no
tombstone, and the counter that was not reset. -/
structure Refill (size capacity : Nat) (past : List (HashtableEntry V)) (new : Hashtable V) : Prop where
  wf : new.Wf
  bindings : new.bindings ~ past.filterMap HashtableEntry.binding
  size : size ≤ new.size
  capacity : capacity ≤ new.capacity
  noDead : new.deadCount = 0

theorem refill_start {size capacity : Nat} (fits : size < capacity) :
    Refill size capacity [] ({ size := size, body := hashtableBodyAllocate capacity } : Hashtable V) := by
  have bindings : Hashtable.bindings ({ size := size, body := hashtableBodyAllocate capacity } : Hashtable V) = [] := by
    simp [Hashtable.bindings, hashtableBodyAllocate, HashtableEntry.binding]
  refine ⟨⟨⟨?_, ?_⟩, ?_, ?_⟩, ?_, le_rfl, ?_, ?_⟩
  · rw [Hashtable.capacity, hashtableBodyAllocate_length]
    omega
  · intro i key value at_i
    have null := List.eq_of_mem_replicate (List.mem_of_getElem? at_i)
    cases null
  · simp [bindings]
  · rwa [Hashtable.capacity, hashtableBodyAllocate_length]
  · rw [bindings]
    rfl
  · rw [Hashtable.capacity, hashtableBodyAllocate_length]
  · simp [Hashtable.deadCount, hashtableBodyAllocate, HashtableEntry.isDead]

/-- One old entry inserted into the new body. A live key is not there yet, as
the old keys are distinct. -/
theorem refill_step {setNL : Hashtable V → CString → V → Outcome (Hashtable V)} {t new : Hashtable V}
    {size capacity : Nat} {past after : List (HashtableEntry V)} {entry : HashtableEntry V}
    (probed : t.Probed) (shape : t.body = past ++ entry :: after) (filled : Refill size capacity past new)
    (insert : ∀ key value, new.Wf → 0 < new.nullCount → key ∉ new.keys →
      new.bindings.length < t.bindings.length → ∃ t', setNL new key value = .ok t' ∧ Inserted new t' key value) :
    ∃ new', (match entry with
        | .live key value => setNL new key value
        | _ => pure new) = .ok new' ∧ Refill size capacity (past ++ [entry]) new' := by
  have appended : (past ++ [entry]).filterMap HashtableEntry.binding =
      past.filterMap HashtableEntry.binding ++ entry.binding.toList := by
    rw [List.filterMap_append]
    cases entry <;> rfl
  have skip : entry.binding = none → Refill size capacity (past ++ [entry]) new := by
    intro none_bound
    refine { filled with bindings := ?_ }
    rw [appended, none_bound, Option.toList_none, List.append_nil]
    exact filled.bindings
  cases entry with
  | null => exact ⟨new, rfl, skip rfl⟩
  | dead => exact ⟨new, rfl, skip rfl⟩
  | live key value =>
    have split : t.bindings = past.filterMap HashtableEntry.binding ++
        (key, value) :: after.filterMap HashtableEntry.binding := by
      rw [Hashtable.bindings, shape, List.filterMap_append]
      rfl
    have distinct := probed.keys_nodup
    rw [Hashtable.keys, split, List.map_append, List.map_cons, List.nodup_middle, List.nodup_cons] at distinct
    have absent : key ∉ new.keys := by
      rw [Hashtable.keys, (filled.bindings.map Prod.fst).mem_iff]
      exact fun member => distinct.1 (List.mem_append_left _ member)
    have fewer : new.bindings.length < t.bindings.length := by
      rw [filled.bindings.length_eq, split, List.length_append, List.length_cons]
      omega
    obtain ⟨new', run, inserted⟩ := insert key value filled.wf (filled.wf.room filled.noDead) absent fewer
    refine ⟨new', run, inserted.wf, ?_, ?_, ?_, ?_⟩
    · rw [appended]
      exact inserted.bindings.trans ((List.Perm.cons _ filled.bindings).trans (List.perm_append_singleton _ _).symm)
    · exact filled.size.trans inserted.size.le
    · exact filled.capacity.trans inserted.capacity
    · rcases inserted.slots with ⟨_, _, same⟩ | ⟨_, none_left⟩
      · rw [same, filled.noDead]
      · exact none_left

/-- `hashtable_resize` returns when every insertion into a table with fewer
entries does. -/
theorem hashtableResizeWith_refill (setNL : Hashtable V → CString → V → Outcome (Hashtable V)) (size capacity : Nat)
    {t : Hashtable V} (probed : t.Probed) (fits : size < capacity)
    (insert : ∀ new key value, new.Wf → 0 < new.nullCount → key ∉ new.keys →
      new.bindings.length < t.bindings.length → ∃ t', setNL new key value = .ok t' ∧ Inserted new t' key value) :
    ∃ resized, hashtableResizeWith setNL { size := size, body := t.body } capacity = .ok resized ∧
      Refill size capacity t.body resized := by
  rw [hashtableResizeWith, if_neg (by simpa using fits.le)]
  exact Outcome.foldlM_invariant (Refill size capacity) []
    (fun before next after new shape filled => refill_step probed shape filled (insert new))
    (refill_start fits)

/-- Inserting a new key returns, and nests resizes only as deep as there are
entries: the induction is on `depth`, which bounds the entries. -/
theorem hashtableSetNL_inserted {depth : Nat} {t : Hashtable V} (key : CString) (value : V) (wf : t.Wf)
    (room : 0 < t.nullCount) (absent : key ∉ t.keys) (deep : t.bindings.length < depth) :
    ∃ t', hashtableSetNL depth t key value = .ok t' ∧ Inserted t t' key value := by
  induction depth generalizing t key value with
  | zero => omega
  | succ depth ih =>
    obtain ⟨index, run⟩ := (hashtableFindSlot_returns_iff wf.positive key).mpr (Or.inl room)
    obtain ⟨within, null | ⟨old, live⟩⟩ := hashtableFindSlot_spec run
    case inr => exact absurd (List.mem_map.mpr ⟨_, mem_bindings_iff.mpr ⟨index, live⟩, rfl⟩) absent
    have counted := wf.counted
    have fits := wf.fits
    cases load : hashtableCrowded (t.size + 1) t.capacity with
    | false =>
      obtain ⟨stored, bindings, nulls, deads⟩ := Hashtable.Wf.store_fresh value wf run null (t.size + 1)
        (by omega) (hashtableCrowded_fits (by omega) load)
      exact ⟨_, hashtableSetWith_fresh run null load, stored, bindings, by simp, by simp, Or.inl ⟨load, nulls, deads⟩⟩
    | true =>
      obtain ⟨resized, grow, filled⟩ := hashtableResizeWith_refill (hashtableSetNL depth)
        (t.size + 1) (t.capacity * 2) wf.toProbed (by omega)
        (fun new other held wf' room' absent' fewer => ih other held wf' room' absent' (by omega))
      have size := filled.size
      have capacity := filled.capacity
      have same : resized.bindings ~ t.bindings := filled.bindings
      have absent' : key ∉ resized.keys := by
        rw [Hashtable.keys, (same.map Prod.fst).mem_iff]
        exact absent
      obtain ⟨place, again⟩ := (hashtableFindSlot_returns_iff filled.wf.positive key).mpr
        (Or.inl (filled.wf.room filled.noDead))
      obtain ⟨_, null' | ⟨old, live⟩⟩ := hashtableFindSlot_spec again
      case inr => exact absurd (List.mem_map.mpr ⟨_, mem_bindings_iff.mpr ⟨place, live⟩, rfl⟩) absent'
      obtain ⟨stored, bindings, _, deads⟩ := Hashtable.Wf.store_fresh value filled.wf again null' resized.size
        (by rw [same.length_eq]; omega) filled.wf.fits
      refine ⟨_, hashtableSetWith_resize run null load grow again, stored, ?_, ?_, ?_, Or.inr ⟨load, ?_⟩⟩
      · exact bindings.trans (List.Perm.cons _ same)
      · rw [Hashtable.store_size]
        omega
      · rw [Hashtable.store_capacity]
        omega
      · rw [deads, filled.noDead]

end DynamicRPC
