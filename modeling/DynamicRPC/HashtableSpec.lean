import DynamicRPC.HashtableSet

namespace DynamicRPC
open List
variable {V : Type}

/-- The finite map that a table stands for. -/
def Hashtable.lookup (t : Hashtable V) (key : CString) : Option V := t.bindings.lookup key

/-- What rewriting the value of a stored key, or removing it, does. -/
structure Rewritten (t t' : Hashtable V) (key : CString) (old : V) (new : Option V) : Prop where
  wf : t'.Wf
  bindings : ∃ rest, t.bindings ~ (key, old) :: rest ∧ t'.bindings ~ (new.map (Prod.mk key)).toList ++ rest
  capacity : t'.capacity = t.capacity
  nulls : t'.nullCount = t.nullCount

namespace Hashtable.Probed
variable {t : Hashtable V} {key : CString} (probed : t.Probed)
include probed

theorem lookup_eq_some {value : V} : t.lookup key = some value ↔ (key, value) ∈ t.bindings :=
  Assoc.lookup_eq_some_iff_mem probed.keys_nodup

omit probed in
theorem lookup_isSome : (t.lookup key).isSome ↔ key ∈ t.keys := by
  rw [Option.isSome_iff_ne_none, Ne, Hashtable.lookup, Assoc.lookup_eq_none_iff_not_mem, not_not]
  rfl

theorem get_eq (returns : 0 < t.nullCount ∨ key ∈ t.keys) : hashtableGet t key = .ok (t.lookup key) := by
  obtain ⟨index, run⟩ := (hashtableFindSlot_returns_iff probed.positive key).mpr returns
  obtain ⟨_, null | ⟨value, live⟩⟩ := hashtableFindSlot_spec run
  · have absent := probed.not_mem_of_null run null
    have none_bound : t.lookup key = none := Assoc.lookup_eq_none_iff_not_mem.mpr absent
    simp [hashtableGet, run, null, none_bound]
  · have bound := probed.lookup_eq_some.mpr (mem_bindings_iff.mpr ⟨index, live⟩)
    simp [hashtableGet, run, live, bound]

/-- The slot of a stored key, where the probe ends. -/
theorem slot_of_mem (member : key ∈ t.keys) :
    ∃ index old, hashtableFindSlot t key = .ok index ∧ t.body[index]? = some (.live key old) := by
  obtain ⟨⟨_, old⟩, binding, rfl⟩ := List.mem_map.mp member
  obtain ⟨index, live⟩ := mem_bindings_iff.mp binding
  exact ⟨index, old, probed.found live, live⟩

end Hashtable.Probed

theorem hashtableCreate_refill : Refill 0 hashtableInitialCapacity [] (hashtableCreate : Hashtable V) :=
  refill_start (by decide)

theorem hashtableCreate_bindings : (hashtableCreate : Hashtable V).bindings = [] :=
  (hashtableCreate_refill (V := V)).bindings.eq_nil

section Specs
variable {t : Hashtable V} {key : CString} (wf : t.Wf)
include wf

/-- `hashtable_set` of a new key: it returns, and binds the key. -/
theorem hashtableSet_inserted (value : V) (room : 0 < t.nullCount) (absent : key ∉ t.keys) :
    ∃ t', hashtableSet t key value = .ok t' ∧ Inserted t t' key value :=
  hashtableSetNL_inserted key value wf room absent (by
    have counted := wf.counted
    have fits := wf.fits
    omega)

/-- `hashtable_set` of a stored key rewrites the value in place. -/
theorem hashtableSet_rewritten (value : V) (member : key ∈ t.keys) :
    ∃ t' old, hashtableSet t key value = .ok t' ∧ Rewritten t t' key old (some value) := by
  obtain ⟨index, old, run, live⟩ := wf.slot_of_mem member
  obtain ⟨rest, before, after⟩ := t.store_bindings t.size (.live key value) live
  have nulls := t.store_nullCount t.size (.live key value) live
  refine ⟨t.store t.size index (.live key value), old, hashtableSetWith_bound run live, ?_, ⟨rest, before, after⟩,
    by simp, by simpa [HashtableEntry.isNull] using nulls⟩
  refine ⟨wf.store_live run, ?_, by simpa using wf.fits⟩
  rw [after.length_eq, Hashtable.store_size]
  have counted := wf.counted
  rw [before.length_eq] at counted
  exact counted

/-- `hashtable_remove` of a stored key leaves a tombstone. -/
theorem hashtableRemove_rewritten (member : key ∈ t.keys) :
    ∃ t' old, hashtableRemove t key = .ok t' ∧ Rewritten t t' key old none := by
  obtain ⟨index, old, run, live⟩ := wf.slot_of_mem member
  obtain ⟨within, _⟩ := hashtableFindSlot_spec run
  obtain ⟨rest, before, after⟩ := t.store_bindings (t.size - 1) .dead live
  have nulls := t.store_nullCount (t.size - 1) .dead live
  have counted := wf.counted
  have fits := wf.fits
  have fewer := before.length_eq
  simp only [HashtableEntry.binding, Option.toList_some, List.singleton_append, List.length_cons] at fewer
  refine ⟨t.store (t.size - 1) index .dead, old, ?_, ?_, ⟨rest, before, after⟩, by simp,
    by simpa [HashtableEntry.isNull] using nulls⟩
  · simp [hashtableRemove, run, live, Hashtable.store]
  · refine ⟨wf.store_dead within, ?_, ?_⟩
    · rw [after.length_eq, Hashtable.store_size]
      simp only [HashtableEntry.binding, Option.toList_none, List.nil_append]
      omega
    · rw [Hashtable.store_size, Hashtable.store_capacity]
      omega

theorem hashtableRemove_absent (room : 0 < t.nullCount) (absent : key ∉ t.keys) :
    hashtableRemove t key = .ok t := by
  obtain ⟨index, run⟩ := (hashtableFindSlot_returns_iff wf.positive key).mpr (Or.inl room)
  obtain ⟨_, null | ⟨old, live⟩⟩ := hashtableFindSlot_spec run
  · simp [hashtableRemove, run, null]
  · exact absurd (List.mem_map.mpr ⟨_, mem_bindings_iff.mpr ⟨index, live⟩, rfl⟩) absent

end Specs

theorem Inserted.lookup {t t' : Hashtable V} {key : CString} {value : V} (probed : t.Probed)
    (absent : key ∉ t.keys) (inserted : Inserted t t' key value) :
    t'.lookup = Function.update t.lookup key (some value) :=
  Assoc.lookup_update none (some value) (List.Perm.refl _) inserted.bindings probed.keys_nodup absent

theorem Rewritten.lookup {t t' : Hashtable V} {key : CString} {old : V} {new : Option V} (probed : t.Probed)
    (rewritten : Rewritten t t' key old new) : t'.lookup = Function.update t.lookup key new := by
  obtain ⟨rest, before, after⟩ := rewritten.bindings
  have distinct := probed.keys_nodup
  rw [Hashtable.keys, (before.map Prod.fst).nodup_iff, List.map_cons, List.nodup_cons] at distinct
  exact Assoc.lookup_update (some old) new before after probed.keys_nodup distinct.1

end DynamicRPC
