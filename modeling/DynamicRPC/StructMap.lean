import DynamicRPC.StructRuns

namespace DynamicRPC
open Outcome
variable {E : Type}

section Table
variable {V : Type} {t t' : Hashtable V} {key : CString} (wf : t.Wf)
include wf

/-- A lookup that ends has found what the table binds. -/
theorem hashtableGet_inv {found : Option V} (run : hashtableGet t key = .ok found) : found = t.lookup key := by
  obtain ⟨index, probe, -⟩ := bind_eq_ok.mp run
  have returns := (hashtableFindSlot_returns_iff wf.positive key).mp ⟨index, probe⟩
  rw [wf.get_eq returns] at run
  exact (Except.ok.inj run).symm

theorem hashtableSet_inv {value : V} (run : hashtableSet t key value = .ok t') :
    t'.Wf ∧ t'.lookup = Function.update t.lookup key (some value) ∧
      t'.bindings.length = if (t.lookup key).isSome then t.bindings.length else t.bindings.length + 1 := by
  by_cases member : key ∈ t.keys
  · obtain ⟨other, old, again, rewritten⟩ := hashtableSet_rewritten wf value member
    rw [run] at again
    cases again
    obtain ⟨rest, before, after⟩ := rewritten.bindings
    rw [if_pos (Hashtable.Probed.lookup_isSome.mpr member), before.length_eq, after.length_eq]
    exact ⟨rewritten.wf, rewritten.lookup wf.toProbed, rfl⟩
  · have room : 0 < t.nullCount := by
      by_contra full
      rw [Hashtable.Full.set_diverges ⟨wf, by omega⟩ value member] at run
      cases run
    obtain ⟨other, again, inserted⟩ := hashtableSet_inserted wf value room member
    rw [run] at again
    cases again
    rw [if_neg (fun found => member (Hashtable.Probed.lookup_isSome.mp found)), inserted.bindings.length_eq,
      List.length_cons]
    exact ⟨inserted.wf, inserted.lookup wf.toProbed member, rfl⟩

theorem hashtableRemove_inv (run : hashtableRemove t key = .ok t') (bound : (t.lookup key).isSome) :
    t'.Wf ∧ t'.lookup = Function.update t.lookup key none ∧ t'.bindings.length + 1 = t.bindings.length := by
  obtain ⟨other, old, again, rewritten⟩ := hashtableRemove_rewritten wf (Hashtable.Probed.lookup_isSome.mp bound)
  rw [run] at again
  cases again
  obtain ⟨rest, before, after⟩ := rewritten.bindings
  rw [before.length_eq, after.length_eq]
  exact ⟨rewritten.wf, rewritten.lookup wf.toProbed, rfl⟩

end Table

/-- A table that nothing was removed from: it has no tombstones, and every probe ends. -/
structure Hashtable.NeverRemoved {V : Type} (t : Hashtable V) : Prop where
  wf : t.Wf
  noDead : t.deadCount = 0

namespace Hashtable.NeverRemoved
variable {V : Type} {t : Hashtable V}

theorem start : (hashtableCreate : Hashtable V).NeverRemoved where
  wf := hashtableCreate_refill.wf
  noDead := hashtableCreate_refill.noDead

theorem isOpen (kept : t.NeverRemoved) : t.Open := ⟨kept.wf, kept.wf.room kept.noDead⟩

theorem set (kept : t.NeverRemoved) (key : CString) (value : V) :
    ∃ t', hashtableSet t key value = .ok t' ∧ t'.NeverRemoved ∧ t'.lookup = Function.update t.lookup key (some value) := by
  obtain ⟨t', run, wf⟩ := kept.isOpen.set_returns key value
  refine ⟨t', run, ⟨wf, ?_⟩, (hashtableSet_inv kept.wf run).2.1⟩
  by_cases member : key ∈ t.keys
  · obtain ⟨other, old, again, rewritten⟩ := hashtableSet_rewritten kept.wf value member
    rw [run] at again
    cases again
    obtain ⟨rest, before, after⟩ := rewritten.bindings
    have first := t.capacity_eq
    have second := t'.capacity_eq
    rw [before.length_eq] at first
    rw [after.length_eq, rewritten.capacity, rewritten.nulls] at second
    have none_dead := kept.noDead
    simp only [Option.map_some, Option.toList_some, List.singleton_append, List.length_cons] at first second
    omega
  · obtain ⟨other, again, inserted⟩ := hashtableSet_inserted kept.wf value kept.isOpen.room member
    rw [run] at again
    cases again
    obtain ⟨-, -, same⟩ | ⟨-, none_dead⟩ := inserted.slots
    · rw [same, kept.noDead]
    · exact none_dead

end Hashtable.NeverRemoved

section Map
variable [DStructElement E]

/-- The finite map that a struct stands for, after a call. Unlinking a packed
element is refused; an unsupported type takes the key out. -/
def StructCall.apply (map : CString → Option E) : StructCall E → CString → Option E
  | .set key (.element e) => Function.update map key (some e)
  | .set key .unsupported => Function.update map key none
  | .set _ .null => map
  | .get _ _ => map
  | .getType _ => map
  | .unlink key => if (map key).any DStructElement.isPacked then map else Function.update map key none
  | .remove key => Function.update map key none

def StructCall.applyAll (calls : List (StructCall E)) : CString → Option E :=
  calls.foldl StructCall.apply fun _ => none

/-- A struct that is well formed and binds what the map binds. -/
structure DStruct.Stands (map : CString → Option E) (d : DStruct E) : Prop where
  wf : d.Wf
  lookup : d.hashtable.lookup = map

namespace DStruct.Stands
variable {map : CString → Option E} {d d' : DStruct E} {key : CString}

omit [DStructElement E] in
theorem start : (newDStruct : DStruct E).Stands fun _ => none where
  wf := newDStruct_wf
  lookup := by
    funext key
    rw [newDStruct, Hashtable.lookup, hashtableCreate_bindings]
    rfl

variable (stands : d.Stands map)
include stands

omit [DStructElement E] in
theorem get {found : Option E} (run : hashtableGet d.hashtable key = .ok found) : found = map key := by
  rw [hashtableGet_inv stands.wf.table run, stands.lookup]

omit [DStructElement E] in
/-- Removing a bound key from the table, with the count. -/
theorem removed {t' : Hashtable E} (run : hashtableRemove d.hashtable key = .ok t') (bound : (map key).isSome) :
    DStruct.Stands (Function.update map key none) ⟨t', d.currentLen - 1⟩ := by
  rw [← stands.lookup] at bound ⊢
  obtain ⟨wf, lookup, fewer⟩ := hashtableRemove_inv stands.wf.table run bound
  refine ⟨⟨wf, ?_⟩, lookup⟩
  have counted := stands.wf.counted
  dsimp only
  omega

omit [DStructElement E] in
theorem unbound (absent : map key = none) : d.Stands (Function.update map key none) := by
  rwa [Function.update_eq_self_iff.mpr absent.symm]

theorem set [Inhabited E] {native : Native E} (run : dStructSet d key native = .ok d') :
    d'.Stands ((StructCall.set key native).apply map) := by
  have counted := stands.wf.counted
  cases native with
  | null =>
    cases run
    exact stands
  | element e =>
    obtain ⟨found, get, run⟩ := bind_eq_ok.mp run
    obtain ⟨table, set, same⟩ := bind_eq_ok.mp run
    cases same
    cases stands.get get
    obtain ⟨wf, lookup, length⟩ := hashtableSet_inv stands.wf.table set
    rw [stands.lookup] at lookup length
    refine ⟨⟨wf, ?_⟩, lookup⟩
    dsimp only
    rw [length]
    split
    · next bound =>
      have positive : 0 < d.hashtable.bindings.length := by
        rw [← stands.lookup, Hashtable.Probed.lookup_isSome, Hashtable.keys] at bound
        obtain ⟨field, member, -⟩ := List.mem_map.mp bound
        exact List.length_pos_of_mem member
      omega
    · omega
  | unsupported =>
    obtain ⟨found, get, run⟩ := bind_eq_ok.mp run
    cases stands.get get
    split at run
    · next bound =>
      obtain ⟨table, remove, same⟩ := bind_eq_ok.mp run
      cases same
      exact stands.removed remove bound
    · next absent =>
      obtain ⟨middle, set, run⟩ := bind_eq_ok.mp run
      obtain ⟨table, remove, same⟩ := bind_eq_ok.mp run
      cases same
      obtain ⟨wf, lookup, length⟩ := hashtableSet_inv stands.wf.table set
      rw [stands.lookup] at lookup length
      rw [if_neg absent] at length
      have inserted : DStruct.Stands (Function.update map key (some default)) ⟨middle, d.currentLen + 1⟩ :=
        ⟨⟨wf, by dsimp only; omega⟩, lookup⟩
      have gone := inserted.removed remove (by rw [Function.update_self]; rfl)
      rw [Function.update_idem] at gone
      exact gone

theorem unlink {done : Bool} (run : dStructUnlink d key = .ok (d', done)) :
    d'.Stands ((StructCall.unlink key).apply map) ∧
      (done = true ↔ ∃ e, map key = some e ∧ DStructElement.isPacked e = false) := by
  rw [StructCall.apply]
  obtain ⟨found, get, run⟩ := bind_eq_ok.mp run
  have bound := stands.get get
  cases found with
  | none =>
    cases run
    rw [← bound, Option.any_none, if_neg (by decide)]
    exact ⟨stands.unbound bound.symm, by simp⟩
  | some e =>
    rw [← bound, Option.any_some]
    dsimp only at run
    split at run
    · next packed =>
      cases run
      rw [if_pos packed]
      exact ⟨stands, by simp [packed]⟩
    · next loose =>
      obtain ⟨table, remove, same⟩ := bind_eq_ok.mp run
      cases same
      rw [if_neg loose]
      exact ⟨stands.removed remove (by rw [← bound]; rfl), by simp [loose]⟩

omit [DStructElement E] in
theorem remove {done : Bool} (run : dStructRemove d key = .ok (d', done)) :
    d'.Stands (Function.update map key none) ∧ (done = true ↔ (map key).isSome) := by
  obtain ⟨found, get, run⟩ := bind_eq_ok.mp run
  have bound := stands.get get
  cases found with
  | none =>
    cases run
    rw [← bound]
    exact ⟨stands.unbound bound.symm, by simp⟩
  | some e =>
    obtain ⟨table, remove, same⟩ := bind_eq_ok.mp run
    cases same
    rw [← bound]
    exact ⟨stands.removed remove (by rw [← bound]; rfl), by simp⟩

omit [DStructElement E] in
/-- Writing through the pointer of a field. -/
theorem modify {f : E → E} (run : dStructModify d key f = .ok d') :
    d'.Stands (Function.update map key ((map key).map f)) := by
  obtain ⟨index, found, run⟩ := bind_eq_ok.mp run
  obtain ⟨-, null | ⟨value, live⟩⟩ := hashtableFindSlot_spec found
  · have get : hashtableGet d.hashtable key = .ok none := by
      rw [hashtableGet, found, ok_bind, null]
      rfl
    have absent := stands.get get
    rw [null] at run
    cases run
    rw [← absent]
    exact stands.unbound absent.symm
  · have get : hashtableGet d.hashtable key = .ok (some value) := by
      rw [hashtableGet, found, ok_bind, live]
      rfl
    have bound := stands.get get
    rw [live] at run
    cases run
    have set : hashtableSet d.hashtable key (f value) = .ok _ := hashtableSetWith_bound found live
    obtain ⟨wf, lookup, length⟩ := hashtableSet_inv stands.wf.table set
    rw [stands.lookup] at lookup length
    rw [← bound] at length ⊢
    exact ⟨⟨wf, stands.wf.counted.trans length.symm⟩, lookup⟩

/-- Every call that returns keeps the map up to date. -/
theorem step [Inhabited E] {call : StructCall E} (run : call.run d = .ok d') : d'.Stands (call.apply map) := by
  cases call with
  | set key native => exact stands.set run
  | get key type =>
    obtain ⟨found, -, same⟩ := bind_eq_ok.mp run
    cases same
    exact stands
  | getType key =>
    obtain ⟨type, -, same⟩ := bind_eq_ok.mp run
    cases same
    exact stands
  | unlink key =>
    obtain ⟨⟨d', done⟩, unlinked, same⟩ := bind_eq_ok.mp run
    cases same
    exact (stands.unlink unlinked).1
  | remove key =>
    obtain ⟨⟨d', done⟩, removed, same⟩ := bind_eq_ok.mp run
    cases same
    exact (stands.remove removed).1

end DStruct.Stands

theorem runStruct_stands [Inhabited E] {calls : List (StructCall E)} {d : DStruct E}
    (ran : Runs.run StructCall.run newDStruct calls = .ok d) : d.Stands (StructCall.applyAll calls) := by
  refine Runs.run_history (fun past d => d.Stands (StructCall.applyAll past))
    (fun past d call d' held (_ : True) run => ?_) DStruct.Stands.start (Runs.along_of_all (fun _ _ _ => trivial) _) ran
  rw [StructCall.applyAll, List.foldl_append]
  exact held.step run

end Map

/-- A struct is a finite map with an exact size: after every run of calls that
return, across all resizes, its readers see the latest setting of each key that
no removal or unlinking has taken out, what can be unlinked are the fields that
are not packed, and it counts and lists each bound key once. -/
theorem dStruct_finiteMap {calls : List (StructCall Element)} {d : DStruct Element}
    (ran : Runs.run StructCall.run newDStruct calls = .ok d) :
    (∀ key type found, dStructGet d key type = .ok found →
        found = (StructCall.applyAll calls key).filter fun e => e.type == type.toChar) ∧
      (∀ key type, dStructGetType d key = .ok type →
        type = ((StructCall.applyAll calls key).map Element.type).getD DrpcTypes.dVoid.toChar) ∧
      (∀ key d' done, dStructUnlink d key = .ok (d', done) →
        (done = true ↔ ∃ e, StructCall.applyAll calls key = some e ∧ e.isPacked = false)) ∧
      (∀ key d' done, dStructRemove d key = .ok (d', done) →
        (done = true ↔ (StructCall.applyAll calls key).isSome)) ∧
      ∃ keys : List CString, keys.Nodup ∧ (∀ key, key ∈ keys ↔ (StructCall.applyAll calls key).isSome) ∧
        d.currentLen = keys.length ∧ dStructGetFields d = .ok (keys.map some) := by
  have stands := runStruct_stands ran
  refine ⟨fun key type found run => ?_, fun key type run => ?_, fun key d' done run => (stands.unlink run).2,
    fun key d' done run => (stands.remove run).2, d.hashtable.keys, stands.wf.table.keys_nodup, fun key => ?_, ?_, ?_⟩
  · obtain ⟨held, get, same⟩ := bind_eq_ok.mp run
    cases same
    rw [stands.get get]
    rfl
  · obtain ⟨held, get, same⟩ := bind_eq_ok.mp run
    cases same
    rw [stands.get get]
    rfl
  · rw [← stands.lookup]
    exact Hashtable.Probed.lookup_isSome.symm
  · rw [stands.wf.counted, Hashtable.keys, List.length_map]
  · exact dStructGetFields_counted stands.wf.counted

/-- A key set twice, once with another type. -/
theorem dStruct_finiteMap_overwritten : ∃ d : DStruct Element,
    Runs.run StructCall.run newDStruct [.set (CString.ofChars ['a']) (.element (.str [120, 0])),
      .set (CString.ofChars ['a']) (.element (.sizedbuf [1, 2]))] = .ok d ∧
    ∃ keys : List CString, keys.Nodup ∧ d.currentLen = keys.length ∧ dStructGetFields d = .ok (keys.map some) := by
  obtain ⟨d, ran⟩ : Returns (Runs.run StructCall.run (newDStruct : DStruct Element) [.set (CString.ofChars ['a'])
      (.element (.str [120, 0])), .set (CString.ofChars ['a']) (.element (.sizedbuf [1, 2]))]) := ⟨_, rfl⟩
  obtain ⟨-, -, -, -, keys, nodup, -, counted, fields⟩ := dStruct_finiteMap ran
  exact ⟨d, ran, keys, nodup, counted, fields⟩

end DynamicRPC
