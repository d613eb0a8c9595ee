import DynamicRPC.HashtableRuns
import DynamicRPC.Element

namespace DynamicRPC
open Outcome
variable {E : Type}

/-- A call of the struct interface. -/
inductive StructCall (E : Type)
  | set (key : CString) (native : Native E)
  | get (key : CString) (type : DrpcTypes)
  | getType (key : CString)
  | unlink (key : CString)
  | remove (key : CString)

section Lookups
variable {d : DStruct E}

/-- An unsupported type inserts a new key and takes it out again. -/
theorem dStructSet_unsupported [Inhabited E] (key : CString) (isOpen : d.hashtable.Open) :
    ∃ d', dStructSet d key .unsupported = .ok d' ∧ d'.hashtable.Wf ∧
      (hashtableSetSafe d.hashtable key → d'.hashtable.Open) ∧
      (¬ hashtableSetSafe d.hashtable key → d'.hashtable.Full) := by
  rw [dStructSet, isOpen.get, ok_bind]
  by_cases member : key ∈ d.hashtable.keys
  · obtain ⟨t', run, removed⟩ := isOpen.remove key
    rw [if_pos (Hashtable.Probed.lookup_isSome.mpr member), run]
    exact ⟨_, rfl, removed.wf, fun _ => removed, fun danger => absurd (Or.inl member) danger⟩
  · rw [if_neg (fun found => member (Hashtable.Probed.lookup_isSome.mp found))]
    obtain ⟨middle, set, inserted⟩ := hashtableSet_inserted isOpen.wf default isOpen.room member
    have there : key ∈ middle.keys := by
      rw [Hashtable.keys, (inserted.bindings.map Prod.fst).mem_iff]
      exact List.mem_cons_self ..
    obtain ⟨t', old, remove, rewritten⟩ := hashtableRemove_rewritten inserted.wf there
    rw [set, ok_bind, remove]
    refine ⟨_, rfl, rewritten.wf, fun safe => ⟨rewritten.wf, ?_⟩, fun danger => ⟨rewritten.wf, ?_⟩⟩
    · obtain ⟨again, ran, room⟩ := isOpen.set_safe default safe
      rw [set] at ran
      cases ran
      rw [rewritten.nulls]
      exact room.room
    · rw [rewritten.nulls]
      exact (isOpen.set_unsafe danger set).noRoom

theorem dStructRemove_open (key : CString) (isOpen : d.hashtable.Open) :
    ∃ result, dStructRemove d key = .ok result ∧ result.1.hashtable.Open := by
  rw [dStructRemove, isOpen.get, ok_bind]
  cases d.hashtable.lookup key with
  | none => exact ⟨_, rfl, isOpen⟩
  | some e =>
    obtain ⟨t', run, removed⟩ := isOpen.remove key
    dsimp only
    rw [run]
    exact ⟨_, rfl, removed⟩

theorem dStructUnlink_open [DStructElement E] (key : CString) (isOpen : d.hashtable.Open) :
    ∃ result, dStructUnlink d key = .ok result ∧ result.1.hashtable.Open := by
  rw [dStructUnlink, isOpen.get, ok_bind]
  cases d.hashtable.lookup key with
  | none => exact ⟨_, rfl, isOpen⟩
  | some e =>
    obtain ⟨t', run, removed⟩ := isOpen.remove key
    dsimp only
    split
    · exact ⟨_, rfl, isOpen⟩
    · rw [run]
      exact ⟨_, rfl, removed⟩
end Lookups

section Calls
variable [DStructElement E] [Inhabited E]

def StructCall.run (d : DStruct E) : StructCall E → Outcome (DStruct E)
  | .set key native => dStructSet d key native
  | .get key type => do
    let _ ← dStructGet d key type
    pure d
  | .getType key => do
    let _ ← dStructGetType d key
    pure d
  | .unlink key => do
    let (d, _) ← dStructUnlink d key
    pure d
  | .remove key => do
    let (d, _) ← dStructRemove d key
    pure d

/-- The setter inserts into a table with room; a null pointer inserts nothing. -/
def StructCall.safe (d : DStruct E) : StructCall E → Prop
  | .set _ .null => True
  | .set key _ => hashtableSetSafe d.hashtable key
  | _ => True

namespace StructCall
variable {d d' : DStruct E} {call : StructCall E}

/-- A call that finds room returns and leaves room. -/
theorem run_safe (isOpen : d.hashtable.Open) (safe : call.safe d) :
    ∃ d', call.run d = .ok d' ∧ d'.hashtable.Open := by
  cases call with
  | set key native =>
    cases native with
    | null => exact ⟨d, rfl, isOpen⟩
    | unsupported =>
      obtain ⟨d', run, _, room, _⟩ := dStructSet_unsupported key isOpen
      exact ⟨d', run, room safe⟩
    | element e =>
      obtain ⟨t', run, room⟩ := isOpen.set_safe e safe
      rw [StructCall.run, dStructSet, isOpen.get, ok_bind, run]
      exact ⟨_, rfl, room⟩
  | get key type => exact ⟨d, by rw [StructCall.run, dStructGet, isOpen.get]; rfl, isOpen⟩
  | getType key => exact ⟨d, by rw [StructCall.run, dStructGetType, isOpen.get]; rfl, isOpen⟩
  | unlink key =>
    obtain ⟨result, run, room⟩ := dStructUnlink_open key isOpen
    exact ⟨result.1, by rw [StructCall.run, run]; rfl, room⟩
  | remove key =>
    obtain ⟨result, run, room⟩ := dStructRemove_open key isOpen
    exact ⟨result.1, by rw [StructCall.run, run]; rfl, room⟩

theorem run_returns (isOpen : d.hashtable.Open) : Returns (call.run d) := by
  by_cases safe : call.safe d
  · obtain ⟨d', run, _⟩ := run_safe isOpen safe
    exact ⟨d', run⟩
  · cases call with
    | set key native =>
      cases native with
      | null => exact absurd trivial safe
      | unsupported =>
        obtain ⟨d', run, _⟩ := dStructSet_unsupported key isOpen
        exact ⟨d', run⟩
      | element e =>
        obtain ⟨t', run, _⟩ := isOpen.set_returns key e
        rw [StructCall.run, dStructSet, isOpen.get, ok_bind, run]
        exact returns_ok _
    | get => exact absurd trivial safe
    | getType => exact absurd trivial safe
    | unlink => exact absurd trivial safe
    | remove => exact absurd trivial safe

theorem run_unsafe (isOpen : d.hashtable.Open) (danger : ¬ call.safe d) (run : call.run d = .ok d') :
    d'.hashtable.Full := by
  cases call with
  | set key native =>
    cases native with
    | null => exact absurd trivial danger
    | unsupported =>
      obtain ⟨other, again, _, _, full⟩ := dStructSet_unsupported key isOpen
      rw [StructCall.run, again] at run
      cases run
      exact full danger
    | element e =>
      rw [StructCall.run, dStructSet, isOpen.get, ok_bind] at run
      obtain ⟨t', set, same⟩ := bind_eq_ok.mp run
      cases same
      exact isOpen.set_unsafe danger set
  | get => exact absurd trivial danger
  | getType => exact absurd trivial danger
  | unlink => exact absurd trivial danger
  | remove => exact absurd trivial danger

/-- No call makes room in a full table. -/
theorem run_full (full : d.hashtable.Full) (run : call.run d = .ok d') : d'.hashtable.Full := by
  cases call with
  | set key native =>
    cases native with
    | null =>
      cases run
      exact full
    | unsupported =>
      obtain ⟨found, _, run⟩ := bind_eq_ok.mp run
      split at run
      · obtain ⟨t', remove, same⟩ := bind_eq_ok.mp run
        cases same
        exact full.remove remove
      · obtain ⟨middle, set, run⟩ := bind_eq_ok.mp run
        obtain ⟨t', remove, same⟩ := bind_eq_ok.mp run
        cases same
        exact (full.set set).remove remove
    | element e =>
      obtain ⟨found, _, run⟩ := bind_eq_ok.mp run
      obtain ⟨t', set, same⟩ := bind_eq_ok.mp run
      cases same
      exact full.set set
  | get key type =>
    obtain ⟨_, _, same⟩ := bind_eq_ok.mp run
    cases same
    exact full
  | getType key =>
    obtain ⟨_, _, same⟩ := bind_eq_ok.mp run
    cases same
    exact full
  | unlink key =>
    obtain ⟨result, unlink, same⟩ := bind_eq_ok.mp run
    cases same
    obtain ⟨found, _, unlink⟩ := bind_eq_ok.mp unlink
    cases found with
    | none =>
      cases unlink
      exact full
    | some e =>
      dsimp only at unlink
      split at unlink
      · cases unlink
        exact full
      · obtain ⟨t', remove, same⟩ := bind_eq_ok.mp unlink
        cases same
        exact full.remove remove
  | remove key =>
    obtain ⟨result, remove, same⟩ := bind_eq_ok.mp run
    cases same
    obtain ⟨found, _, remove⟩ := bind_eq_ok.mp remove
    cases found with
    | none =>
      cases remove
      exact full
    | some e =>
      obtain ⟨t', removed, same⟩ := bind_eq_ok.mp remove
      cases same
      exact full.remove removed

end StructCall

/-- Every further call on a struct returns exactly after the histories in
which every insertion found room. -/
theorem dStruct_returns_iff (calls : List (StructCall E)) :
    (∀ call, Returns (Runs.run StructCall.run (newDStruct : DStruct E) (calls ++ [call]))) ↔
      Runs.Along StructCall.run StructCall.safe (newDStruct : DStruct E) calls := by
  refine Runs.returns_snoc_iff_along (fun d => d.hashtable.Open) (fun d => d.hashtable.Full)
    (fun d call isOpen safe => StructCall.run_safe isOpen safe) (fun d call isOpen => StructCall.run_returns isOpen)
    (fun d call d' isOpen danger run => StructCall.run_unsafe isOpen danger run)
    (fun d call d' full run => StructCall.run_full full run) (fun d full => ?_) hashtableCreate_open
  obtain ⟨key, absent⟩ := Hashtable.Full.exists_absent d.hashtable
  refine ⟨.getType key, ?_⟩
  rw [StructCall.run, dStructGetType, full.get_diverges absent]
  exact not_returns_error _

/-- No container call hangs, in a struct and in `client_threads`, exactly along
the histories in which no insertion takes the last empty slot of a table that
it does not build again. -/
theorem containerCalls_return_iff {V : Type} [Inhabited V] :
    (∀ calls : List (StructCall E),
      (∀ call, Returns (Runs.run StructCall.run (newDStruct : DStruct E) (calls ++ [call]))) ↔
        Runs.Along StructCall.run StructCall.safe (newDStruct : DStruct E) calls) ∧
    ∀ events : List (ClientEvent V),
      (∀ event, Returns (Runs.run ClientEvent.record hashtableCreate (events ++ [event]))) ↔
        Runs.Along ClientEvent.record ClientEvent.safe hashtableCreate events :=
  ⟨dStruct_returns_iff, clientThreads_returns_iff⟩

end Calls

/-- Four rounds of setting and removing one key fill the four slots with
tombstones; the probe of the next call never ends. -/
theorem tombstones_hang :
    Runs.run StructCall.run (newDStruct : DStruct Element)
      ((List.replicate 4 [.set (CString.ofChars ['a']) (.element (.str [120, 0])),
        .remove (CString.ofChars ['a'])]).flatten ++ [.get (CString.ofChars ['a']) .dStr]) = .error .diverges ∧
    Runs.run ClientEvent.record (hashtableCreate : Hashtable Nat)
      ((List.replicate 4 [.connect (CString.ofChars ['a']) 7, .disconnect (CString.ofChars ['a'])]).flatten ++
        [.connect (CString.ofChars ['b']) 7]) = .error .diverges :=
  ⟨eq_error_of_fault (by decide +kernel), eq_error_of_fault (by decide +kernel)⟩

end DynamicRPC
