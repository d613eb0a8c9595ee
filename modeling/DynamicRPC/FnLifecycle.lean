import DynamicRPC.FunctionTable

namespace DynamicRPC
open Outcome Runs

/-- A call that has to do with the functions of a server; `call` is a
`drpc_call` request that names a function. -/
inductive FnCall
  | register (fnName : CString) (fnInfo : DrpcFunction) (fnstorage : Nat)
  | setFnstorageFreeCb (fnName : CString) (fnstorageFreeCb userdata : Nat)
  | unregister (fnName : CString)
  | call (fnName : CString)

def FnCall.run (s : FnServer) : FnCall → Outcome FnServer
  | .register fnName fnInfo fnstorage => do
    let s ← drpcServerRegisterFn s fnName fnInfo fnstorage
    pure { s with answers := s.answers ++ [.void] }
  | .setFnstorageFreeCb fnName fnstorageFreeCb userdata => do
    let (s, ret) ← drpcServerSetFnstorageFreeCb s fnName fnstorageFreeCb userdata
    pure { s with answers := s.answers ++ [.ret ret] }
  | .unregister fnName => do
    let (s, ret) ← drpcServerUnregisterFn s fnName
    pure { s with answers := s.answers ++ [.ret ret] }
  | .call fnName => do
    let answer ← drpcLookUpFn s fnName
    pure { s with answers := s.answers ++ [answer] }

def FnServer.start : FnServer where
  functions := hashtableCreate
  records := .empty
  answers := []
  released := []
  freeCalls := []

def fnRun (calls : List FnCall) : Outcome FnServer := Runs.run FnCall.run .start calls

/-- What a name stands for after the calls so far. -/
inductive NameState
  | absent
  | registered
  | unregistered
  deriving DecidableEq

def FnCall.next (names : CString → NameState) : FnCall → CString → NameState
  | .register fnName _ _ => Function.update names fnName .registered
  | .unregister fnName =>
    if names fnName = .registered then Function.update names fnName .unregistered else names
  | .setFnstorageFreeCb _ _ _ => names
  | .call _ => names

/-- A name is registered only while it is not, and nothing else happens to it
between its unregistration and its next registration. -/
def FnCall.Allowed (names : CString → NameState) : FnCall → Prop
  | .register fnName _ _ => names fnName ≠ .registered
  | .setFnstorageFreeCb fnName _ _ => names fnName ≠ .unregistered
  | .unregister fnName => names fnName ≠ .unregistered
  | .call fnName => names fnName ≠ .unregistered

/-- Every call is allowed where it is made, and at the end no name is
unregistered without being registered again. -/
def Tame (names : CString → NameState) : List FnCall → Prop
  | [] => ∀ fnName, names fnName ≠ .unregistered
  | call :: calls => call.Allowed names ∧ Tame (call.next names) calls

/-- The table holds under a name the record that the state of the name says. -/
def NameState.Describes (s : FnServer) (fnName : CString) : NameState → Prop
  | .absent => s.functions.lookup fnName = none
  | .registered => ∃ r, s.functions.lookup fnName = some r ∧ (s.records.cells r).isSome
  | .unregistered => ∃ r, s.functions.lookup fnName = some r ∧ s.records.cells r = none

/-- The table and the states of the names. -/
structure FnServer.Tracks (names : CString → NameState) (s : FnServer) : Prop where
  table : s.functions.NeverRemoved
  describes : ∀ fnName, (names fnName).Describes s fnName
  below : ∀ fnName r, s.functions.lookup fnName = some r → r < s.records.next
  injective : ∀ fnName other r, s.functions.lookup fnName = some r → s.functions.lookup other = some r → fnName = other

namespace FnServer
variable {names : CString → NameState} {s s' : FnServer} {fnName : CString} {r : Nat}

/-- What a name stands for depends on its entry and on whether the record there is live. -/
theorem describes_congr {state : NameState} (described : state.Describes s fnName)
    (entry : s'.functions.lookup fnName = s.functions.lookup fnName)
    (cells : ∀ r, s.functions.lookup fnName = some r → (s'.records.cells r).isSome = (s.records.cells r).isSome) :
    state.Describes s' fnName := by
  cases state with
  | absent => exact entry.trans described
  | registered =>
    obtain ⟨r, found, live⟩ := described
    exact ⟨r, entry.trans found, by rw [cells r found]; exact live⟩
  | unregistered =>
    obtain ⟨r, found, gone⟩ := described
    refine ⟨r, entry.trans found, ?_⟩
    rw [← Option.isNone_iff_eq_none, ← Option.not_isSome, cells r found, gone]
    rfl

theorem start_tracks : start.Tracks fun _ => .absent where
  table := .start
  describes := fun _ => by
    show (hashtableCreate : Hashtable Nat).lookup _ = none
    rw [Hashtable.lookup, hashtableCreate_bindings]
    rfl
  below := fun _ _ found => by
    rw [start, Hashtable.lookup, hashtableCreate_bindings] at found
    cases found
  injective := fun _ _ _ found => by
    rw [start, Hashtable.lookup, hashtableCreate_bindings] at found
    cases found

namespace Tracks

theorem get (tracks : s.Tracks names) (fnName : CString) :
    hashtableGet s.functions fnName = .ok (s.functions.lookup fnName) := tracks.table.isOpen.get

/-- A name in the table is registered as long as its record is there. -/
theorem found_cases (tracks : s.Tracks names) (found : s.functions.lookup fnName = some r) :
    names fnName = .registered ∧ (s.records.cells r).isSome ∨
      names fnName = .unregistered ∧ s.records.cells r = none := by
  have described := tracks.describes fnName
  cases state : names fnName with
  | absent =>
    rw [state, NameState.Describes, found] at described
    cases described
  | registered =>
    rw [state] at described
    obtain ⟨r', there, live⟩ := described
    rw [found] at there
    cases there
    exact .inl ⟨rfl, live⟩
  | unregistered =>
    rw [state] at described
    obtain ⟨r', there, gone⟩ := described
    rw [found] at there
    cases there
    exact .inr ⟨rfl, gone⟩

/-- A call that leaves the table and the liveness of every record. -/
theorem frame (tracks : s.Tracks names) (functions : s'.functions = s.functions)
    (next : s.records.next ≤ s'.records.next)
    (cells : ∀ r < s.records.next, (s'.records.cells r).isSome = (s.records.cells r).isSome) : s'.Tracks names where
  table := by rw [functions]; exact tracks.table
  describes := fun fnName =>
    describes_congr (tracks.describes fnName) (by rw [functions]) fun r found => cells r (tracks.below fnName r found)
  below := fun fnName r found => by
    rw [functions] at found
    exact Nat.lt_of_lt_of_le (tracks.below fnName r found) next
  injective := by
    rw [functions]
    exact tracks.injective

/-- Everything that registering does; the record that stood under the name stays behind. -/
theorem register (tracks : s.Tracks names) (fnName : CString) (fnInfo : DrpcFunction) (fnstorage : Nat) :
    ∃ s', FnCall.run s (.register fnName fnInfo fnstorage) = .ok s' ∧
      s'.Tracks (Function.update names fnName .registered) ∧
      s'.functions.lookup = Function.update s.functions.lookup fnName (some s.records.next) ∧
      s'.records.next = s.records.next + 1 ∧
      s'.records.cells = Function.update s.records.cells s.records.next (some ⟨fnInfo, fnstorage, 0, 0⟩) ∧
      s'.released = s.released ∧ s'.freeCalls = s.freeCalls := by
  obtain ⟨functions, run, kept, lookup⟩ := tracks.table.set fnName s.records.next
  have ran : drpcServerRegisterFn s fnName fnInfo fnstorage =
      (hashtableSet s.functions fnName s.records.next >>= fun functions =>
        pure { s with functions := functions, records := (s.records.alloc ⟨fnInfo, fnstorage, 0, 0⟩).2 }) := rfl
  rw [FnCall.run, ran, run]
  refine ⟨_, rfl, ?_, lookup, rfl, Memory.alloc_cells _ _, rfl, rfl⟩
  refine ⟨kept, fun other => ?_, fun other r found => ?_, fun one other r first second => ?_⟩
  · by_cases same : other = fnName
    · subst same
      rw [Function.update_self]
      exact ⟨s.records.next, by rw [lookup, Function.update_self], by rw [Memory.alloc_self]; rfl⟩
    · rw [Function.update_of_ne same]
      refine describes_congr (tracks.describes other) ?_ fun r found => ?_
      · show functions.lookup other = s.functions.lookup other
        rw [lookup, Function.update_of_ne same]
      · rw [Memory.alloc_cells, Function.update_of_ne (Nat.ne_of_lt (tracks.below other r found))]
  · show r < s.records.next + 1
    rw [lookup] at found
    by_cases same : other = fnName
    · subst same
      rw [Function.update_self] at found
      cases found
      exact Nat.lt_succ_self _
    · rw [Function.update_of_ne same] at found
      exact Nat.lt_succ_of_lt (tracks.below other r found)
  · rw [lookup] at first second
    by_cases here : one = fnName
    · by_cases there : other = fnName
      · rw [here, there]
      · subst here
        rw [Function.update_self] at first
        rw [Function.update_of_ne there] at second
        cases first
        exact absurd (tracks.below other _ second) (Nat.lt_irrefl _)
    · rw [Function.update_of_ne here] at first
      by_cases there : other = fnName
      · subst there
        rw [Function.update_self] at second
        cases second
        exact absurd (tracks.below one _ first) (Nat.lt_irrefl _)
      · rw [Function.update_of_ne there] at second
        exact tracks.injective one other r first second

/-- Releasing the record of a registered name. -/
theorem release (tracks : s.Tracks names) {r : Nat} {ret : Int} (found : s.functions.lookup fnName = some r)
    (ran : drpcFnFree s (some r) = .ok (s', ret)) : s'.Tracks (Function.update names fnName .unregistered) := by
  obtain ⟨-, functions, -, next, -, gone, frame⟩ := drpcFnFree_inv ran
  refine ⟨by rw [functions]; exact tracks.table, fun other => ?_, fun other r found => ?_, ?_⟩
  · by_cases same : other = fnName
    · subst same
      rw [Function.update_self]
      exact ⟨r, by rw [functions, found], gone⟩
    · rw [Function.update_of_ne same]
      refine describes_congr (tracks.describes other) (by rw [functions]) fun r' held => ?_
      have different : r' ≠ r := by
        rintro rfl
        exact same (tracks.injective other fnName r' held found)
      rw [(frame r' different).cell]
  · rw [functions] at found
    rw [next]
    exact tracks.below other r found
  · rw [functions]
    exact tracks.injective

/-- A call that looks a name up returns unless the record of the name is gone. -/
theorem lookup_returns_iff (tracks : s.Tracks names) {call : FnCall} {fnName : CString}
    (allowed : call.Allowed names ↔ names fnName ≠ .unregistered)
    (other : ∀ fnName fnInfo fnstorage, call ≠ .register fnName fnInfo fnstorage)
    (gone : ∀ r, s.functions.lookup fnName = some r → s.records.cells r = none → ¬ Returns (call.run s))
    (absent : s.functions.lookup fnName = none → Returns (call.run s))
    (live : ∀ r record, s.functions.lookup fnName = some r → s.records.cells r = some record → Returns (call.run s)) :
    Returns (call.run s) ↔ call.Allowed names ∨ ∃ fnName fnInfo fnstorage, call = .register fnName fnInfo fnstorage := by
  have before := tracks.describes fnName
  rw [allowed]
  cases state : names fnName with
  | absent =>
    rw [state] at before
    exact ⟨fun _ => .inl nofun, fun _ => absent before⟩
  | registered =>
    rw [state] at before
    obtain ⟨r, found, there⟩ := before
    obtain ⟨record, cell⟩ := Option.isSome_iff_exists.mp there
    exact ⟨fun _ => .inl nofun, fun _ => live r record found cell⟩
  | unregistered =>
    rw [state] at before
    obtain ⟨r, found, cell⟩ := before
    refine ⟨fun returns => absurd returns (gone r found cell), ?_⟩
    rintro (refused | ⟨name, fnInfo, fnstorage, same⟩)
    · exact absurd rfl refused
    · exact absurd same (other name fnInfo fnstorage)

/-- Which calls return. -/
theorem run_returns_iff (tracks : s.Tracks names) (call : FnCall) :
    Returns (call.run s) ↔ call.Allowed names ∨ ∃ fnName fnInfo fnstorage, call = .register fnName fnInfo fnstorage := by
  cases call with
  | register fnName fnInfo fnstorage =>
    obtain ⟨s', run, -⟩ := tracks.register fnName fnInfo fnstorage
    exact ⟨fun _ => .inr ⟨fnName, fnInfo, fnstorage, rfl⟩, fun _ => ⟨s', run⟩⟩
  | setFnstorageFreeCb fnName fnstorageFreeCb userdata =>
    refine tracks.lookup_returns_iff Iff.rfl (by simp) ?_ ?_ ?_ <;>
      rw [FnCall.run, drpcServerSetFnstorageFreeCb, tracks.get, ok_bind]
    · intro r found cell
      simp [found, Memory.read, cell]
    · intro found
      rw [found]
      exact returns_ok _
    · intro r record found cell
      rw [found]
      dsimp only
      rw [Memory.read_eq_ok.mpr cell, ok_bind, Memory.write, dif_pos (by rw [cell]; rfl)]
      exact returns_ok _
  | unregister fnName =>
    refine tracks.lookup_returns_iff Iff.rfl (by simp) ?_ ?_ ?_ <;>
      rw [FnCall.run, drpcServerUnregisterFn, tracks.get, ok_bind]
    · intro r found cell
      rw [found, drpcFnFree_gone cell]
      exact not_returns_error _
    · intro found
      rw [found]
      exact returns_ok _
    · intro r record found cell
      obtain ⟨s', freed⟩ := drpcFnFree_returns (s := s) (r := r) (by rw [cell]; rfl)
      rw [found, freed]
      exact returns_ok _
  | call fnName =>
    refine tracks.lookup_returns_iff Iff.rfl (by simp) ?_ ?_ ?_ <;> rw [FnCall.run, drpcLookUpFn, tracks.get, ok_bind]
    · intro r found cell
      simp [found, Memory.read, cell]
    · intro found
      rw [found]
      exact returns_ok _
    · intro r record found cell
      rw [found]
      dsimp only
      rw [Memory.read_eq_ok.mpr cell]
      exact returns_ok _

/-- What a call can do: register a record, release the one of a registered
name, or leave the table and what is live. -/
theorem run_cases (tracks : s.Tracks names) {call : FnCall} (ran : call.run s = .ok s') :
    (∃ fnName fnInfo fnstorage, call = .register fnName fnInfo fnstorage) ∨
      (∃ fnName r released, call = .unregister fnName ∧ names fnName = .registered ∧
        s.functions.lookup fnName = some r ∧ drpcFnFree s (some r) = .ok (released, 0) ∧
        s' = { released with answers := released.answers ++ [.ret 0] }) ∨
      (call.next names = names ∧ s'.functions = s.functions ∧ s'.records.next = s.records.next ∧
        (∀ r, (s'.records.cells r).isSome = (s.records.cells r).isSome) ∧ s'.released = s.released ∧
        s'.freeCalls = s.freeCalls ∧ ∃ answer, s'.answers = s.answers ++ [answer] ∧
          (answer = .ret 0 → ∀ fnName, call ≠ .unregister fnName)) := by
  cases call with
  | register fnName fnInfo fnstorage => exact .inl ⟨fnName, fnInfo, fnstorage, rfl⟩
  | setFnstorageFreeCb fnName fnstorageFreeCb userdata =>
    refine .inr (.inr ?_)
    rw [FnCall.run, drpcServerSetFnstorageFreeCb, tracks.get, ok_bind] at ran
    cases found : s.functions.lookup fnName with
    | none =>
      rw [found] at ran
      cases ran
      exact ⟨rfl, rfl, rfl, fun _ => rfl, rfl, rfl, _, rfl, nofun⟩
    | some r =>
      rw [found] at ran
      obtain ⟨⟨written, ret⟩, stored, same⟩ := bind_eq_ok.mp ran
      cases same
      obtain ⟨record, read, stored⟩ := bind_eq_ok.mp stored
      obtain ⟨records, write, same⟩ := bind_eq_ok.mp stored
      cases same
      obtain ⟨live, cells, next⟩ := Memory.write_eq_ok.mp write
      refine ⟨rfl, rfl, next, fun other => ?_, rfl, rfl, _, rfl, nofun⟩
      rw [cells]
      by_cases same : other = r
      · subst same
        rw [Function.update_self, live]
        rfl
      · rw [Function.update_of_ne same]
  | unregister fnName =>
    rw [FnCall.run, drpcServerUnregisterFn, tracks.get, ok_bind] at ran
    cases found : s.functions.lookup fnName with
    | none =>
      rw [found] at ran
      cases ran
      refine .inr (.inr ⟨?_, rfl, rfl, fun _ => rfl, rfl, rfl, _, rfl, nofun⟩)
      refine if_neg fun registered => ?_
      have before := tracks.describes fnName
      rw [registered] at before
      obtain ⟨r, there, -⟩ := before
      rw [found] at there
      cases there
    | some r =>
      rw [found] at ran
      obtain ⟨⟨released, ret⟩, freed, same⟩ := bind_eq_ok.mp ran
      obtain ⟨rfl, -⟩ := drpcFnFree_inv freed
      cases same
      obtain ⟨registered, -⟩ | ⟨-, gone⟩ := tracks.found_cases found
      · exact .inr (.inl ⟨fnName, r, released, rfl, registered, found, freed, rfl⟩)
      · rw [drpcFnFree_gone gone] at freed
        cases freed
  | call fnName =>
    refine .inr (.inr ?_)
    rw [FnCall.run, drpcLookUpFn, tracks.get, ok_bind] at ran
    cases found : s.functions.lookup fnName with
    | none =>
      rw [found] at ran
      cases ran
      exact ⟨rfl, rfl, rfl, fun _ => rfl, rfl, rfl, _, rfl, nofun⟩
    | some r =>
      rw [found] at ran
      obtain ⟨answer, looked, same⟩ := bind_eq_ok.mp ran
      cases same
      exact ⟨rfl, rfl, rfl, fun _ => rfl, rfl, rfl, answer, rfl, fun _ _ => nofun⟩

theorem step (tracks : s.Tracks names) {call : FnCall} (ran : call.run s = .ok s') : s'.Tracks (call.next names) := by
  obtain ⟨fnName, fnInfo, fnstorage, rfl⟩ | ⟨fnName, r, released, rfl, registered, found, freed, rfl⟩ |
    ⟨names, functions, next, cells, -⟩ := tracks.run_cases ran
  · obtain ⟨other, again, held, -⟩ := tracks.register fnName fnInfo fnstorage
    rw [ran] at again
    cases again
    exact held
  · have held := tracks.release found freed
    rw [FnCall.next, if_pos registered]
    exact ⟨held.table, held.describes, held.below, held.injective⟩
  · rw [names]
    exact tracks.frame functions next.ge fun r _ => cells r

end Tracks
end FnServer
end DynamicRPC
