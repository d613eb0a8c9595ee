import DynamicRPC.Call
import DynamicRPC.StructMap
import DynamicRPC.Library.Runs

namespace DynamicRPC
open Outcome

/-- `struct drpc_function` with its storage; a null pointer is 0. -/
structure FnRecord where
  fnInfo : DrpcFunction
  fnstorage : Nat
  fnstorageFreeCb : Nat
  fnstorageFreeCbUserdata : Nat

/-- One run of a free callback, for a record. -/
structure FreeCall where
  record : Nat
  fnstorageFreeCb : Nat
  fnstorage : Nat
  userdata : Nat

/-- What a call of the interface, or a `drpc_call` request, comes to. -/
inductive FnAnswer
  | void
  | ret (value : Int)
  | notfound
  | found (record : Nat)
  deriving DecidableEq

/-- The functions of a server: the table, the live records, what was answered
so far, the records that were released with their last contents, and the free
callbacks that ran. -/
structure FnServer where
  functions : Hashtable Nat
  records : Memory FnRecord
  answers : List FnAnswer
  released : List (Nat × FnRecord)
  freeCalls : List FreeCall

/-- The callbacks that releasing a record runs. -/
def FnRecord.freeCalls (record : FnRecord) (address : Nat) : List FreeCall :=
  if record.fnstorage ≠ 0 ∧ record.fnstorageFreeCb ≠ 0 then
    [⟨address, record.fnstorageFreeCb, record.fnstorage, record.fnstorageFreeCbUserdata⟩]
  else []

/-- `drpc_fn_free`. -/
def drpcFnFree (s : FnServer) (fnInfo : Option Nat) : Outcome (FnServer × Int) :=
  match fnInfo with
  | none => pure (s, 1)
  | some address => do
    let record ← s.records.read address
    let records ← s.records.free address
    pure ({ s with
      records := records
      released := s.released ++ [(address, record)]
      freeCalls := s.freeCalls ++ record.freeCalls address }, 0)

/-- `drpc_server_register_fn`. -/
def drpcServerRegisterFn (s : FnServer) (fnName : CString) (fnInfo : DrpcFunction) (fnstorage : Nat) :
    Outcome FnServer := do
  let (address, records) := s.records.alloc ⟨fnInfo, fnstorage, 0, 0⟩
  let functions ← hashtableSet s.functions fnName address
  pure { s with functions := functions, records := records }

/-- `drpc_server_set_fnstorage_free_cb`. -/
def drpcServerSetFnstorageFreeCb (s : FnServer) (fnName : CString) (fnstorageFreeCb userdata : Nat) :
    Outcome (FnServer × Int) := do
  let found ← hashtableGet s.functions fnName
  match found with
  | none => pure (s, 1)
  | some address => do
    let record ← s.records.read address
    let records ← s.records.write address
      { record with fnstorageFreeCb := fnstorageFreeCb, fnstorageFreeCbUserdata := userdata }
    pure ({ s with records := records }, 0)

/-- `drpc_server_unregister_fn`. -/
def drpcServerUnregisterFn (s : FnServer) (fnName : CString) : Outcome (FnServer × Int) := do
  let found ← hashtableGet s.functions fnName
  drpcFnFree s found

/-- `drpc_handle_call` from the lookup of the name to the first read of the record. -/
def drpcLookUpFn (s : FnServer) (fnName : CString) : Outcome FnAnswer := do
  let callFn ← hashtableGet s.functions fnName
  match callFn with
  | none => pure .notfound
  | some address => do
    let _ ← s.records.read address
    pure (.found address)

/-- One round of the loop over `server->functions` in `drpc_server_free`. -/
def drpcServerFreeEntry (s : FnServer) : HashtableEntry Nat → Outcome FnServer
  | .live _ address => do
    let (s, _) ← drpcFnFree s (some address)
    pure s
  | _ => pure s

/-- `drpc_server_free`, as far as functions go. -/
def drpcServerFreeFunctions (s : FnServer) : Outcome FnServer :=
  s.functions.body.foldlM drpcServerFreeEntry s

namespace FnServer
variable {s s' : FnServer} {r other : Nat}

/-- The record is live and nothing was released or called back for it. -/
structure Held (s : FnServer) (r : Nat) : Prop where
  live : (s.records.cells r).isSome
  unreleased : s.released.filter (·.1 = r) = []
  silent : s.freeCalls.filter (·.record = r) = []

/-- The record was released once, and its callback ran with it if it had to. -/
structure Settled (s : FnServer) (r : Nat) : Prop where
  gone : s.records.cells r = none
  once : ∃ record, s.released.filter (·.1 = r) = [(r, record)] ∧
    s.freeCalls.filter (·.record = r) = record.freeCalls r

/-- What happens to a record, one way or the other, that no call is about. -/
structure Untouched (s s' : FnServer) (r : Nat) : Prop where
  cell : s'.records.cells r = s.records.cells r
  released : s'.released.filter (·.1 = r) = s.released.filter (·.1 = r)
  freeCalls : s'.freeCalls.filter (·.record = r) = s.freeCalls.filter (·.record = r)

theorem Untouched.held (untouched : Untouched s s' r) (held : s.Held r) : s'.Held r where
  live := by rw [untouched.cell]; exact held.live
  unreleased := by rw [untouched.released]; exact held.unreleased
  silent := by rw [untouched.freeCalls]; exact held.silent

theorem Untouched.settled (untouched : Untouched s s' r) (settled : s.Settled r) : s'.Settled r where
  gone := by rw [untouched.cell]; exact settled.gone
  once := by rw [untouched.released, untouched.freeCalls]; exact settled.once

theorem freeCalls_filter (record : FnRecord) (address r : Nat) :
    (record.freeCalls address).filter (·.record = r) = if address = r then record.freeCalls address else [] := by
  unfold FnRecord.freeCalls
  split
  · by_cases same : address = r <;> simp [same]
  · simp

/-- Everything that releasing a record does. -/
theorem drpcFnFree_inv {ret : Int} (ran : drpcFnFree s (some r) = .ok (s', ret)) :
    ret = 0 ∧ s'.functions = s.functions ∧ s'.answers = s.answers ∧ s'.records.next = s.records.next ∧
      (s.Held r → s'.Settled r) ∧ s'.records.cells r = none ∧ (∀ other ≠ r, Untouched s s' other) := by
  obtain ⟨record, read, ran⟩ := bind_eq_ok.mp ran
  obtain ⟨records, freed, same⟩ := bind_eq_ok.mp ran
  cases same
  obtain ⟨-, cells, next⟩ := Memory.free_eq_ok.mp freed
  have gone : records.cells r = none := by rw [cells, Function.update_self]
  refine ⟨rfl, rfl, rfl, next, fun held => ⟨gone, record, ?_, ?_⟩, gone, fun other different => ⟨?_, ?_, ?_⟩⟩
  · rw [List.filter_append, held.unreleased]
    simp
  · rw [List.filter_append, held.silent, freeCalls_filter, if_pos rfl]
    rfl
  · rw [cells, Function.update_of_ne different]
  · rw [List.filter_append]
    simp [Ne.symm different]
  · rw [List.filter_append, freeCalls_filter, if_neg (Ne.symm different), List.append_nil]

theorem drpcFnFree_returns (live : (s.records.cells r).isSome) : ∃ s', drpcFnFree s (some r) = .ok (s', 0) := by
  obtain ⟨record, cell⟩ := Option.isSome_iff_exists.mp live
  rw [drpcFnFree, Memory.read_eq_ok.mpr cell, ok_bind, Memory.free, dif_pos live]
  exact ⟨_, rfl⟩

/-- Releasing a record a second time reads it after it was released. -/
theorem drpcFnFree_gone (gone : s.records.cells r = none) : drpcFnFree s (some r) = .error .outside := by
  rw [drpcFnFree, Memory.read, gone]
  rfl

/-- The addresses that the sweep of `drpc_server_free` releases, in slot order. -/
def sweep (body : List (HashtableEntry Nat)) : List Nat := (body.filterMap HashtableEntry.binding).map Prod.snd

/-- The sweep touches no other record. -/
theorem sweep_frame {body : List (HashtableEntry Nat)} (ran : body.foldlM drpcServerFreeEntry s = .ok s') :
    s'.records.next = s.records.next ∧ ∀ r ∉ sweep body, Untouched s s' r := by
  induction body generalizing s with
  | nil =>
    cases ran
    exact ⟨rfl, fun _ _ => ⟨rfl, rfl, rfl⟩⟩
  | cons entry body ih =>
    cases entry with
    | null => exact ih ran
    | dead => exact ih ran
    | live key address =>
      rw [List.foldlM_cons, drpcServerFreeEntry] at ran
      obtain ⟨middle, first, rest⟩ := bind_eq_ok.mp ran
      obtain ⟨⟨freed, ret⟩, here, same⟩ := bind_eq_ok.mp first
      cases same
      obtain ⟨-, -, -, next, -, -, frame⟩ := drpcFnFree_inv here
      obtain ⟨bound, untouched⟩ := ih rest
      refine ⟨bound.trans next, fun r absent => ?_⟩
      have shape : sweep (.live key address :: body) = address :: sweep body := rfl
      rw [shape, List.mem_cons, not_or] at absent
      have before := frame r absent.1
      have after := untouched r absent.2
      exact ⟨after.cell.trans before.cell, after.released.trans before.released, after.freeCalls.trans before.freeCalls⟩

/-- The sweep settles every record that it comes to. -/
theorem sweep_settles {body : List (HashtableEntry Nat)} (distinct : (sweep body).Nodup)
    (held : ∀ r ∈ sweep body, s.Held r) :
    ∃ s', body.foldlM drpcServerFreeEntry s = .ok s' ∧ ∀ r ∈ sweep body, s'.Settled r := by
  induction body generalizing s with
  | nil => exact ⟨s, rfl, nofun⟩
  | cons entry body ih =>
    cases entry with
    | null => exact ih distinct held
    | dead => exact ih distinct held
    | live key address =>
      have shape : sweep (.live key address :: body) = address :: sweep body := rfl
      rw [shape, List.nodup_cons] at distinct
      rw [shape] at held ⊢
      obtain ⟨here, later⟩ := List.forall_mem_cons.mp held
      obtain ⟨middle, first⟩ := drpcFnFree_returns here.live
      obtain ⟨-, -, -, -, settles, -, frame⟩ := drpcFnFree_inv first
      have others : ∀ r ∈ sweep body, middle.Held r := fun r member =>
        (frame r fun same => distinct.1 (same ▸ member)).held (later r member)
      obtain ⟨last, rest, settled⟩ := ih distinct.2 others
      refine ⟨last, ?_, List.forall_mem_cons.mpr ⟨?_, settled⟩⟩
      · rw [List.foldlM_cons, drpcServerFreeEntry, first]
        exact rest
      · exact ((sweep_frame rest).2 address distinct.1).settled (settles here)

/-- A sweep over a released record does not return. -/
theorem sweep_gone {body : List (HashtableEntry Nat)} (member : r ∈ sweep body) (gone : s.records.cells r = none) :
    ¬ Returns (body.foldlM drpcServerFreeEntry s) := by
  induction body generalizing s with
  | nil => cases member
  | cons entry body ih =>
    cases entry with
    | null => exact ih member gone
    | dead => exact ih member gone
    | live key address =>
      rw [List.foldlM_cons, drpcServerFreeEntry, returns_bind]
      rintro ⟨middle, first, rest⟩
      obtain ⟨⟨freed, ret⟩, ran, same⟩ := bind_eq_ok.mp first
      cases same
      obtain ⟨-, -, -, -, -, -, frame⟩ := drpcFnFree_inv ran
      by_cases here : r = address
      · subst here
        rw [drpcFnFree_gone gone] at ran
        cases ran
      · obtain same | later := List.mem_cons.mp member
        · exact here same
        · exact ih later (by rw [(frame r here).cell, gone]) rest

end FnServer
end DynamicRPC
