import DynamicRPC.ArgumentPassing
import DynamicRPC.StructMap
import DynamicRPC.TcpCall

namespace DynamicRPC
open Outcome

/-- The object that a slot passes to the callee. -/
def FfiSlot.address : FfiSlot → Option Nat
  | .pointer address => some address
  | _ => none

def FfiSlot.len : FfiSlot → Nat
  | .length len => len
  | _ => 0

/-- The pointer arguments of a callee, as its prototype reads them off its
slots: a buffer takes a second slot for its length. -/
def calleePointers : List DrpcTypes → List FfiSlot → List DrpcTypeUpdate
  | type :: prototype, .pointer ptr :: slots =>
    if type = .dSizedbuf then ⟨type, (slots.head?.map FfiSlot.len).getD 0, 0, ptr⟩ :: calleePointers prototype slots.tail
    else ⟨type, 0, 0, ptr⟩ :: calleePointers prototype slots
  | _ :: prototype, .server _ :: slots => calleePointers prototype slots
  | _ :: prototype, .scalar _ _ :: slots => calleePointers prototype slots
  | _ :: prototype, .record _ :: slots => calleePointers prototype slots
  | _ :: prototype, .length _ :: slots => calleePointers prototype slots
  | _, _ => []

/-- What a callee may leave of an object that it is passed: a string that is no
longer than it was, a buffer of the same length, a container of the same kind. -/
inductive Updated : Element → Element → Prop
  | packed (type : UInt8) (data : DrpcType) : Updated (.packed type data) (.packed type data)
  | str {block block' : List UInt8} (terminated : 0 ∈ block')
      (shorter : (block'.takeWhile (· ≠ 0)).length ≤ (block.takeWhile (· ≠ 0)).length) : Updated (.str block) (.str block')
  | sizedbuf {block block' : List UInt8} (length : block'.length = block.length) :
      Updated (.sizedbuf block) (.sizedbuf block')
  | dstruct (d d' : DStruct Element) : Updated (.dstruct d) (.dstruct d')
  | queue (q q' : DQueue) : Updated (.queue q) (.queue q')
  | array (a a' : DArray Element) : Updated (.array a) (.array a')

/-- A callee that keeps to the contract of its pointer arguments: whatever it
is passed, it leaves well-formed objects, and updates those behind its slots only so. -/
structure DrpcFunction.Honest (fnInfo : DrpcFunction) : Prop where
  passed : ∀ slots memory left nativeReturn address e, fnInfo.fn slots memory = .ok (left, nativeReturn) →
    ObjectsWf memory → address ∈ slots.filterMap FfiSlot.address → memory.cells address = some e →
    ∃ e', left.cells address = some e' ∧ Updated e e'
  objects : ∀ slots memory left nativeReturn, fnInfo.fn slots memory = .ok (left, nativeReturn) → ObjectsWf memory →
    ObjectsWf left

theorem Updated.type {e e' : Element} (updated : Updated e e') : e'.type = e.type := by
  cases updated <;> rfl

/-- The update to repack that belongs to a pointer argument. -/
def Argument.Repacks (argument : Argument) (update : DrpcTypeUpdate) : Prop :=
  ∃ len held, argument = .pointer update.type update.ptr len held ∧ (update.type = .dSizedbuf → update.len = len)

namespace Argument.Repacks
variable {argument : Argument} {update : DrpcTypeUpdate}

theorem view (repacks : argument.Repacks update) (memory : Memory Element) : argument.view memory = update.view memory := by
  obtain ⟨len, held, rfl, length⟩ := repacks
  rw [Argument.view, DrpcTypeUpdate.view, Argument.resolve]
  by_cases buffer : update.type = .dSizedbuf
  · rw [length buffer]
    rfl
  · rw [readArgument_length buffer len update.len]
    rfl

theorem address (repacks : argument.Repacks update) : argument.address = some update.ptr := by
  obtain ⟨len, held, rfl, -⟩ := repacks
  rfl

theorem pointer (repacks : argument.Repacks update) : update.type.isPointer = true := by
  obtain ⟨len, held, rfl, -⟩ := repacks
  exact held

end Argument.Repacks

section Prepare
variable {arguments : DArray Argument}

theorem filledSlot_address (type : UInt8) (data : DrpcType) : (filledSlot type data).address = none := by
  unfold filledSlot
  split <;> rfl

theorem calleePointers_filledSlot {type : DrpcTypes} {prototype : List DrpcTypes} {stored : UInt8} {data : DrpcType}
    {slots : List FfiSlot} : calleePointers (type :: prototype) (filledSlot stored data :: slots) =
      calleePointers prototype slots := by
  unfold filledSlot
  split <;> rfl

/-- The walk over the prototype meets the arguments one by one. Its queue holds
the pointers among them in order, and so do its slots. -/
theorem ffiFromDrpc_pointers {prototype : List DrpcTypes} {j k : Nat}
    {slots : List FfiSlot} {toRepack : List DrpcTypeUpdate}
    (ran : ffiFromDrpc arguments prototype j k = .ok (slots, toRepack)) :
    ∃ met : List Argument, met.length = (drpcCreateClientPrototype prototype).length ∧
      (∀ i < met.length, arguments.lookup (j + i) = met[i]?) ∧
      List.Forall₂ Argument.Repacks (met.filter fun argument => isPointerChar argument.type) toRepack ∧
      slots.filterMap FfiSlot.address = toRepack.map DrpcTypeUpdate.ptr := by
  induction prototype generalizing j k slots toRepack with
  | nil =>
    cases ran
    exact ⟨[], rfl, fun i bound => absurd bound (Nat.not_lt_zero i), .nil, rfl⟩
  | cons type prototype ih =>
    have shift {argument : Argument} {met : List Argument} (held : arguments.lookup j = some argument)
        (later : ∀ i < met.length, arguments.lookup (j + 1 + i) = met[i]?) :
        ∀ i < (argument :: met).length, arguments.lookup (j + i) = (argument :: met)[i]? := by
      intro i bound
      cases i with
      | zero => exact held
      | succ i =>
        rw [show j + (i + 1) = j + 1 + i by omega, List.getElem?_cons_succ]
        exact later i (Nat.lt_of_succ_lt_succ bound)
    obtain ⟨server, rest, run, rfl⟩ | ⟨client, stored, data, scalar, rest, held, run, rfl⟩ |
      ⟨client, stored, ptr, len, pointer, rest, tail, held, run, rfl, rfl⟩ := ffiFromDrpc_cons_inv ran
    · obtain ⟨met, length, later, repacks, addresses⟩ := ih run
      rw [drpcCreateClientPrototype_cons_server server]
      exact ⟨met, length, later, repacks, addresses⟩
    · obtain ⟨met, length, later, repacks, addresses⟩ := ih run
      rw [drpcCreateClientPrototype_cons client]
      refine ⟨_ :: met, congrArg Nat.succ length, shift held later, ?_, ?_⟩
      · rw [List.filter_cons_of_neg (by rw [Argument.type, scalar]; exact Bool.false_ne_true)]
        exact repacks
      · rw [List.filterMap_cons_none (filledSlot_address stored data)]
        exact addresses
    · obtain ⟨met, length, later, repacks, addresses⟩ := ih run
      rw [drpcCreateClientPrototype_cons client]
      refine ⟨_ :: met, congrArg Nat.succ length, shift held later, ?_, ?_⟩
      · rw [List.filter_cons_of_pos (by rw [Argument.type, isPointerChar_toChar]; exact pointer)]
        exact .cons ⟨len, pointer, rfl, fun buffer => if_pos buffer⟩ repacks
      · have passed : (if stored = .dSizedbuf then .length len :: rest else rest).filterMap FfiSlot.address =
            rest.filterMap FfiSlot.address := by
          split <;> rfl
        exact congrArg (ptr :: ·) (passed.trans addresses)

/-- The queue of the walk is what the callee reads off its slots. -/
theorem ffiFromDrpc_calleePointers {prototype : List DrpcTypes} {j k : Nat} {slots : List FfiSlot}
    {toRepack : List DrpcTypeUpdate} (accepts : Accepts arguments.lookup prototype j)
    (ran : ffiFromDrpc arguments prototype j k = .ok (slots, toRepack)) :
    calleePointers prototype slots = toRepack.map fun update => { update with index := 0 } := by
  induction prototype generalizing j k slots toRepack with
  | nil =>
    cases ran
    rfl
  | cons type prototype ih =>
    obtain ⟨server, rest, run, rfl⟩ | ⟨client, stored, data, scalar, rest, held, run, rfl⟩ |
      ⟨client, stored, ptr, len, pointer, rest, tail, held, run, rfl, rfl⟩ := ffiFromDrpc_cons_inv ran
    · exact ih (accepts.tail_server server) run
    · rw [calleePointers_filledSlot]
      exact ih (accepts.tail client) run
    · have same : stored = type := DrpcTypes.toChar_injective (accepts.head client held)
      subst same
      have later := ih (accepts.tail client) run
      rw [calleePointers, List.map_cons, ← later]
      by_cases buffer : stored = .dSizedbuf
      · simp only [if_pos buffer]
        rfl
      · simp only [if_neg buffer]

/-- The pointers that a call is prepared with are those of its arguments. -/
theorem drpcServerPrepareFn_pointers (wf : arguments.Wf) {fnInfo : DrpcFunction} {toRepack : List DrpcTypeUpdate}
    {slots : List FfiSlot} {arguments' : DArray Argument}
    (ran : drpcServerPrepareFn (some arguments) fnInfo = .ok (some (arguments', slots, toRepack))) :
    List.Forall₂ Argument.Repacks arguments.pointers toRepack ∧
      slots.filterMap FfiSlot.address = toRepack.map DrpcTypeUpdate.ptr := by
  obtain ⟨-, length, -, walked⟩ := drpcServerPrepareFn_spec ran
  obtain ⟨met, count, found, repacks, addresses⟩ := ffiFromDrpc_pointers walked
  have at_i : ∀ i < met.length, arguments.lookup i = met[i]? := fun i bound => by
    have here := found i bound
    rwa [Nat.zero_add] at here
  have full : ∀ i < arguments.realSize, (arguments.lookup i).isSome := by
    intro i bound
    rw [length, ← count] at bound
    rw [at_i i bound, List.getElem?_eq_getElem bound]
    rfl
  have fresh : ∀ i, met.length ≤ i → arguments.lookup i = none := by
    intro i beyond
    by_contra occupied
    have bound := DArray.lt_realSize_of_full wf.counted full (Option.isSome_iff_ne_none.mpr occupied)
    omega
  have elements : arguments.elements = met := by
    have all := filterMap_range some met 0
    rw [Nat.add_zero, List.filterMap_some] at all
    rw [DArray.elements_below fresh]
    refine (List.filterMap_congr fun i member => ?_).trans all
    rw [at_i i (List.mem_range.mp member), Option.bind_fun_some]
  rw [DArray.pointers, elements]
  exact ⟨repacks, addresses⟩

end Prepare

end DynamicRPC
