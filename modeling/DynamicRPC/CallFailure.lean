import DynamicRPC.CallClient
import DynamicRPC.CallVerdict
import DynamicRPC.CallOwnership
import DynamicRPC.Library.Runs

namespace DynamicRPC
open Outcome

/-- The types whose arguments are kept by address in the call message. -/
def DrpcTypes.isContainer : DrpcTypes → Bool
  | dStruct | dArray | dQueue => true
  | _ => false

/-- A container is a pointer to neither a string nor a buffer. -/
theorem DrpcTypes.isContainer_iff {type : DrpcTypes} :
    type.isContainer = true ↔ type.isPointer = true ∧ type ≠ .dStr ∧ type ≠ .dSizedbuf := by
  cases type <;> decide

section Free
variable {memory memory' : Memory Element} {address : Nat}

theorem free_dead {other : Nat} (dead : memory.cells address = none) (freed : memory.free other = .ok memory') :
    memory'.cells address = none := by
  obtain ⟨-, cells, -⟩ := Memory.free_eq_ok.mp freed
  rw [cells, Function.update_apply]
  split
  · rfl
  · exact dead

theorem free_self (freed : memory.free address = .ok memory') : memory'.cells address = none := by
  obtain ⟨-, cells, -⟩ := Memory.free_eq_ok.mp freed
  rw [cells, Function.update_self]

/-- Releasing revives nothing. -/
theorem cellFree_dead {cell : Cell Argument} (dead : memory.cells address = none)
    (freed : cell.free memory = .ok memory') : memory'.cells address = none := by
  unfold Cell.free at freed
  split at freed
  · exact free_dead dead freed
  · cases freed
    exact dead
  · cases freed
    exact dead
  · cases freed
  · cases freed

theorem dArrayFree_dead {a : DArray Argument} (dead : memory.cells address = none)
    (freed : dArrayFree memory a = .ok memory') : memory'.cells address = none :=
  Runs.run_invariant (fun memory => memory.cells address = none) (fun _ _ _ => cellFree_dead) dead freed

theorem dArrayFree_linked {a : DArray Argument} {type : DrpcTypes} {len : Nat} {held : type.isPointer = true}
    (linked : .elem (.pointer type address len held) ∈ a.lookupTable) (freed : dArrayFree memory a = .ok memory') :
    memory'.cells address = none :=
  Runs.run_establishes (fun memory => memory.cells address = none) (fun _ _ _ => cellFree_dead) linked
    (fun _ _ => free_self) freed

theorem entryFree_dead {entry : HashtableEntry Field} (dead : memory.cells address = none)
    (freed : entry.free memory = .ok memory') : memory'.cells address = none := by
  unfold HashtableEntry.free at freed
  split at freed
  · exact free_dead dead freed
  · exact dArrayFree_dead dead freed
  · cases freed
    exact dead

/-- Freeing a message releases every pointer of its arguments. -/
theorem dStructFree_linked {message : DStruct Field} {key : CString} {a : DArray Argument} {type : DrpcTypes} {len : Nat}
    {held : type.isPointer = true} (field : (key, .arguments a) ∈ message.hashtable.bindings)
    (linked : .elem (.pointer type address len held) ∈ a.lookupTable)
    (freed : dStructFree memory message = .ok memory') : memory'.cells address = none := by
  obtain ⟨index, at_index⟩ := mem_bindings_iff.mp field
  exact Runs.run_establishes (fun memory => memory.cells address = none) (fun _ _ _ => entryFree_dead)
    (List.mem_of_getElem? at_index) (fun _ _ => dArrayFree_linked linked) freed

end Free

section Build
variable {fromDouble : Nat → Nat} {s s' : ClientArguments} {size done : Nat}

/-- The array under construction holds nothing from an index on and refers to
every container passed so far. -/
structure ClientArguments.Built (size done : Nat) (s : ClientArguments) : Prop where
  holds : s.arguments.Holds size s.arguments.lookup
  fresh : ∀ i, done ≤ i → s.arguments.lookup i = none
  containers : ∀ repack ∈ s.repackable, repack.type.isContainer = true →
    ∃ i len held, s.arguments.lookup i = some (.pointer repack.type repack.ptr len held)

theorem dArraySetWithin_ok {a a' : DArray Argument} {i : Nat} {native : Native Argument}
    (holds : a.Holds size a.lookup) (vacant : a.lookup i = none) (within : i < size)
    (set : dArraySetWithin a i native = .ok a') :
    a'.Holds size a'.lookup ∧ (native = .unsupported ∧ a' = a ∨ ∃ argument, native = .element argument ∧
      a'.lookup = Function.update a.lookup i (some argument)) := by
  obtain ⟨⟨written, stray⟩, ran, kept⟩ := bind_eq_ok.mp set
  cases native with
  | null => cases ran
  | unsupported =>
    rw [dArraySet, holds.get, ok_bind, vacant] at ran
    cases ran
    cases kept
    exact ⟨holds, Or.inl ⟨rfl, rfl⟩⟩
  | element argument =>
    obtain ⟨next, stepped, held⟩ := holds.step (.set i argument) fun _ _ same => by cases same; exact within
    rw [ArrayCall.run, ran] at stepped
    cases stepped
    cases kept
    exact ⟨{ held with lookup := fun _ => rfl }, Or.inr ⟨argument, rfl, funext held.lookup⟩⟩

/-- Containers enter the array under their own address. -/
theorem dArrayNative_container {memory memory' : Memory Element} {type : DrpcTypes} {ptr len : Nat} {argument : Argument}
    (container : type.isContainer = true) (native : dArrayNative memory type ptr len = .ok (memory', .element argument)) :
    ∃ len held, argument = .pointer type ptr len held := by
  cases dArrayNative_eq_ok.mp native with
  | container => exact ⟨0, _, rfl⟩
  | str | sizedbuf => cases container

/-- The setter accepts every pointer type. -/
theorem dArrayNative_supported {memory memory' : Memory Element} {type : DrpcTypes} {ptr len : Nat}
    (pointer : type.isPointer = true) : dArrayNative memory type ptr len ≠ .ok (memory', .unsupported) := by
  intro native
  cases dArrayNative_eq_ok.mp native with
  | unsupported _ other =>
    rw [pointer] at other
    cases other

/-- Everything that one round of the loop over the prototype does. -/
theorem clientArgument_inv {type : DrpcTypes} (ran : clientArgument fromDouble s (type, done) = .ok s') :
    (∃ ptr len native, type.isPointer = true ∧ dArrayNative s.memory type ptr len = .ok (s'.memory, native) ∧
        dArraySetWithin s.arguments done native = .ok s'.arguments ∧
        s'.repackable = s.repackable ++ [⟨type, len, 0, ptr⟩]) ∨
      ∃ input, ∃ scalar : type.isPointer = false,
        dArraySetWithin s.arguments done (scalarNative type scalar input) = .ok s'.arguments ∧
        s'.memory = s.memory ∧ s'.repackable = s.repackable := by
  unfold clientArgument at ran
  split at ran
  · next pointer =>
    obtain ⟨⟨ptr, rest⟩, -, ran⟩ := bind_eq_ok.mp ran
    obtain ⟨⟨len, rest'⟩, -, ran⟩ := bind_eq_ok.mp ran
    obtain ⟨⟨memory, native⟩, copied, ran⟩ := bind_eq_ok.mp ran
    obtain ⟨arguments, set, same⟩ := bind_eq_ok.mp ran
    cases same
    exact .inl ⟨ptr, len, native, pointer, copied, set, rfl⟩
  · next scalar =>
    obtain ⟨⟨input, rest⟩, -, ran⟩ := bind_eq_ok.mp ran
    obtain ⟨arguments, set, same⟩ := bind_eq_ok.mp ran
    cases same
    exact .inr ⟨input, _, set, rfl, rfl⟩

/-- A scalar enters the array in its own width. -/
theorem scalarNative_element {type : DrpcTypes} {scalar : type.isPointer = false} {input : Nat} {argument : Argument}
    (native : scalarNative type scalar input = .element argument) :
    ∃ width, type.scalarWidth = some width ∧
      argument = .packed type.toChar ⟨type.toChar, LittleEndian.encode width input⟩
        ((isPointerChar_toChar type).trans scalar) := by
  unfold scalarNative at native
  split at native
  · next width sized =>
    cases native
    exact ⟨width, sized, rfl⟩
  · cases native

theorem ClientArguments.Built.step {type : DrpcTypes} (built : s.Built size done) (within : done < size)
    (ran : clientArgument fromDouble s (type, done) = .ok s') :
    s'.Built size (done + 1) ∧ (type.isContainer = true → ∃ repack ∈ s'.repackable, repack.type = type) ∧
      (∀ repack ∈ s.repackable, repack ∈ s'.repackable) ∧
      ∀ repack ∈ s'.repackable, repack ∈ s.repackable ∨ repack.type = type := by
  have kept : ∀ {a' : DArray Argument}, (a' = s.arguments ∨ ∃ argument, a'.lookup =
      Function.update s.arguments.lookup done (some argument)) →
      (∀ i, done + 1 ≤ i → a'.lookup i = none) ∧
      ∀ i argument, s.arguments.lookup i = some argument → a'.lookup i = some argument := by
    rintro a' (rfl | ⟨argument, updated⟩)
    · exact ⟨fun i bound => built.fresh i (by omega), fun i argument held => held⟩
    · rw [updated]
      refine ⟨fun i bound => ?_, fun i other held => ?_⟩
      · rw [Function.update_of_ne (by omega), built.fresh i (by omega)]
      · rw [Function.update_of_ne, held]
        rintro rfl
        rw [built.fresh i le_rfl] at held
        cases held
  obtain ⟨ptr, len, native, pointer, copied, set, queue⟩ | ⟨input, scalar, set, -, queue⟩ := clientArgument_inv ran
  · obtain ⟨holds, changed⟩ := dArraySetWithin_ok built.holds (built.fresh done le_rfl) within set
    obtain ⟨argument, rfl, updated⟩ : ∃ argument, native = .element argument ∧
        s'.arguments.lookup = Function.update s.arguments.lookup done (some argument) := by
      rcases changed with ⟨rfl, -⟩ | changed
      · exact absurd copied (dArrayNative_supported pointer)
      · exact changed
    obtain ⟨fresh, still⟩ := kept (Or.inr ⟨argument, updated⟩)
    refine ⟨⟨holds, fresh, fun repack member container => ?_⟩, ?_⟩
    · rw [queue] at member
      rcases List.mem_append.mp member with old | new
      · obtain ⟨i, len, held, linked⟩ := built.containers repack old container
        exact ⟨i, len, held, still i _ linked⟩
      · rw [List.mem_singleton] at new
        subst new
        obtain ⟨len, held, rfl⟩ := dArrayNative_container container copied
        exact ⟨done, len, held, by rw [updated, Function.update_self]⟩
    · rw [queue]
      refine ⟨fun _ => ⟨_, List.mem_append_right _ (List.mem_singleton_self _), rfl⟩,
        fun repack member => List.mem_append_left _ member, fun repack member => ?_⟩
      rcases List.mem_append.mp member with old | new
      · exact Or.inl old
      · exact Or.inr (by rw [List.mem_singleton.mp new])
  · obtain ⟨holds, changed⟩ := dArraySetWithin_ok built.holds (built.fresh done le_rfl) within set
    obtain ⟨fresh, still⟩ := kept (changed.imp And.right fun ⟨argument, _, updated⟩ => ⟨argument, updated⟩)
    refine ⟨⟨holds, fresh, fun repack member container => ?_⟩, ?_⟩
    · rw [queue] at member
      obtain ⟨i, len, held, linked⟩ := built.containers repack member container
      exact ⟨i, len, held, still i _ linked⟩
    · rw [queue]
      refine ⟨fun container => ?_, fun repack member => member, fun repack member => Or.inl member⟩
      cases type <;> cases container <;> cases scalar

theorem ClientArguments.Built.run {types : List DrpcTypes} (built : s.Built size done) (fits : done + types.length ≤ size)
    (ran : (types.zipIdx done).foldlM (clientArgument fromDouble) s = .ok s') :
    s'.Built size (done + types.length) ∧
      (∀ type ∈ types, type.isContainer = true → ∃ repack ∈ s'.repackable, repack.type = type) ∧
      (∀ repack ∈ s.repackable, repack ∈ s'.repackable) ∧
      ∀ repack ∈ s'.repackable, repack ∈ s.repackable ∨ repack.type ∈ types := by
  induction types generalizing s done with
  | nil =>
    cases ran
    exact ⟨built, fun _ member => absurd member List.not_mem_nil, fun _ member => member, fun _ member => Or.inl member⟩
  | cons type types ih =>
    rw [List.length_cons] at fits
    rw [List.zipIdx_cons, List.foldlM_cons] at ran
    obtain ⟨middle, first, rest⟩ := bind_eq_ok.mp ran
    obtain ⟨next, passed, grows, source⟩ := built.step (by omega) first
    obtain ⟨last, later, still, sources⟩ := ih next (by omega) rest
    rw [List.length_cons, show done + (types.length + 1) = done + 1 + types.length by omega]
    refine ⟨last, fun other member container => ?_, fun repack member => still repack (grows repack member),
      fun repack member => ?_⟩
    · rcases List.mem_cons.mp member with rfl | tail
      · obtain ⟨repack, there, same⟩ := passed container
        exact ⟨repack, still repack there, same⟩
      · exact later other tail container
    · rcases sources repack member with before | tail
      · exact (source repack before).imp_right fun same => List.mem_cons.mpr (Or.inl same)
      · exact Or.inr (List.mem_cons_of_mem _ tail)

theorem ClientArguments.Built.start (memory : Memory Element) (varargs : List Nat) (length : Nat) :
    (⟨newDArray length, memory, varargs, []⟩ : ClientArguments).Built (max length 1) 0 where
  holds := { DArray.Holds.start length with lookup := fun _ => rfl }
  fresh := fun _ _ => newDArray_lookup length
  containers := fun _ member => absurd member List.not_mem_nil

/-- The call message has the name and the array that the loop has built. -/
theorem drpcClientCallMessage_inv {memory : Memory Element} {fnName : CString} {prototype : List DrpcTypes}
    {varargs : List Nat} {call : ClientCall}
    (built : drpcClientCallMessage fromDouble memory fnName prototype varargs = .ok call) :
    ∃ s, prototype.zipIdx.foldlM (clientArgument fromDouble) ⟨newDArray prototype.length, memory, varargs, []⟩ = .ok s ∧
      call.memory = s.memory ∧ call.repackable = s.repackable ∧
      call.message.Filled [(.ofString "fn_name", .element (.str fnName.block)),
        (.ofString "arguments", .arguments s.arguments)] := by
  obtain ⟨s, looped, rest⟩ := bind_eq_ok.mp built
  obtain ⟨first, named, rest⟩ := bind_eq_ok.mp rest
  obtain ⟨message, filled, same⟩ := bind_eq_ok.mp rest
  cases same
  obtain ⟨_, again, one⟩ := DStruct.Filled.start.set (.ofString "fn_name")
    (Field.element (.str fnName.block)) List.not_mem_nil
  rw [named] at again
  cases again
  obtain ⟨_, again, two⟩ := one.set (.ofString "arguments") (Field.arguments s.arguments) (by simp; decide)
  rw [filled] at again
  cases again
  exact ⟨s, looped, rfl, rfl, two⟩

/-- The message of a call refers to every container that the caller passes. -/
theorem drpcClientCallMessage_containers {memory : Memory Element} {fnName : CString} {prototype : List DrpcTypes}
    {varargs : List Nat} {call : ClientCall}
    (built : drpcClientCallMessage fromDouble memory fnName prototype varargs = .ok call) :
    (∀ type ∈ prototype, type.isContainer = true → ∃ repack ∈ call.repackable, repack.type = type) ∧
      (∀ repack ∈ call.repackable, repack.type ∈ prototype) ∧
      ∀ repack ∈ call.repackable, repack.type.isContainer = true → ∃ key a len held,
        (key, Field.arguments a) ∈ call.message.hashtable.bindings ∧
        .elem (.pointer repack.type repack.ptr len held) ∈ a.lookupTable := by
  obtain ⟨s, looped, -, queue, filled⟩ := drpcClientCallMessage_inv built
  rw [queue]
  obtain ⟨done, passed, -, sources⟩ := (ClientArguments.Built.start memory varargs prototype.length).run (by omega) looped
  refine ⟨passed, fun repack member => (sources repack member).resolve_left List.not_mem_nil,
    fun repack member container => ?_⟩
  obtain ⟨i, len, held, linked⟩ := done.containers repack member container
  refine ⟨.ofString "arguments", s.arguments, len, held, filled.bindings.mem_iff.mpr (by simp), ?_⟩
  exact List.mem_of_getElem? (DArray.lookup_eq_some.mp linked)

end Build

section Reject
variable {server : CallServer} {clientPerm : Int} {memory : Memory Element} {message : DStruct Field} {handled : HandledCall}

/-- A handler that does not reply `return` leaves the memory and the message. -/
theorem drpcHandleCall_rejected (ran : drpcHandleCall server clientPerm memory (some message) = .ok handled)
    (rejected : handled.reply.messageType ≠ .return) :
    handled.reply.message = none ∧ handled.received = message ∧ handled.memory = memory := by
  rw [drpcHandleCall_eq] at ran
  obtain ⟨verdict, -, finished⟩ := bind_eq_ok.mp ran
  cases verdict with
  | refuse type handleRet =>
    cases finished
    exact ⟨rfl, rfl, rfl⟩
  | invoke record arguments slots toRepack =>
    obtain ⟨result, -, finished⟩ := bind_eq_ok.mp finished
    obtain ⟨received, -, same⟩ := bind_eq_ok.mp finished
    cases same
    exact absurd rfl rejected

theorem drpcClientCallFinish_badreply {contents : Contents} {repackable : List DrpcTypeUpdate} {recv : MemoryMessage}
    {finish : ClientFinish} (ran : drpcClientCallFinish contents memory repackable recv = .ok finish) (failed : finish.ret = .badreply) :
    recv.messageType ≠ .return := by
  intro returned
  rw [drpcClientCallFinish, if_neg (not_not.mpr returned)] at ran
  split at ran
  · cases ran
  · obtain ⟨found, -, ran⟩ := bind_eq_ok.mp ran
    obtain ⟨returnIs, -, ran⟩ := bind_eq_ok.mp ran
    obtain ⟨⟨message, s⟩, -, ran⟩ := bind_eq_ok.mp ran
    obtain ⟨⟨message', nativeReturn⟩, -, ran⟩ := bind_eq_ok.mp ran
    obtain ⟨memory', -, same⟩ := bind_eq_ok.mp ran
    cases same
    cases failed

end Reject

/-- After a call over the in-process transport that ends with a rejection the
containers of the caller are live and unchanged if and only if there are none:
the executor frees them with the message. -/
theorem rejectedCall_keeps_iff {server : CallServer} {clientPerm : Int} {fromDouble : Nat → Nat} {contents : Contents}
    {memory : Memory Element} {fnName : CString} {prototype : List DrpcTypes} {varargs : List Nat} {call : ClientCall}
    {finish : ClientFinish} (built : drpcClientCallMessage fromDouble memory fnName prototype varargs = .ok call)
    (called : drpcDqueueCall server clientPerm fromDouble contents memory fnName prototype varargs = .ok finish)
    (failed : finish.ret = .badreply) :
    (∀ repack ∈ call.repackable, repack.type.isContainer = true → ∃ object, memory.cells repack.ptr = some object ∧
        finish.memory.cells repack.ptr = some object) ↔
      ∀ type ∈ prototype, type.isContainer = false := by
  obtain ⟨passed, sources, linked⟩ := drpcClientCallMessage_containers built
  obtain ⟨_, again, rest⟩ := bind_eq_ok.mp called
  rw [built] at again
  cases again
  obtain ⟨handled, executed, finished⟩ := bind_eq_ok.mp rest
  obtain ⟨before, replied, executed⟩ := bind_eq_ok.mp executed
  obtain ⟨memory', freed, same⟩ := bind_eq_ok.mp executed
  cases same
  have rejected := drpcClientCallFinish_badreply finished failed
  obtain ⟨empty, received, -⟩ := drpcHandleCall_rejected replied rejected
  rw [received] at freed
  have gone : ∀ repack ∈ call.repackable, repack.type.isContainer = true → finish.memory.cells repack.ptr = none := by
    intro repack member container
    obtain ⟨key, a, len, held, field, pointer⟩ := linked repack member container
    rw [drpcClientCallFinish, if_pos rejected] at finished
    simp only [empty] at finished
    cases finished
    exact dStructFree_linked field pointer freed
  constructor
  · intro keeps type member
    by_contra container
    obtain ⟨repack, there, same⟩ := passed type member (by simpa using container)
    have isContainer : repack.type.isContainer = true := by rw [same]; simpa using container
    obtain ⟨object, -, live⟩ := keeps repack there isContainer
    rw [gone repack there isContainer] at live
    cases live
  · intro scalars repack member container
    rw [scalars _ (sources repack member)] at container
    cases container

/-- A server that has no function. -/
def emptyServer : CallServer := ⟨hashtableCreate, fun _ => idleFunction []⟩

theorem rejectedCall_keeps_iff_struct : ∃ call finish,
    drpcClientCallMessage id structMemory (.ofString "f") [.dStruct] [1] = .ok call ∧
    drpcDqueueCall emptyServer 0 id noContents structMemory (.ofString "f") [.dStruct] [1] = .ok finish ∧
    ¬ ∀ repack ∈ call.repackable, repack.type.isContainer = true → ∃ object,
      structMemory.cells repack.ptr = some object ∧ finish.memory.cells repack.ptr = some object := by
  have failed : (drpcDqueueCall emptyServer 0 id noContents structMemory (.ofString "f") [.dStruct] [1]).map ClientFinish.ret =
      .ok .badreply := by decide +kernel
  obtain ⟨finish, called, failed⟩ := map_eq_ok.mp failed
  obtain ⟨call, built, -⟩ := bind_eq_ok.mp called
  refine ⟨call, finish, built, called, fun keeps => ?_⟩
  have container := (rejectedCall_keeps_iff built called failed).mp keeps .dStruct (List.mem_singleton_self _)
  cases container

/-- A call of an unknown function with a struct: the struct is gone when the
client gets its `DRPC_BADREPLY`. -/
theorem rejectedCall_frees : (structMemory.cells 1).isSome ∧
    (drpcDqueueCall emptyServer 0 id noContents structMemory (.ofString "f") [.dStruct] [1]).map
      (fun finish => (finish.ret, (finish.memory.cells 1).isNone)) = .ok (.badreply, true) :=
  ⟨rfl, by decide +kernel⟩

end DynamicRPC
