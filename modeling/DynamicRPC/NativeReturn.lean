import DynamicRPC.ReturnDqueue

namespace DynamicRPC
open Outcome

section Call
variable {aes : Option Aes} {server : CallServer} {clientPerm : Int} {memory serverMemory : Memory Element}
  {fromDouble : Nat → Nat} {contents : Contents} {fnName : CString} {prototype : List DrpcTypes} {varargs : List Nat}
  {call : ClientCall}

/-- The return value of a call that returns 0, when the return type is that of a
container or a string. Over TCP the client gets its own m-th pointer for the
m-th one of the callee if and only if the position is still the same pointer
when it has gone through an `int8_t`; over the in-process transport the position
is the last one at which the callee got that pointer, and a container that the
marker -1 hides is handed over as what it is. Any other object arrives with its
content. -/
theorem drpcClientCall_nativeReturn (honest : ∀ record, (server.records record).Honest) (objects : ObjectsWf memory)
    (serverObjects : ObjectsWf serverMemory) (fits : prototype.length < 2 ^ 61)
    (built : drpcClientCallMessage fromDouble memory fnName prototype varargs = .ok call)
    (owned : ∀ passed ∈ call.repackable, (memory.cells passed.ptr).isSome) :
    (∀ finish, drpcTcpCall aes server clientPerm serverMemory fromDouble contents memory fnName prototype varargs = .ok finish →
      finish.ret = .ok → ∃ run : CalleeRun aes server clientPerm serverMemory call, (∀ other, other = run) ∧
        (run.invocation.fnInfo.returnType.isReturned = true →
          (∀ m, run.invocation.ReturnsArgument m → ∃ passed, call.repackable[m]? = some passed ∧
              passed.type = run.invocation.fnInfo.returnType ∧
              (finish.nativeReturn = some (.pointer passed.type passed.ptr) ↔ Named call.repackable m m)) ∧
            ∀ e, run.invocation.ReturnsObject e →
              ∃ e', finish.nativeReturn = some (.element e') ∧ e'.value = e.value)) ∧
      ∀ finish, drpcDqueueCall server clientPerm fromDouble contents memory fnName prototype varargs = .ok finish →
        finish.ret = .ok → ∃ run : ExecutorRun server clientPerm call, (∀ other, other = run) ∧
          (run.invocation.fnInfo.returnType.isReturned = true →
            (∀ m n, run.invocation.ReturnsArgument m → LastAt run.invocation.pointers run.invocation.returned n →
              ∃ passed, call.repackable[m]? = some passed ∧ passed.type = run.invocation.fnInfo.returnType ∧
                (finish.nativeReturn = some (.pointer passed.type passed.ptr) ↔
                  run.invocation.fnInfo.returnType.isContainer = true ∧ n % 256 = 255 ∨ Named call.repackable m n)) ∧
              ∀ e, run.invocation.ReturnsObject e → ∃ field e', finish.nativeReturn = some field ∧
                field.resolve finish.memory = .ok e' ∧ e'.value = e.value ∧
                ∀ passed ∈ call.repackable, field ≠ .pointer passed.type passed.ptr) := by
  have grows : memory.Extends call.memory := by
    obtain ⟨-, -, -, grows, -⟩ := drpcClientCallMessage_passes objects fits owned built
    exact grows
  refine ⟨fun finish ran zero => ?_, fun finish ran zero => ?_⟩
  · obtain ⟨exchange, exchanged, answered, ran⟩ := drpcTcpCall_ok built ran zero
    obtain ⟨run, result, recv, invoked, sent, load⟩ := drpcTcpExchange_returned exchanged answered
    have serves := run.serves honest objects serverObjects fits owned built
    exact ⟨run, run.unique, fun returned => serves.returns grows owned returned invoked sent load ran⟩
  · obtain ⟨run, result, received, arrival, invoked, modified, freed, ran⟩ := drpcDqueueCall_ok built ran zero
    have reads := run.reads fits built
    exact ⟨run, run.unique, fun returned => ⟨fun m n returns last => reads.argument returned invoked ran returns last,
      fun e returns => reads.object returned returns invoked modified freed ran⟩⟩

end Call

/-- A function that returns its m-th struct. -/
def echoFunction (count m : Nat) : DrpcFunction where
  prototype := some (List.replicate count .dStruct)
  returnType := .dStruct
  minimalPermissionLevel := 0
  fn := fun slots memory =>
    pure (memory, (((calleePointers (List.replicate count .dStruct) slots)[m]?).map DrpcTypeUpdate.ptr).getD 0)

/-- A server with one function. -/
def echoServer (count m : Nat) : CallServer :=
  ⟨⟨1, [.null, .null, .null, .live (.ofString "f") 0]⟩, fun _ => echoFunction count m⟩

/-- A memory with structs at the first addresses. -/
def structsMemory (count : Nat) : Memory Element :=
  (List.range count).foldl (fun memory _ => (memory.alloc (.dstruct newDStruct)).2) Memory.empty

theorem echoFunction_honest (count m : Nat) : (echoFunction count m).Honest where
  passed := by
    intro slots memory left nativeReturn address e called objects _ live
    cases called
    exact ⟨e, live, .refl (objects address e live)⟩
  objects := by
    intro slots memory left nativeReturn called objects
    cases called
    exact objects

theorem Invocation.echo_returns {invocation : Invocation} {count m : Nat} {received : DrpcTypeUpdate}
    (echo : invocation.fnInfo = echoFunction count m) (at_m : invocation.pointers[m]? = some received)
    (type : received.type = .dStruct) : invocation.ReturnsArgument m := by
  obtain ⟨fnInfo, slots, memory, left, returned, called⟩ := invocation
  dsimp only at echo
  subst echo
  have found : (calleePointers (List.replicate count .dStruct) slots)[m]? = some received := at_m
  have value := (Prod.mk.inj (Except.ok.inj called)).2
  rw [found, Option.map_some, Option.getD_some] at value
  exact ⟨received, at_m, type, value⟩

section Echo
variable {aes : Option Aes} {count m : Nat} {clientPerm : Int} {memory serverMemory : Memory Element} {fnName : CString}
  {call : ClientCall}

/-- With structs only, the function returns the pointer it received there. -/
theorem CalleeRun.Serves.echoes {run : CalleeRun aes (echoServer count m) clientPerm serverMemory call}
    (serves : run.Serves memory) (structs : ∀ passed ∈ call.repackable, passed.type = .dStruct)
    (within : m < call.repackable.length) : run.invocation.ReturnsArgument m := by
  have length : m < run.invocation.pointers.length := by
    have pointers := congrArg List.length serves.pointers
    rw [List.length_map, serves.count] at pointers
    exact within.trans_eq pointers.symm
  obtain ⟨r, passed, -, -, at_m, type⟩ := serves.received (List.getElem?_eq_getElem length)
  exact Invocation.echo_returns rfl (List.getElem?_eq_getElem length) (type.symm.trans (structs passed (List.mem_of_getElem? at_m)))

theorem ExecutorRun.Reads.echoes {run : ExecutorRun (echoServer count m) clientPerm call} (reads : run.Reads fnName)
    (structs : ∀ passed ∈ call.repackable, passed.type = .dStruct) (within : m < call.repackable.length) :
    run.invocation.ReturnsArgument m := by
  have length : m < run.invocation.pointers.length := by
    rw [reads.pointers, List.length_map, reads.answering.length_eq]
    exact within
  obtain ⟨r, passed, -, type, -, at_m, same, -⟩ := reads.received (List.getElem?_eq_getElem length)
  exact Invocation.echo_returns rfl (List.getElem?_eq_getElem length)
    (type.symm.trans (same.trans (structs passed (List.mem_of_getElem? at_m))))

end Echo

theorem structsMemory_wf (count : Nat) : ObjectsWf (structsMemory count) := by
  rw [structsMemory]
  induction count with
  | zero => exact fun address e live => by cases live
  | succ count ih =>
    rw [List.range_succ, List.foldl_append]
    exact ih.alloc (.dstruct newDStruct_wf fun key e member => by cases member)

/-- The client's own second struct comes back over both transports. -/
theorem drpcClientCall_nativeReturn_echo : ∃ finish finish',
    drpcTcpCall none (echoServer 2 1) (-1) Memory.empty id noContents (structsMemory 2) (.ofString "f") [.dStruct, .dStruct] [1, 2] =
      .ok finish ∧ finish.ret = .ok ∧ finish.nativeReturn = some (.pointer .dStruct 2) ∧
    drpcDqueueCall (echoServer 2 1) (-1) id noContents (structsMemory 2) (.ofString "f") [.dStruct, .dStruct] [1, 2] =
      .ok finish' ∧ finish'.ret = .ok ∧ finish'.nativeReturn = some (.pointer .dStruct 2) := by
  have ran : (do
      let call ← drpcClientCallMessage id (structsMemory 2) (.ofString "f") [.dStruct, .dStruct] [1, 2]
      let finish ← drpcTcpCall none (echoServer 2 1) (-1) Memory.empty id noContents (structsMemory 2) (.ofString "f")
        [.dStruct, .dStruct] [1, 2]
      let finish' ← drpcDqueueCall (echoServer 2 1) (-1) id noContents (structsMemory 2) (.ofString "f") [.dStruct, .dStruct] [1, 2]
      pure (call.repackable.map DrpcTypeUpdate.ptr, finish.ret, finish'.ret)) = .ok ([1, 2], .ok, .ok) := by
    decide +kernel
  obtain ⟨call, built, ran⟩ := bind_eq_ok.mp ran
  obtain ⟨finish, called, ran⟩ := bind_eq_ok.mp ran
  obtain ⟨finish', called', same⟩ := bind_eq_ok.mp ran
  simp only [pure_eq_ok, Except.ok.injEq, Prod.mk.injEq] at same
  obtain ⟨pointers, zero, zero'⟩ := same
  have owned : ∀ passed ∈ call.repackable, ((structsMemory 2).cells passed.ptr).isSome := by
    intro passed member
    have inside := List.mem_map_of_mem (f := DrpcTypeUpdate.ptr) member
    rw [pointers] at inside
    simp only [List.mem_cons, List.not_mem_nil, or_false] at inside
    obtain here | here := inside <;> rw [here] <;> decide
  have structs : ∀ passed ∈ call.repackable, passed.type = .dStruct := by
    intro passed member
    have listed := (drpcClientCallMessage_containers built).2.1 passed member
    simpa using listed
  have length : call.repackable.length = 2 := by
    rw [← List.length_map, pointers]
    rfl
  have second {passed : DrpcTypeUpdate} (at_one : call.repackable[1]? = some passed) :
      Field.pointer passed.type passed.ptr = .pointer .dStruct 2 := by
    have ptr : (call.repackable.map DrpcTypeUpdate.ptr)[1]? = some passed.ptr := by
      rw [List.getElem?_map, at_one, Option.map_some]
    rw [pointers] at ptr
    have address : 2 = passed.ptr := Option.some.inj ptr
    rw [structs passed (List.mem_of_getElem? at_one), address]
  have named : Named call.repackable 1 1 := named_self (by decide) (by omega)
  have empty : ObjectsWf (Memory.empty : Memory Element) := fun address e live => by cases live
  have honest := fun _ : Nat => echoFunction_honest 2 1
  obtain ⟨tcp, dqueue⟩ := @drpcClientCall_nativeReturn none (echoServer 2 1) (-1) (structsMemory 2) Memory.empty id
    noContents (.ofString "f") [.dStruct, .dStruct] [1, 2] call honest (structsMemory_wf 2) empty (by decide) built owned
  refine ⟨finish, finish', called, zero, ?_, called', zero', ?_⟩
  · obtain ⟨run, -, returns⟩ := tcp finish called zero
    have few : [DrpcTypes.dStruct, .dStruct].length < 2 ^ 61 := by decide
    have serves := run.serves honest (structsMemory_wf 2) empty few owned built
    obtain ⟨passed, at_one, -, identified⟩ := (returns rfl).1 1 (serves.echoes structs (by omega))
    rw [identified.mpr named, second at_one]
  · obtain ⟨run, -, returns⟩ := dqueue finish' called' zero'
    have reads := run.reads (by decide) built
    have argument := reads.echoes structs (by omega)
    have last : LastAt run.invocation.pointers run.invocation.returned 1 := by
      obtain ⟨received, at_one, -, same⟩ := argument
      refine ⟨⟨received, at_one, same⟩, fun j other at_j _ => ?_⟩
      have within := (List.getElem?_eq_some_iff.mp at_j).choose
      rw [reads.pointers, List.length_map, reads.answering.length_eq] at within
      omega
    obtain ⟨passed, at_one, -, identified⟩ := (returns rfl).1 1 1 argument last
    rw [identified.mpr (.inr named), second at_one]

/-- With 129 structs of which the callee returns the last one, position 128 goes
through an `int8_t` as -128, and the client stores nothing. -/
theorem drpcDqueueCall_lostReturn : (∀ record, ((echoServer 129 128).records record).Honest) ∧
    ObjectsWf (structsMemory 129) ∧ ∃ call finish,
      drpcClientCallMessage id (structsMemory 129) (.ofString "f") (List.replicate 129 .dStruct) (List.range' 1 129) =
        .ok call ∧
      drpcDqueueCall (echoServer 129 128) (-1) id noContents (structsMemory 129) (.ofString "f") (List.replicate 129 .dStruct)
        (List.range' 1 129) = .ok finish ∧ finish.ret = .ok ∧
      ∃ (run : ExecutorRun (echoServer 129 128) (-1) call) (passed : DrpcTypeUpdate),
        run.invocation.ReturnsArgument 128 ∧ call.repackable[128]? = some passed ∧
        passed.type = run.invocation.fnInfo.returnType ∧
        finish.nativeReturn ≠ some (.pointer passed.type passed.ptr) := by
  have ran : (do
      let call ← drpcClientCallMessage id (structsMemory 129) (.ofString "f") (List.replicate 129 .dStruct)
        (List.range' 1 129)
      let finish ← drpcDqueueCall (echoServer 129 128) (-1) id noContents (structsMemory 129) (.ofString "f")
        (List.replicate 129 .dStruct) (List.range' 1 129)
      pure (call.repackable.length, finish.ret, finish.nativeReturn.isNone)) = .ok (129, .ok, true) := by
    decide +kernel
  obtain ⟨call, built, ran⟩ := bind_eq_ok.mp ran
  obtain ⟨finish, called, same⟩ := bind_eq_ok.mp ran
  simp only [pure_eq_ok, Except.ok.injEq, Prod.mk.injEq] at same
  obtain ⟨length, zero, unset⟩ := same
  have structs : ∀ passed ∈ call.repackable, passed.type = .dStruct := by
    intro passed member
    have listed := (drpcClientCallMessage_containers built).2.1 passed member
    simpa using listed
  obtain ⟨run, -⟩ := drpcDqueueCall_ok built called zero
  have reads := run.reads (by simp) built
  have at_last : call.repackable[128]? = some call.repackable[128] := List.getElem?_eq_getElem (by omega)
  refine ⟨fun _ => echoFunction_honest 129 128, structsMemory_wf 129, call, finish, built, called, zero, run, _,
    reads.echoes structs (by omega), at_last, structs _ (List.mem_of_getElem? at_last), fun set => ?_⟩
  rw [set] at unset
  cases unset

end DynamicRPC
