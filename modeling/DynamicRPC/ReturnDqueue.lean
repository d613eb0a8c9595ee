import DynamicRPC.ReturnTrip

namespace DynamicRPC
open Outcome

/-- What the setter makes of a pointer: the address itself for a container, the
address of a new copy for the others. -/
def Argument.Stores (argument : Argument) (next : Nat) (passed : DrpcTypeUpdate) : Prop :=
  ∃ address len held, argument = .pointer passed.type address len held ∧
    (passed.type.isContainer = true ∧ address = passed.ptr ∨ passed.type.isContainer = false ∧ next ≤ address)

namespace Argument.Stores
variable {argument : Argument} {next next' : Nat} {passed : DrpcTypeUpdate}

theorem type (stores : argument.Stores next passed) : argument.type = passed.type.toChar := by
  obtain ⟨address, len, held, rfl, -⟩ := stores
  rfl

theorem container (stores : argument.Stores next passed) (container : passed.type.isContainer = true) :
    argument.address = some passed.ptr := by
  obtain ⟨address, len, held, rfl, ⟨-, rfl⟩ | ⟨other, -⟩⟩ := stores
  · rfl
  · rw [container] at other
    cases other

theorem mono (stores : argument.Stores next passed) (earlier : next' ≤ next) : argument.Stores next' passed := by
  obtain ⟨address, len, held, same, kept | ⟨other, beyond⟩⟩ := stores
  · exact ⟨address, len, held, same, .inl kept⟩
  · exact ⟨address, len, held, same, .inr ⟨other, earlier.trans beyond⟩⟩

/-- It is the object behind an address only if the pointer is. -/
theorem address_ne (stores : argument.Stores next passed) {address : Nat} (bound : address < next)
    (apart : passed.ptr ≠ address) : argument.address ≠ some address := by
  obtain ⟨place, len, held, rfl, ⟨-, rfl⟩ | ⟨-, beyond⟩⟩ := stores
  · exact fun same => apart (Option.some.inj same)
  · intro same
    have equal : place = address := Option.some.inj same
    omega

end Argument.Stores

section Native
variable {memory memory' : Memory Element} {type : DrpcTypes} {ptr len : Nat} {argument : Argument}

theorem dArrayNative_stores (ran : dArrayNative memory type ptr len = .ok (memory', .element argument)) (index : Nat) :
    argument.Stores memory.next ⟨type, len, index, ptr⟩ := by
  cases dArrayNative_eq_ok.mp ran with
  | str | sizedbuf => exact ⟨_, _, rfl, rfl, .inr ⟨rfl, le_rfl⟩⟩
  | container nonNull pointer notStr notBuffer =>
    exact ⟨ptr, 0, pointer, rfl, .inl ⟨DrpcTypes.isContainer_iff.mpr ⟨pointer, notStr, notBuffer⟩, rfl⟩⟩

/-- The setter puts what it makes of a pointer behind the others. -/
theorem dArraySetWithin_pushes {a a' : DArray Argument} {size done : Nat} {native : Native Argument}
    (holds : a.Holds size a.lookup) (fresh : ∀ i, done ≤ i → a.lookup i = none) (within : done < size)
    (pointer : type.isPointer = true) (copied : dArrayNative memory type ptr len = .ok (memory', native))
    (stored : dArraySetWithin a done native = .ok a') :
    ∃ argument, a'.Holds size a'.lookup ∧ a'.lookup = Function.update a.lookup done (some argument) ∧
      a'.elements = a.elements ++ [argument] ∧ a'.realSize = a.realSize + 1 ∧
      ∀ index, argument.Stores memory.next ⟨type, len, index, ptr⟩ := by
  obtain ⟨holds', unsupported | ⟨argument, rfl, updated⟩⟩ := dArraySetWithin_ok holds (fresh done le_rfl) within stored
  · rw [unsupported.1] at copied
    exact absurd copied (dArrayNative_supported pointer)
  refine ⟨argument, holds', updated, DArray.elements_push fresh updated, ?_, dArrayNative_stores copied⟩
  obtain ⟨⟨written, stray⟩, set, kept⟩ := bind_eq_ok.mp stored
  obtain ⟨found, -, set⟩ := bind_eq_ok.mp set
  cases set
  dsimp only at kept
  split at kept
  · cases kept
    rfl
  · cases kept

end Native

section Build
variable {fromDouble : Nat → Nat} {s s' : ClientArguments} {size done : Nat}

/-- The pointers of the array under construction are what the setter made of
the pointers passed so far. -/
def ClientArguments.Stores (s : ClientArguments) : Prop :=
  List.Forall₂ (fun argument passed => argument.Stores 0 passed) s.arguments.pointers s.repackable

theorem ClientArguments.Stores.step {type : DrpcTypes} (stores : s.Stores) (built : s.Built size done)
    (within : done < size) (ran : clientArgument fromDouble s (type, done) = .ok s') : s'.Stores := by
  unfold ClientArguments.Stores
  obtain ⟨ptr, len, native, pointer, copied, set, queue⟩ | ⟨input, scalar, set, -, queue⟩ := clientArgument_inv ran
  · obtain ⟨argument, -, -, pushed, -, made⟩ :=
      dArraySetWithin_pushes built.holds built.fresh within pointer copied set
    have kind : isPointerChar argument.type = true := by
      rw [(made 0).type, isPointerChar_toChar]
      exact pointer
    rw [pointers_append _ pushed, queue, if_pos kind]
    exact List.rel_append stores (.cons ((made 0).mono (Nat.zero_le _)) .nil)
  · rw [queue]
    obtain ⟨-, ⟨-, same⟩ | ⟨argument, native, updated⟩⟩ :=
      dArraySetWithin_ok built.holds (built.fresh done le_rfl) within set
    · rw [same]
      exact stores
    obtain ⟨width, -, rfl⟩ := scalarNative_element native
    have pushed := DArray.elements_push built.fresh updated
    have kind : isPointerChar type.toChar = false := (isPointerChar_toChar type).trans scalar
    rw [pointers_append _ pushed, Argument.type, if_neg (ne_true_of_eq_false kind), List.append_nil]
    exact stores

theorem ClientArguments.Stores.run {types : List DrpcTypes} (stores : s.Stores) (built : s.Built size done)
    (fits : done + types.length ≤ size) (ran : (types.zipIdx done).foldlM (clientArgument fromDouble) s = .ok s') :
    s'.Stores := by
  induction types generalizing s done with
  | nil =>
    cases ran
    exact stores
  | cons type types ih =>
    rw [List.length_cons] at fits
    rw [List.zipIdx_cons, List.foldlM_cons] at ran
    obtain ⟨middle, first, rest⟩ := bind_eq_ok.mp ran
    exact ih (stores.step built (by omega) first) (built.step (by omega) first).1 (by omega) rest

end Build

section Repack
variable {fnInfo : DrpcFunction} {nativeReturn next size : Nat} {past rest : List DrpcTypeUpdate} {update : DrpcTypeUpdate}
  {s s' : Repacking}

/-- The repack loop behind the updates it has copied: one argument for each,
new copies at addresses that were not in use when the callee returned. -/
structure Repacking.Pushes (next size : Nat) (past : List DrpcTypeUpdate) (s : Repacking) : Prop where
  holds : s.repacked.Holds size s.repacked.lookup
  occupied : ∀ i, (s.repacked.lookup i).isSome ↔ i < past.length
  counted : s.repacked.realSize = past.length
  stores : List.Forall₂ (fun argument update => argument.Stores next update) s.repacked.elements past
  later : next ≤ s.memory.next

theorem Repacking.Pushes.step (pushes : s.Pushes next size past) (pointer : update.type.isPointer = true)
    (within : past.length < size) (ran : repackArgument fnInfo nativeReturn s (update, past.length) = .ok s') :
    s'.Pushes next size (past ++ [update]) := by
  have fresh : ∀ i, past.length ≤ i → s.repacked.lookup i = none := by
    intro i beyond
    by_contra occupied
    exact absurd ((pushes.occupied i).mp (Option.isSome_iff_ne_none.mpr occupied)) (not_lt.mpr beyond)
  obtain ⟨-, memory, native, -, copied, stored, released, -⟩ := repackArgument_inv ran
  obtain ⟨argument, holds, updated, pushed, counted, made⟩ :=
    dArraySetWithin_pushes pushes.holds fresh within pointer copied stored
  have length : (past ++ [update]).length = past.length + 1 := List.length_append
  refine ⟨holds, fun i => ?_, ?_, ?_, ?_⟩
  · rw [updated, Function.update_apply, length]
    split
    · next same => simp [same]
    · next other =>
      rw [pushes.occupied]
      omega
  · rw [counted, pushes.counted, length]
  · rw [pushed]
    exact List.rel_append pushes.stores (.cons ((made update.index).mono pushes.later) .nil)
  · have grows := (dArrayNative_extends copied).next
    obtain ⟨-, freed, -⟩ | ⟨-, same, -⟩ := released
    · obtain ⟨-, -, kept⟩ := Memory.free_eq_ok.mp freed
      have later := pushes.later
      omega
    · rw [same]
      exact pushes.later.trans grows

theorem Repacking.Pushes.run (pushes : s.Pushes next size past) (pointer : ∀ update ∈ rest, update.type.isPointer = true)
    (fits : past.length + rest.length ≤ size)
    (ran : (rest.zipIdx past.length).foldlM (repackArgument fnInfo nativeReturn) s = .ok s') :
    s'.Pushes next size (past ++ rest) := by
  induction rest generalizing past s with
  | nil =>
    cases ran
    rw [List.append_nil]
    exact pushes
  | cons update rest ih =>
    rw [List.length_cons] at fits
    rw [List.zipIdx_cons, List.foldlM_cons] at ran
    obtain ⟨middle, first, later⟩ := bind_eq_ok.mp ran
    obtain ⟨here, others⟩ := List.forall_mem_cons.mp pointer
    have next := pushes.step here (by omega) first
    have length : (past ++ [update]).length = past.length + 1 := List.length_append
    rw [← length] at later
    have last := ih next others (by omega) later
    rwa [List.append_assoc, List.singleton_append] at last

/-- The loop refuses a null pointer. -/
theorem repack_nonNull {n : Nat} (ran : (rest.zipIdx n).foldlM (repackArgument fnInfo nativeReturn) s = .ok s') :
    ∀ update ∈ rest, update.ptr ≠ 0 := by
  induction rest generalizing s n with
  | nil => exact fun update member => absurd member List.not_mem_nil
  | cons update rest ih =>
    rw [List.zipIdx_cons, List.foldlM_cons] at ran
    obtain ⟨middle, first, later⟩ := bind_eq_ok.mp ran
    obtain ⟨-, memory, native, -, copied, stored, -, -⟩ := repackArgument_inv first
    refine List.forall_mem_cons.mpr ⟨fun null => ?_, ih later⟩
    cases copied.symm.trans (dArrayNative_eq_ok.mpr (.null null))
    obtain ⟨written, set, -⟩ := bind_eq_ok.mp stored
    cases set

/-- An object that was there when the callee returned and that it did not receive
is behind none of the copies. -/
theorem Repacking.Pushes.apart (pushes : s.Pushes next size past) {address : Nat} (bound : address < next)
    (outside : ∀ update ∈ past, update.ptr ≠ address) {a : DArray Argument}
    (among : ∀ i argument, a.lookup i = some argument → s.repacked.lookup i = some argument) :
    address ∉ (Field.arguments a).addresses := by
  intro inside
  obtain ⟨argument, member, points⟩ := List.mem_filterMap.mp inside
  obtain ⟨i, at_i⟩ := DArray.lookup_of_mem member
  obtain ⟨update, received, stores⟩ :=
    forall₂_mem_right pushes.stores.flip (DArray.mem_of_lookup (among i argument at_i))
  exact Argument.Stores.address_ne stores bound (outside update received) points

theorem Repacking.Pushes.start (memory : Memory Element) (length : Nat) (arguments : DArray Argument) :
    (⟨arguments, newDArray length, memory, -1, []⟩ : Repacking).Pushes memory.next (max length 1) [] where
  holds := { DArray.Holds.start length with lookup := fun _ => rfl }
  occupied := fun i => by
    rw [newDArray_lookup]
    simp
  counted := rfl
  stores := by
    rw [newDArray_elements]
    exact .nil
  later := le_rfl

end Repack

section Client
variable {memory memory' : Memory Element} {update : DrpcTypeUpdate} {address len next other size done : Nat} {e : Element}
  {type : DrpcTypes} {passed : List DrpcTypeUpdate} {sent : DArray Argument} {s s' : ClientRepack} {returnIs : Int}

/-- Moving an argument into the caller's object leaves the container behind
another pointer alone: the caller's own containers stay where they are, and
only strings and buffers are written. -/
theorem moveArgument_container (live : memory.cells other = some e) (kind : e.type = type.toChar)
    (container : type.isContainer = true)
    (source : update.type.isContainer = true ∧ address = update.ptr ∨ update.type.isContainer = false ∧ other ≠ address)
    (ran : moveArgument contents memory update address len = .ok (memory', contents')) : memory'.cells other = some e := by
  have apart (stored : DrpcTypes) {object : Element} (held : memory.cells update.ptr = some object)
      (same : object.type = stored.toChar) (plain : stored.isContainer = false) : other ≠ update.ptr := by
    rintro rfl
    rw [live] at held
    cases held
    have equal : type = stored := DrpcTypes.toChar_injective (kind.symm.trans same)
    rw [equal, plain] at container
    cases container
  unfold moveArgument at ran
  split at ran
  · next moved =>
    obtain ⟨-, rfl⟩ | ⟨plain, -⟩ := source
    · rw [moveContainer, if_pos rfl] at ran
      cases ran
      exact live
    · rw [moved] at plain
      cases plain
  · next plain =>
    obtain ⟨moved, -⟩ | ⟨-, outside⟩ := source
    · exact absurd moved plain
    split at ran
    · obtain ⟨_, moved, done⟩ := bind_eq_ok.mp ran
      cases done
      by_cases same : update.ptr = address
      · rw [moveStr, if_pos same] at moved
        cases moved
        exact live
      · obtain ⟨block, _, _, _, held, -, -, -, cells⟩ := moveStr_cells same moved
        have inside : other ≠ update.ptr := apart .dStr held rfl rfl
        rw [cells, Function.update_of_ne outside, Function.update_of_ne inside, live]
    · obtain ⟨_, moved, done⟩ := bind_eq_ok.mp ran
      cases done
      obtain ⟨block, _, held, -, -, -, cells⟩ := moveBuffer_cells moved
      have inside : other ≠ update.ptr := apart .dSizedbuf held rfl rfl
      rw [cells, Function.update_of_ne inside, live]

/-- The loop over the repacked arguments before an index, where they are the
caller's own containers and new copies: a container that is none of them stays as it is. -/
structure ClientRepack.Leaves (passed : List DrpcTypeUpdate) (sent : DArray Argument) (size done other : Nat) (e : Element)
    (s : ClientRepack) : Prop where
  holds : s.repacked.Holds size s.repacked.lookup
  queue : s.repackable = passed.drop done
  pending : ∀ n, done ≤ n → s.repacked.lookup n = sent.lookup n
  kept : ∀ n argument, s.repacked.lookup n = some argument → sent.lookup n = some argument
  live : s.memory.cells other = some e

theorem ClientRepack.Leaves.step (leaves : s.Leaves passed sent size done other e) (bound : other < next)
    (kind : e.type = type.toChar) (container : type.isContainer = true) (within : done < passed.length)
    (stores : ∀ i update, passed[i]? = some update → ∃ argument, sent.lookup i = some argument ∧ argument.Stores next update)
    (ran : clientRepack returnIs s done = .ok s') : s'.Leaves passed sent size (done + 1) other e := by
  obtain ⟨argument, found, address, len, held, rfl, source⟩ := stores done _ (List.getElem?_eq_getElem within)
  have queue : s.repackable = passed[done] :: passed.drop (done + 1) := by
    rw [leaves.queue, List.drop_eq_getElem_cons within]
  obtain ⟨repacked, nativeReturn, holds, others, gone, round⟩ :=
    clientRepack_eq leaves.holds ((leaves.pending done le_rfl).trans found) queue returnIs
  rw [round] at ran
  obtain ⟨⟨memory, contents⟩, moved, same⟩ := bind_eq_ok.mp ran
  cases same
  refine ⟨holds, rfl, fun n later => ?_, fun n other at_n => ?_, ?_⟩
  · rw [others n (by omega), leaves.pending n (by omega)]
  · by_cases here : n = done
    · rw [here] at at_n ⊢
      exact leaves.kept done other (gone other at_n)
    · rw [others n here] at at_n
      exact leaves.kept n other at_n
  · refine moveArgument_container leaves.live kind container (source.imp_right fun fresh => ⟨fresh.1, ?_⟩) moved
    have beyond := fresh.2
    omega

theorem ClientRepack.Leaves.run {rounds : Nat} (leaves : s.Leaves passed sent size done other e) (bound : other < next)
    (kind : e.type = type.toChar) (container : type.isContainer = true) (within : done + rounds ≤ passed.length)
    (stores : ∀ i update, passed[i]? = some update → ∃ argument, sent.lookup i = some argument ∧ argument.Stores next update)
    (ran : (List.range' done rounds).foldlM (clientRepack returnIs) s = .ok s') :
    s'.Leaves passed sent size (done + rounds) other e := by
  induction rounds generalizing s done with
  | zero =>
    cases ran
    exact leaves
  | succ rounds ih =>
    rw [List.range'_succ, List.foldlM_cons] at ran
    obtain ⟨middle, first, rest⟩ := bind_eq_ok.mp ran
    have last := ih (leaves.step bound kind container (by omega) stores first) (by omega) rest
    rwa [show done + 1 + rounds = done + (rounds + 1) by omega] at last

end Client

/-- The run of a callee that a call message brings about over the in-process
transport: the executor reads the caller's message in the caller's memory. -/
structure ExecutorRun (server : CallServer) (clientPerm : Int) (call : ClientCall) where
  record : Nat
  arguments : DArray Argument
  slots : List FfiSlot
  toRepack : List DrpcTypeUpdate
  admitted : drpcAdmitCall server clientPerm (some call.message) = .ok (.invoke record arguments slots toRepack)
  left : Memory Element
  nativeReturn : Nat
  called : (server.records record).fn slots call.memory = .ok (left, nativeReturn)

section Run
variable {server : CallServer} {clientPerm : Int} {contents : Contents} {fromDouble : Nat → Nat} {memory : Memory Element} {fnName : CString}
  {prototype : List DrpcTypes} {varargs : List Nat} {call : ClientCall} {finish : ClientFinish}

def ExecutorRun.invocation (run : ExecutorRun server clientPerm call) : Invocation :=
  ⟨server.records run.record, run.slots, call.memory, run.left, run.nativeReturn, run.called⟩

theorem ExecutorRun.unique (run other : ExecutorRun server clientPerm call) : other = run := by
  obtain ⟨record, arguments, slots, toRepack, admitted, left, nativeReturn, called⟩ := run
  obtain ⟨record', arguments', slots', toRepack', admitted', left', nativeReturn', called'⟩ := other
  rw [admitted] at admitted'
  cases admitted'
  rw [called] at called'
  cases called'
  rfl

/-- A call over the in-process transport that returns 0 comes of a run of a callee. -/
theorem drpcDqueueCall_ok (built : drpcClientCallMessage fromDouble memory fnName prototype varargs = .ok call)
    (called : drpcDqueueCall server clientPerm fromDouble contents memory fnName prototype varargs = .ok finish)
    (zero : finish.ret = .ok) :
    ∃ (run : ExecutorRun server clientPerm call) (result : CallResult) (received : DStruct Field) (arrival : Memory Element),
      drpcServerInvokeFn call.memory (server.records run.record) run.arguments run.slots run.toRepack newDStruct =
        .ok result ∧
      dStructModify call.message (.ofString "arguments") (fun _ => .arguments result.arguments) = .ok received ∧
      dStructFree result.memory received = .ok arrival ∧
      drpcClientCallFinish contents arrival call.repackable ⟨.return, some result.returnMsg⟩ = .ok finish := by
  obtain ⟨other, again, called⟩ := bind_eq_ok.mp called
  rw [built] at again
  cases again
  obtain ⟨handled, executed, finished⟩ := bind_eq_ok.mp called
  obtain ⟨before, replied, executed⟩ := bind_eq_ok.mp executed
  obtain ⟨arrival, freed, same⟩ := bind_eq_ok.mp executed
  cases same
  rw [drpcHandleCall_eq] at replied
  obtain ⟨verdict, admitted, replied⟩ := bind_eq_ok.mp replied
  cases verdict with
  | refuse type handleRet =>
    cases replied
    have other : type ≠ .return := by
      obtain rfl | rfl | rfl := drpcAdmitCall_refuse admitted <;> decide
    rw [drpcClientCallFinish, if_pos other] at finished
    cases finished
    cases zero
  | invoke record arguments slots toRepack =>
    obtain ⟨result, invoked, replied⟩ := bind_eq_ok.mp replied
    obtain ⟨received, modified, same⟩ := bind_eq_ok.mp replied
    cases same
    obtain ⟨⟨left, nativeReturn⟩, called, -⟩ := bind_eq_ok.mp invoked
    exact ⟨⟨record, arguments, slots, toRepack, admitted, left, nativeReturn, called⟩, result, received, arrival, invoked,
      modified, freed, finished⟩

/-- An argument of the run's queue belongs to the pointer that was passed there. -/
def Answering (update passed : DrpcTypeUpdate) : Prop :=
  update.type = passed.type ∧ update.type.isPointer = true ∧ (passed.type.isContainer = true → update.ptr = passed.ptr)

theorem Argument.Stores.answers {argument : Argument} {next : Nat} {update passed : DrpcTypeUpdate}
    (stores : argument.Stores next update) (answering : Answering update passed) : argument.Stores next passed := by
  obtain ⟨address, len, held, rfl, source⟩ := stores
  obtain ⟨type, length, index, ptr⟩ := update
  obtain ⟨rfl, -, own⟩ := answering
  refine ⟨address, len, held, rfl, source.imp_left fun kept => ⟨kept.1, ?_⟩⟩
  exact kept.2.trans (own kept.1)

theorem answering_of_repacks {arguments : List Argument} {toRepack passed : List DrpcTypeUpdate}
    (repacks : List.Forall₂ Argument.Repacks arguments toRepack)
    (stores : List.Forall₂ (fun argument passed => argument.Stores 0 passed) arguments passed) :
    List.Forall₂ Answering toRepack passed := by
  induction repacks generalizing passed with
  | nil =>
    cases stores
    exact .nil
  | cons here _ ih =>
    cases stores with
    | cons first rest =>
      refine .cons ⟨?_, here.pointer, fun container => ?_⟩ (ih rest)
      · obtain ⟨len, held, rfl, -⟩ := here
        exact DrpcTypes.toChar_injective first.type
      · exact Option.some.inj (here.address.symm.trans (first.container container))

/-- What the executor finds in a call message, and what it makes of it. -/
structure ExecutorRun.Reads (run : ExecutorRun server clientPerm call) (fnName : CString) : Prop where
  filled : call.message.Filled [(.ofString "fn_name", .element (.str fnName.block)),
    (.ofString "arguments", .arguments run.arguments)]
  wf : run.arguments.Wf
  pointers : run.invocation.pointers = run.toRepack.map fun update => { update with index := 0 }
  answering : List.Forall₂ Answering run.toRepack call.repackable
  addresses : run.arguments.elements.filterMap Argument.address = run.toRepack.map DrpcTypeUpdate.ptr

theorem DArray.pointers_address (a : DArray Argument) :
    a.elements.filterMap Argument.address = a.pointers.filterMap Argument.address := by
  rw [DArray.pointers, List.filterMap_filter]
  refine List.filterMap_congr fun argument _ => ?_
  cases argument with
  | packed type data scalar => simp [Argument.address]
  | pointer type address len held =>
    rw [if_pos]
    rw [Argument.type, isPointerChar_toChar]
    exact held

theorem ExecutorRun.reads (run : ExecutorRun server clientPerm call) (fits : prototype.length < 2 ^ 61)
    (built : drpcClientCallMessage fromDouble memory fnName prototype varargs = .ok call) : run.Reads fnName := by
  obtain ⟨s, looped, -, queue, filled⟩ := drpcClientCallMessage_inv built
  have start := ClientArguments.Built.start memory varargs prototype.length
  obtain ⟨done, -⟩ := start.run (by omega) looped
  have stores : s.Stores := by
    refine ClientArguments.Stores.run ?_ start (by omega) looped
    unfold ClientArguments.Stores
    rw [DArray.pointers, newDArray_elements]
    exact .nil
  have wf : s.arguments.Wf := by
    refine ⟨done.holds.initialised, done.holds.live, done.holds.counted, ?_⟩
    rw [done.holds.size]
    omega
  obtain ⟨_, _, same, -⟩ | ⟨_, _, _, _, _, same, -, -, -, carries, ready⟩ := drpcAdmitCall_inv run.admitted
  · cases same
  cases same
  have there : Payload.Carries call.message s.arguments := by
    refine dStructGet_of_get ?_ rfl
    rw [filled.get]
    rfl
  have same : run.arguments = s.arguments := carries.unique there
  rw [same] at ready
  obtain ⟨-, -, accepts, walked⟩ := drpcServerPrepareFn_spec ready
  obtain ⟨repacks, -⟩ := drpcServerPrepareFn_pointers wf ready
  refine ⟨same ▸ filled, same ▸ wf, ffiFromDrpc_calleePointers accepts walked, ?_, ?_⟩
  · rw [queue]
    exact answering_of_repacks repacks stores
  · rw [same, DArray.pointers_address, forall₂_repacks_address repacks]

end Run

section Returned
variable {server : CallServer} {clientPerm : Int} {fnName : CString} {call : ClientCall}
  {run : ExecutorRun server clientPerm call} {result : CallResult} {message : DStruct Field} {arrival : Memory Element}
  {finish : ClientFinish}

theorem ExecutorRun.Reads.received (reads : run.Reads fnName) {m : Nat} {received : DrpcTypeUpdate}
    (at_m : run.invocation.pointers[m]? = some received) :
    ∃ r passed, run.toRepack[m]? = some r ∧ r.type = received.type ∧ r.ptr = received.ptr ∧
      call.repackable[m]? = some passed ∧ Answering r passed := by
  obtain ⟨r, at_r, type, ptr⟩ := Invocation.pointers_at reads.pointers at_m
  obtain ⟨length, each⟩ := forall₂_iff_getElem?.mp reads.answering
  have within := (List.getElem?_eq_some_iff.mp at_r).choose
  have passed : call.repackable[m]? = some call.repackable[m] := List.getElem?_eq_getElem (by omega)
  exact ⟨r, _, at_r, type, ptr, passed, each m r _ at_r passed⟩

theorem ExecutorRun.Reads.lastAt (reads : run.Reads fnName) {address n : Nat} :
    LastAt run.invocation.pointers address n ↔ LastAt run.toRepack address n := by
  rw [reads.pointers, LastAt, LastAt]
  simp only [List.getElem?_map, Option.map_eq_some_iff]
  constructor
  · rintro ⟨⟨_, ⟨r, at_n, rfl⟩, same⟩, last⟩
    exact ⟨⟨r, at_n, same⟩, fun j other at_j equal => last j _ ⟨other, at_j, rfl⟩ equal⟩
  · rintro ⟨⟨r, at_n, same⟩, last⟩
    refine ⟨⟨_, ⟨r, at_n, rfl⟩, same⟩, ?_⟩
    rintro j _ ⟨other, at_j, rfl⟩ equal
    exact last j other at_j equal

theorem ExecutorRun.Reads.pushes (reads : run.Reads fnName) {s : Repacking}
    (looped : run.toRepack.zipIdx.foldlM (repackArgument run.invocation.fnInfo run.invocation.returned)
      ⟨run.arguments, newDArray run.toRepack.length, run.invocation.left, -1, []⟩ = .ok s) :
    s.Pushes run.invocation.left.next (max run.toRepack.length 1) run.toRepack := by
  refine (Repacking.Pushes.start run.invocation.left run.toRepack.length run.arguments).run (fun update member => ?_)
    (by simp) looped
  obtain ⟨passed, -, answering⟩ := forall₂_mem_right reads.answering.flip member
  exact answering.2.1

/-- Each repacked argument answers the pointer that the caller passed there. -/
theorem ExecutorRun.Reads.stores (reads : run.Reads fnName) {s : Repacking} {next size i : Nat} {passed : DrpcTypeUpdate}
    (pushes : s.Pushes next size run.toRepack) (at_passed : call.repackable[i]? = some passed) :
    ∃ argument, s.repacked.lookup i = some argument ∧ argument.Stores next passed := by
  obtain ⟨count, dense⟩ := DArray.lookup_dense pushes.occupied
  obtain ⟨listed, copied⟩ := forall₂_iff_getElem?.mp pushes.stores
  obtain ⟨paired, answering⟩ := forall₂_iff_getElem?.mp reads.answering
  have within := (List.getElem?_eq_some_iff.mp at_passed).choose
  have at_r : run.toRepack[i]? = some run.toRepack[i] := List.getElem?_eq_getElem (by omega)
  have at_i : s.repacked.elements[i]? = some s.repacked.elements[i] := List.getElem?_eq_getElem (by omega)
  have stores : Argument.Stores _ _ _ := copied i _ _ at_i at_r
  exact ⟨_, (dense i).trans at_i, stores.answers (answering i _ _ at_r at_passed)⟩

/-- What the client stores through `native_return` after a run whose callee
returned a pointer. -/
theorem ExecutorRun.Reads.native (reads : run.Reads fnName)
    (returned : run.invocation.fnInfo.returnType.isReturned = true) (nonNull : run.invocation.returned ≠ 0)
    (invoked : drpcServerInvokeFn call.memory (server.records run.record) run.arguments run.slots run.toRepack newDStruct =
      .ok result)
    (ran : drpcClientCallFinish contents arrival call.repackable ⟨.return, some result.returnMsg⟩ = .ok finish) :
    (∃ n, LastAt run.toRepack run.invocation.returned n ∧ n % 256 ≠ 255 ∧
        finish.nativeReturn = identified call.repackable (Int.bmod n 256)) ∨
      ((∀ update ∈ run.toRepack, update.ptr ≠ run.invocation.returned) ∨
          ∃ n, LastAt run.toRepack run.invocation.returned n ∧ n % 256 = 255) ∧
        ∃ field, ReturnField result.memory run.invocation.fnInfo.returnType run.invocation.returned field ∧
          finish.nativeReturn = some field := by
  obtain ⟨s, map, looped, -, -, fields, reply⟩ := drpcServerInvokeFn_return run.called returned nonNull invoked
  obtain ⟨last, stands, other⟩ : ∃ last, result.returnMsg.Stands last ∧
      last (.ofString "repacked_arguments") = map (.ofString "repacked_arguments") := by
    obtain ⟨-, field, -, stands⟩ | ⟨-, stands⟩ := reply <;> exact ⟨_, stands, Function.update_of_ne (by decide) _ _⟩
  have pushes := reads.pushes looped
  have length := reads.answering.length_eq
  have counted : call.repackable = [] ∨ ∃ repacked, last (.ofString "repacked_arguments") = some (.arguments repacked) ∧
      dArrayLen repacked = call.repackable.length := by
    by_cases some_there : run.toRepack.length > 0
    · refine .inr ⟨s.repacked, ?_, pushes.counted.trans length⟩
      rw [other, fields]
      exact if_pos ⟨rfl, some_there⟩
    · exact .inl (List.eq_nil_of_length_eq_zero (by omega))
  obtain ⟨named, unnamed⟩ := drpcClientCallFinish_return stands counted ran
  rw [← stands.lookup] at named unnamed
  obtain ⟨n, last, position, sent⟩ | ⟨where_, absent, field, made, sent⟩ :=
    drpcServerInvokeFn_named run.called returned nonNull invoked
  · have proper : Int.bmod n 256 ≠ -1 := by
      rw [ne_eq, bmod_byte_marker]
      exact position
    exact .inl ⟨n, last, position, named _ _ sent rfl (returnIsField_position n) proper⟩
  · refine .inr ⟨where_, field, made, unnamed absent field sent fun void => ?_⟩
    have same : run.invocation.fnInfo.returnType = .dVoid := DrpcTypes.toChar_injective (made.field_type.symm.trans void)
    rw [same] at returned
    cases returned

/-- A returned argument over the in-process transport, where the callee
received the caller's own containers. -/
theorem ExecutorRun.Reads.argument (reads : run.Reads fnName)
    (returned : run.invocation.fnInfo.returnType.isReturned = true)
    (invoked : drpcServerInvokeFn call.memory (server.records run.record) run.arguments run.slots run.toRepack newDStruct =
      .ok result)
    (ran : drpcClientCallFinish contents arrival call.repackable ⟨.return, some result.returnMsg⟩ = .ok finish) {m n : Nat}
    (returns : run.invocation.ReturnsArgument m) (last : LastAt run.invocation.pointers run.invocation.returned n) :
    ∃ passed, call.repackable[m]? = some passed ∧ passed.type = run.invocation.fnInfo.returnType ∧
      (finish.nativeReturn = some (.pointer passed.type passed.ptr) ↔
        run.invocation.fnInfo.returnType.isContainer = true ∧ n % 256 = 255 ∨ Named call.repackable m n) := by
  obtain ⟨received, at_m, type, same⟩ := returns
  obtain ⟨r, passed, at_r, kind, ptr, at_passed, passedType, -, own⟩ := reads.received at_m
  have passedIs : passed.type = run.invocation.fnInfo.returnType := passedType.symm.trans (kind.trans type)
  have nonNull : run.invocation.returned ≠ 0 := by
    rw [drpcServerInvokeFn, run.called, ok_bind] at invoked
    obtain ⟨s, looped, -⟩ := bind_eq_ok.mp invoked
    rw [← same, ← ptr]
    exact repack_nonNull looped r (List.mem_of_getElem? at_r)
  refine ⟨passed, at_passed, passedIs, ?_⟩
  obtain ⟨n', last', position, set⟩ | ⟨absent | ⟨n', last', full⟩, field, made, set⟩ :=
    reads.native returned nonNull invoked ran
  · rw [LastAt.unique last' (reads.lastAt.mp last)] at set position
    rw [set, identified_iff at_passed (by rw [passedIs]; exact returned)]
    exact ⟨.inr, fun either => either.resolve_left fun marker => position marker.2⟩
  · exact absurd (ptr.trans same) (absent r (List.mem_of_getElem? at_r))
  · rw [LastAt.unique last' (reads.lastAt.mp last)] at full
    have unnamed : ¬ Named call.repackable m n := by
      intro named
      have small := named.1
      omega
    obtain ⟨plain, content, rfl⟩ | ⟨container, rfl⟩ := made.cases
    · rw [set, plain]
      simp [unnamed]
    · have mine : run.invocation.returned = passed.ptr := by
        rw [← same, ← ptr, own (by rw [passedIs]; exact container)]
      rw [set, passedIs, mine]
      exact iff_of_true rfl (.inl ⟨container, full⟩)

/-- Releasing the call message touches what the callee received only. -/
theorem ExecutorRun.Reads.release (reads : run.Reads fnName) {other : Nat}
    (apart : ∀ update ∈ run.toRepack, update.ptr ≠ other)
    (invoked : drpcServerInvokeFn call.memory (server.records run.record) run.arguments run.slots run.toRepack newDStruct =
      .ok result)
    (modified : dStructModify call.message (.ofString "arguments") (fun _ => .arguments result.arguments) = .ok message)
    (freed : dStructFree result.memory message = .ok arrival) : arrival.cells other = result.memory.cells other := by
  have untouched : other ∉ run.arguments.elements.filterMap Argument.address := by
    rw [reads.addresses]
    intro inside
    obtain ⟨update, member, same⟩ := List.mem_map.mp inside
    exact apart update member same
  have linked : ∀ argument ∈ result.arguments.elements, argument ∈ run.arguments.elements := by
    rw [drpcServerInvokeFn, run.called, ok_bind] at invoked
    obtain ⟨s, looped, rest⟩ := bind_eq_ok.mp invoked
    obtain ⟨first, -, rest⟩ := bind_eq_ok.mp rest
    obtain ⟨last, -, same⟩ := bind_eq_ok.mp rest
    cases same
    intro argument member
    obtain ⟨i, at_i⟩ := DArray.lookup_of_mem member
    rw [(repack_arguments reads.wf.holds looped).lookup] at at_i
    have held : run.arguments.lookup i = some argument := by
      split at at_i
      · exact (Option.filter_eq_some_iff.mp at_i).1
      · exact at_i
    exact DArray.mem_of_lookup held
  refine dStructFree_keeps (fun key field member => ?_) freed
  obtain before | rfl := dStructModify_live modified member
  · obtain ⟨i, at_i⟩ := List.mem_iff_getElem?.mp before
    have bound := reads.filled.bindings.mem_iff.mp (mem_bindings_iff.mpr ⟨i, at_i⟩)
    simp only [List.mem_cons, Prod.mk.injEq, List.not_mem_nil, or_false] at bound
    obtain ⟨-, rfl⟩ | ⟨-, rfl⟩ := bound
    · exact List.not_mem_nil
    · exact untouched
  · intro inside
    obtain ⟨argument, member, points⟩ := List.mem_filterMap.mp inside
    exact untouched (List.mem_filterMap.mpr ⟨argument, linked argument member, points⟩)

/-- What is left of the reply when the loop is done: besides the return value
only arguments, and none of them is the returned object. -/
theorem ExecutorRun.Reads.rest (reads : run.Reads fnName) {e : Element} {s : Repacking} {map : CString → Option Field}
    {field : Field} {message' : DStruct Field} {last : ClientRepack}
    (container : run.invocation.fnInfo.returnType.isContainer = true) (bound : run.invocation.returned < run.invocation.left.next)
    (kind : e.type = run.invocation.fnInfo.returnType.toChar)
    (outside : ∀ update ∈ run.toRepack, update.ptr ≠ run.invocation.returned)
    (looped : run.toRepack.zipIdx.foldlM (repackArgument run.invocation.fnInfo run.invocation.returned)
      ⟨run.arguments, newDArray run.toRepack.length, run.invocation.left, -1, []⟩ = .ok s)
    (fields : map = fun key => if key = .ofString "repacked_arguments" ∧ run.toRepack.length > 0
      then some (.arguments s.repacked) else none)
    (stands : result.returnMsg.Stands (Function.update map (.ofString "return") (some field)))
    (live : arrival.cells run.invocation.returned = some e)
    (ran : clientRepackAll contents arrival call.repackable result.returnMsg (-1) = .ok (message', last)) :
    last.memory.cells run.invocation.returned = some e ∧ ∃ map', message'.Stands map' ∧
      map' (.ofString "return") = some field ∧ ∀ key other, key ≠ .ofString "return" → map' key = some other →
        run.invocation.returned ∉ other.addresses := by
  have pushes := reads.pushes looped
  have only : ∀ key other, key ≠ .ofString "return" → Function.update map (.ofString "return") (some field) key = some other →
      key = .ofString "repacked_arguments" ∧ other = .arguments s.repacked := by
    intro key other notReturn there
    rw [Function.update_of_ne notReturn, fields] at there
    dsimp only at there
    split at there
    · next both => exact ⟨both.1, (Option.some.inj there).symm⟩
    · cases there
  have notReturn : CString.ofString "repacked_arguments" ≠ .ofString "return" := by decide
  obtain ⟨-, rfl, memory, -⟩ | ⟨sent, there, rounds, stands'⟩ := clientRepackAll_inv stands ran
  · refine ⟨by rw [memory, live], _, stands, Function.update_self .., fun key other away held => ?_⟩
    obtain ⟨-, rfl⟩ := only key other away held
    exact pushes.apart bound outside fun _ _ same => same
  · obtain ⟨-, same⟩ := only _ _ notReturn there
    obtain rfl : sent = s.repacked := Field.arguments.inj same
    have length : dArrayLen s.repacked = call.repackable.length := pushes.counted.trans reads.answering.length_eq
    have start : (⟨s.repacked, arrival, call.repackable, none, contents⟩ : ClientRepack).Leaves call.repackable s.repacked
        (max run.toRepack.length 1) 0 run.invocation.returned e :=
      ⟨pushes.holds, rfl, fun _ _ => rfl, fun _ _ same => same, live⟩
    have leaves := start.run bound kind container (by omega) (fun i passed => reads.stores pushes) rounds
    refine ⟨leaves.live, _, stands', ?_, fun key other away held => ?_⟩
    · rw [Function.update_of_ne notReturn.symm, Function.update_self]
    · rw [Function.update_apply] at held
      split at held
      · cases held
        exact pushes.apart bound outside leaves.kept
      · obtain ⟨-, rfl⟩ := only key other away held
        exact pushes.apart bound outside fun _ _ same => same

/-- A container that the callee returned and that it did not receive is there
when the call returns. -/
theorem ExecutorRun.Reads.keeps (reads : run.Reads fnName) {e : Element}
    (container : run.invocation.fnInfo.returnType.isContainer = true) (returns : run.invocation.ReturnsObject e)
    (invoked : drpcServerInvokeFn call.memory (server.records run.record) run.arguments run.slots run.toRepack newDStruct =
      .ok result)
    (modified : dStructModify call.message (.ofString "arguments") (fun _ => .arguments result.arguments) = .ok message)
    (freed : dStructFree result.memory message = .ok arrival)
    (ran : drpcClientCallFinish contents arrival call.repackable ⟨.return, some result.returnMsg⟩ = .ok finish) :
    finish.memory.cells run.invocation.returned = some e := by
  obtain ⟨held, kind, apart⟩ := returns
  have outside := Invocation.pointers_apart reads.pointers apart
  have bound := Memory.lt_of_live held
  have returned : run.invocation.fnInfo.returnType.isReturned = true := by
    rw [DrpcTypes.isReturned, container]
    rfl
  have nonNull : run.invocation.returned ≠ 0 := Memory.ne_zero_of_live held
  have kept : result.memory.cells run.invocation.returned = some e :=
    (drpcServerInvokeFn_keeps run.called bound outside invoked).trans held
  have live := (reads.release outside invoked modified freed).trans kept
  obtain ⟨s, map, looped, -, -, fields, reply⟩ := drpcServerInvokeFn_return run.called returned nonNull invoked
  have marker : s.returnIs = -1 := by
    obtain ⟨-, same⟩ | ⟨n, ⟨⟨update, at_n, equal⟩, -⟩, -⟩ := repack_returnIs looped
    · exact same
    · exact absurd equal (outside update (List.mem_of_getElem? at_n))
  obtain ⟨-, field, made, stands⟩ | ⟨position, -⟩ := reply
  swap
  · exact absurd marker position
  obtain ⟨plain, -⟩ | ⟨-, pointer⟩ := made.cases
  · exact absurd (container.symm.trans plain) (by decide)
  obtain ⟨found, returnIs, message', last, final, got, read, repacked, unlinked, released, -⟩ :=
    drpcClientCallFinish_inv rfl rfl ran
  have unnamed : found = none := by
    obtain ⟨sent, get, same⟩ := bind_eq_ok.mp got
    cases same
    have absent : map (.ofString "return_is") = none := by
      rw [fields]
      exact if_neg fun both => absurd both.1 (by decide)
    rw [stands.get get, Function.update_of_ne (by decide), absent]
    rfl
  rw [unnamed, readReturnIs] at read
  cases read
  obtain ⟨there, map', stands', carried, others⟩ :=
    reads.rest container bound kind outside looped fields stands live repacked
  have typed : field.type ≠ DrpcTypes.dVoid.toChar := by
    intro void
    have same : run.invocation.fnInfo.returnType = .dVoid := DrpcTypes.toChar_injective (made.field_type.symm.trans void)
    rw [same] at container
    cases container
  obtain ⟨-, unlinkedStands⟩ := clientReturn_carried stands' carried typed unlinked
  have loose : (map' (.ofString "return")).any DStructElement.isPacked = false := by
    rw [carried, pointer]
    rfl
  rw [StructCall.apply, loose, if_neg Bool.false_ne_true] at unlinkedStands
  rw [dStructFree_keeps (fun key other member => ?_) released, there]
  obtain ⟨i, at_i⟩ := List.mem_iff_getElem?.mp member
  have held := unlinkedStands.wf.table.lookup_eq_some.mpr (mem_bindings_iff.mpr ⟨i, at_i⟩)
  rw [unlinkedStands.lookup, Function.update_apply] at held
  split at held
  · cases held
  · next away => exact others key other away held

/-- A returned object that the callee did not receive: the client has a copy of
a string, or the container itself, with its content. -/
theorem ExecutorRun.Reads.object (reads : run.Reads fnName) {e : Element}
    (returned : run.invocation.fnInfo.returnType.isReturned = true) (returns : run.invocation.ReturnsObject e)
    (invoked : drpcServerInvokeFn call.memory (server.records run.record) run.arguments run.slots run.toRepack newDStruct =
      .ok result)
    (modified : dStructModify call.message (.ofString "arguments") (fun _ => .arguments result.arguments) = .ok message)
    (freed : dStructFree result.memory message = .ok arrival)
    (ran : drpcClientCallFinish contents arrival call.repackable ⟨.return, some result.returnMsg⟩ = .ok finish) :
    ∃ field e', finish.nativeReturn = some field ∧ field.resolve finish.memory = .ok e' ∧ e'.value = e.value ∧
      ∀ passed ∈ call.repackable, field ≠ .pointer passed.type passed.ptr := by
  obtain ⟨held, kind, apart⟩ := returns
  have nonNull : run.invocation.returned ≠ 0 := Memory.ne_zero_of_live held
  have outside := Invocation.pointers_apart reads.pointers apart
  obtain ⟨n, ⟨⟨update, at_n, equal⟩, -⟩, -⟩ | ⟨-, field, made, set⟩ := reads.native returned nonNull invoked ran
  · exact absurd equal (outside update (List.mem_of_getElem? at_n))
  obtain ⟨-, content, rfl⟩ | ⟨container, rfl⟩ := made.cases
  · have kept := (drpcServerInvokeFn_keeps run.called (Memory.lt_of_live held) outside invoked).trans held
    refine ⟨_, _, set, rfl, made.content kept rfl, fun passed _ same => ?_⟩
    cases same
  · have live := reads.keeps container ⟨held, kind, apart⟩ invoked modified freed ran
    refine ⟨_, e, set, readObject_eq_ok.mpr ⟨live, kind⟩, rfl, fun passed member same => ?_⟩
    obtain ⟨r, there, type, -, own⟩ := forall₂_mem_right reads.answering member
    injection same with typed ptr
    have mine : r.ptr = passed.ptr := own (by rw [← typed]; exact container)
    exact outside r there (mine.trans ptr.symm)

end Returned

end DynamicRPC
