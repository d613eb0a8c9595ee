import DynamicRPC.CallVerdict
import DynamicRPC.ReplyRepack
import DynamicRPC.ReplySync

namespace DynamicRPC
open Outcome

/-- The run of a callee that a call message brings about over TCP: the message
as the server receives it in its memory, the slots that the function is given, and the memory
that it leaves. -/
structure CalleeRun (aes : Option Aes) (server : CallServer) (clientPerm : Int) (serverMemory : Memory Element)
    (call : ClientCall) where
  recv : DrpcMessage
  sent : drpcTcpSend aes call.memory ⟨.call, some call.message⟩ = .ok (some recv)
  memory : Memory Element
  received : MemoryMessage
  loaded : drpcTcpLoad (.ofString "arguments") serverMemory recv = .ok (memory, received)
  record : Nat
  arguments : DArray Argument
  slots : List FfiSlot
  toRepack : List DrpcTypeUpdate
  admitted : drpcAdmitCall server clientPerm received.message = .ok (.invoke record arguments slots toRepack)
  left : Memory Element
  nativeReturn : Nat
  called : (server.records record).fn slots memory = .ok (left, nativeReturn)

section Run
variable {aes : Option Aes} {server : CallServer} {clientPerm : Int} {serverMemory : Memory Element} {call : ClientCall}

def CalleeRun.fnInfo (run : CalleeRun aes server clientPerm serverMemory call) : DrpcFunction := server.records run.record

/-- The callee's pointer arguments in order. -/
def CalleeRun.pointers (run : CalleeRun aes server clientPerm serverMemory call) : List DrpcTypeUpdate :=
  calleePointers (run.fnInfo.prototype.getD []) run.slots

/-- A reply of the type `return` comes of a run of a callee. -/
theorem drpcTcpExchange_returned {exchange : TcpExchange}
    (exchanged : drpcTcpExchange aes server clientPerm serverMemory call = .ok (some exchange))
    (returned : exchange.recv.messageType = .return) :
    ∃ (run : CalleeRun aes server clientPerm serverMemory call) (result : CallResult) (recv : DrpcMessage),
      drpcServerInvokeFn run.memory run.fnInfo run.arguments run.slots run.toRepack newDStruct = .ok result ∧
      drpcTcpSend aes result.memory ⟨.return, some result.returnMsg⟩ = .ok (some recv) ∧
      drpcTcpLoad (.ofString "repacked_arguments") call.memory recv = .ok (exchange.memory, exchange.recv) := by
  obtain ⟨arrived, sent, ran⟩ := bind_eq_ok.mp exchanged
  cases arrived with
  | none => cases ran
  | some recv =>
    obtain ⟨⟨memory, received⟩, loaded, ran⟩ := bind_eq_ok.mp ran
    obtain ⟨handled, handles, ran⟩ := bind_eq_ok.mp ran
    obtain ⟨back, replied, ran⟩ := bind_eq_ok.mp ran
    cases back with
    | none => cases ran
    | some reply =>
      obtain ⟨⟨memory', got⟩, load, same⟩ := bind_eq_ok.mp ran
      cases same
      obtain ⟨message, carried⟩ : ∃ message, received.message = some message := by
        cases carried : received.message with
        | none =>
          rw [carried] at handles
          cases handles
        | some message => exact ⟨message, rfl⟩
      rw [carried, drpcHandleCall_eq] at handles
      obtain ⟨verdict, admitted, finished⟩ := bind_eq_ok.mp handles
      obtain ⟨type, handleRet, rfl, three⟩ | ⟨record, arguments, slots, toRepack, -, rfl, -⟩ :=
        drpcAdmitCall_inv admitted
      · cases finished
        have notReturn : DrpcProtocol.ofUInt8 type.toUInt8 ≠ .return := by
          obtain rfl | rfl | rfl := three <;> decide
        have type := (drpcTcpDeliver_arrives (fun d same => by cases same) replied).messageType
        cases payload : reply.message with
        | none =>
          rw [drpcTcpLoad, payload] at load
          cases load
          exact absurd (type.symm.trans returned) notReturn
        | some d =>
          rw [drpcTcpLoad, payload] at load
          obtain ⟨_, -, same⟩ := bind_eq_ok.mp load
          cases same
          exact absurd (type.symm.trans returned) notReturn
      · obtain ⟨result, invoked, finished⟩ := bind_eq_ok.mp finished
        obtain ⟨received', -, same⟩ := bind_eq_ok.mp finished
        cases same
        rw [← carried] at admitted
        obtain ⟨⟨left, nativeReturn⟩, called, -⟩ := bind_eq_ok.mp invoked
        exact ⟨⟨recv, sent, memory, received, loaded, record, arguments, slots, toRepack, admitted, left, nativeReturn,
          called⟩, result, reply, invoked, replied, load⟩

end Run

theorem Updated.fits {e e' : Element} (updated : Updated e e') : e.value.Fits e'.value := by
  cases updated with
  | str terminated shorter => exact shorter
  | sizedbuf length => exact length
  | _ => trivial

/-- What an honest callee leaves behind a pointer argument can be read as the
argument could, and fits where it was. -/
theorem Argument.Repacks.updated {memory left : Memory Element} {argument : Argument} {update : DrpcTypeUpdate}
    (repacks : argument.Repacks update) (placed : argument.Placed memory)
    (changed : ∀ e, memory.cells update.ptr = some e → ∃ e', left.cells update.ptr = some e' ∧ Updated e e') :
    ∃ v v', update.view memory = (update.type.toChar, .ok v) ∧ update.view left = (update.type.toChar, .ok v') ∧
      v.Fits v' := by
  have looks := repacks.view memory
  obtain ⟨len, held, rfl, length⟩ := repacks
  obtain ⟨e, live, -, same, whole, read⟩ := placed.resolve
  obtain ⟨e', there, updated⟩ := changed e live
  refine ⟨e.value, e'.value, ?_, DrpcTypeUpdate.view_eq_ok.mpr ⟨e', ?_, rfl⟩, updated.fits⟩
  · rw [← looks, Argument.view]
    exact congrArg (fun ran : Outcome Element => (update.type.toChar, ran.map Element.value)) read
  · refine readArgument_whole there (updated.type.trans same) fun block buffer => ?_
    subst buffer
    cases updated with
    | sizedbuf size =>
      have buffer : DrpcTypes.dSizedbuf = update.type := DrpcTypes.toChar_injective same
      rw [length buffer.symm, whole _ rfl, size]

theorem forall₂_repacks_address {arguments : List Argument} {toRepack : List DrpcTypeUpdate}
    (repacks : List.Forall₂ Argument.Repacks arguments toRepack) :
    arguments.filterMap Argument.address = toRepack.map DrpcTypeUpdate.ptr := by
  induction repacks with
  | nil => rfl
  | cons here _ ih => rw [List.filterMap_cons_some here.address, List.map_cons, ih]

theorem forall₂_repacks_view {arguments : List Argument} {toRepack : List DrpcTypeUpdate} (memory : Memory Element)
    (repacks : List.Forall₂ Argument.Repacks arguments toRepack) :
    arguments.map (Argument.view memory) = toRepack.map (DrpcTypeUpdate.view memory) := by
  induction repacks with
  | nil => rfl
  | cons here _ ih => rw [List.map_cons, List.map_cons, here.view, ih]

/-- The callee's pointers as its server repacks them: they lead to what the
caller passed, and after the run to what the callee left. -/
structure CalleeRun.Serves {aes : Option Aes} {server : CallServer} {clientPerm : Int} {serverMemory : Memory Element}
    {call : ClientCall} (run : CalleeRun aes server clientPerm serverMemory call) (memory : Memory Element) : Prop where
  incoming : run.toRepack.map (DrpcTypeUpdate.view run.memory) = call.repackable.map (DrpcTypeUpdate.view memory)
  pointers : run.pointers = run.toRepack.map fun update => { update with index := 0 }
  repackable : Repackable run.left run.toRepack
  small : run.toRepack.length < 2 ^ 61
  objects : ObjectsWf run.left
  updated : ∀ update ∈ run.toRepack, ∃ v v', update.view run.memory = (update.type.toChar, .ok v) ∧
    update.view run.left = (update.type.toChar, .ok v') ∧ v.Fits v'

section Serve
variable {aes : Option Aes} {server : CallServer} {clientPerm : Int} {memory serverMemory : Memory Element}
  {fromDouble : Nat → Nat} {fnName : CString} {prototype : List DrpcTypes} {varargs : List Nat} {call : ClientCall}

theorem CalleeRun.serves (run : CalleeRun aes server clientPerm serverMemory call)
    (honest : ∀ record, (server.records record).Honest) (objects : ObjectsWf memory) (serverObjects : ObjectsWf serverMemory)
    (fits : prototype.length < 2 ^ 61) (owned : ∀ passed ∈ call.repackable, (memory.cells passed.ptr).isSome)
    (built : drpcClientCallMessage fromDouble memory fnName prototype varargs = .ok call) : run.Serves memory := by
  obtain ⟨arguments, filled, -, -, -, -, passed⟩ := drpcClientCallMessage_passes objects fits owned built
  have carried : call.message.hashtable.lookup (.ofString "arguments") = some (.arguments arguments) := by
    rw [filled.lookup]
    rfl
  have good := drpcClientCallMessage_good objects fits owned built
  obtain ⟨message, loaded, received, arrived⟩ := drpcTcpSend_arrives filled.wf good carried run.sent run.loaded
  have admitted := run.admitted
  rw [received] at admitted
  obtain ⟨_, _, same, -⟩ | ⟨_, _, _, _, _, same, -, -, -, carries, ready⟩ := drpcAdmitCall_inv admitted
  · cases same
  cases same
  have given : run.arguments = loaded := carries.unique arrived.get
  rw [given] at ready
  obtain ⟨repacks, addresses⟩ := drpcServerPrepareFn_pointers arrived.wf ready
  obtain ⟨-, -, accepts, walked⟩ := drpcServerPrepareFn_spec ready
  have incomingObjects := arrived.objects serverObjects
  have each : ∀ update ∈ run.toRepack, ∃ argument ∈ loaded.pointers, argument.Repacks update :=
    fun update member => forall₂_mem_right repacks member
  have changed : ∀ update ∈ run.toRepack, ∀ e, run.memory.cells update.ptr = some e →
      ∃ e', run.left.cells update.ptr = some e' ∧ Updated e e' := by
    intro update member e live
    refine (honest run.record).passed _ _ _ _ update.ptr e run.called incomingObjects ?_ live
    rw [addresses]
    exact List.mem_map_of_mem member
  refine ⟨?_, ffiFromDrpc_calleePointers accepts walked, ⟨fun update member => ?_, fun update member => ?_, ?_⟩,
    ?_, (honest run.record).objects _ _ _ _ run.called incomingObjects, fun update member => ?_⟩
  · rw [← forall₂_repacks_view run.memory repacks, DArray.pointers_views arrived.views, passed]
  · obtain ⟨argument, inside, one⟩ := each update member
    obtain ⟨len, held, rfl, -⟩ := one
    obtain ⟨e, live, -⟩ := (arrived.placed _ (List.mem_of_mem_filter inside)).resolve
    obtain ⟨e', there, -⟩ := changed update member e live
    rw [there]
    rfl
  · obtain ⟨argument, -, one⟩ := each update member
    exact one.pointer
  · rw [← forall₂_repacks_address repacks]
    exact arrived.distinct.sublist (List.filter_sublist.filterMap Argument.address)
  · calc run.toRepack.length = loaded.pointers.length := repacks.length_eq.symm
      _ ≤ loaded.elements.length := List.length_filter_le _ _
      _ ≤ loaded.lookupSize := List.length_filterMap_le _ _
      _ < 2 ^ 61 := arrived.wf.allocated
  · obtain ⟨argument, inside, one⟩ := each update member
    exact one.updated (arrived.placed _ (List.mem_of_mem_filter inside)) (changed update member)

end Serve

theorem getElem?_of_map_eq {α β γ : Type} {f : α → γ} {g : β → γ} {as : List α} {bs : List β}
    (same : as.map f = bs.map g) {i : Nat} {b : β} (at_i : bs[i]? = some b) : ∃ a, as[i]? = some a ∧ f a = g b := by
  have here := congrArg (·[i]?) same
  simp only [List.getElem?_map, at_i, Option.map_some] at here
  exact Option.map_eq_some_iff.mp here

theorem index_of_filterMap_nodup {α β : Type} {f : α → Option β} {list : List α} (nodup : (list.filterMap f).Nodup)
    {i j : Nat} {a a' : α} {b : β} (at_i : list[i]? = some a) (at_j : list[j]? = some a') (found : f a = some b)
    (found' : f a' = some b) : i = j := by
  have apart := List.pairwise_iff_getElem.mp (List.pairwise_filterMap.mp nodup)
  obtain ⟨boundI, rfl⟩ := List.getElem?_eq_some_iff.mp at_i
  obtain ⟨boundJ, rfl⟩ := List.getElem?_eq_some_iff.mp at_j
  obtain before | same | after := Nat.lt_trichotomy i j
  · exact absurd rfl (apart i j boundI boundJ before b found b found')
  · exact same
  · exact absurd rfl (apart j i boundJ boundI after b found' b found)

section Reply
variable {aes : Option Aes} {server : CallServer} {clientPerm : Int} {contents : Contents}
  {memory serverMemory sender arrival : Memory Element} {call : ClientCall} {run : CalleeRun aes server clientPerm serverMemory call} {key : CString}
  {repacked loaded : DArray Argument} {message : DStruct Field}

theorem CalleeRun.Serves.count (serves : run.Serves memory) : run.toRepack.length = call.repackable.length := by
  have length := congrArg List.length serves.incoming
  rwa [List.length_map, List.length_map] at length

/-- At every index the reply has the argument that stands for what the callee
left behind the pointer that was passed there. -/
theorem CalleeRun.Serves.matched (serves : run.Serves memory)
    (arrived : Arrived key sender repacked call.memory arrival message loaded)
    (occupied : ∀ i, (repacked.lookup i).isSome ↔ i < run.toRepack.length)
    (views : repacked.elements.map (Argument.view sender) = run.toRepack.map (DrpcTypeUpdate.view run.left)) :
    loaded.realSize = call.repackable.length ∧ ∀ i update, call.repackable[i]? = some update →
      ∃ r ∈ run.toRepack, ∃ address len held, run.toRepack[i]? = some r ∧ r.view run.memory = update.view memory ∧
        loaded.lookup i = some (.pointer update.type address len held) ∧
        (Argument.pointer update.type address len held).view arrival = r.view run.left := by
  have count := serves.count
  obtain ⟨length, at_index⟩ := DArray.lookup_dense fun i => by rw [arrived.occupied i]; exact occupied i
  refine ⟨by rw [arrived.counted, length, count], fun i update at_i => ?_⟩
  obtain ⟨r, at_r, incoming⟩ := getElem?_of_map_eq serves.incoming at_i
  have member := List.mem_of_getElem? at_r
  obtain ⟨argument, at_argument, looks⟩ := getElem?_of_map_eq (arrived.views.trans views) at_r
  have type : r.type = update.type := DrpcTypes.toChar_injective (Prod.mk.inj incoming).1
  have stored : argument.type = r.type.toChar := (Prod.mk.inj looks).1
  cases argument with
  | packed stored' data scalar =>
    have pointer := serves.repackable.pointer r member
    rw [← isPointerChar_toChar, ← stored, Argument.type, scalar] at pointer
    cases pointer
  | pointer stored' address len held =>
    have same : stored' = update.type := (DrpcTypes.toChar_injective stored).trans type
    subst same
    exact ⟨r, member, address, len, held, at_r, incoming, (at_index i).trans at_argument, looks⟩

theorem CalleeRun.Serves.answers (serves : run.Serves memory) (grows : memory.Extends call.memory)
    (owned : ∀ passed ∈ call.repackable, (memory.cells passed.ptr).isSome)
    (held : ∀ passed ∈ call.repackable, ∀ address ∈ contents passed.ptr, (memory.cells address).isSome)
    (arrived : Arrived key sender repacked call.memory arrival message loaded)
    (occupied : ∀ i, (repacked.lookup i).isSome ↔ i < run.toRepack.length)
    (views : repacked.elements.map (Argument.view sender) = run.toRepack.map (DrpcTypeUpdate.view run.left)) :
    Answers contents arrival call.repackable loaded := by
  obtain ⟨-, matched⟩ := serves.matched arrived occupied views
  obtain ⟨-, at_index⟩ := DArray.lookup_dense fun i => by rw [arrived.occupied i]; exact occupied i
  have listed : ∀ i argument, loaded.lookup i = some argument → argument ∈ loaded.elements := fun i argument at_i =>
    List.mem_of_getElem? ((at_index i).symm.trans at_i)
  -- what is live in the caller's memory was there before the reply
  have old : ∀ address, (memory.cells address).isSome → ∀ i argument, loaded.lookup i = some argument →
      argument.address ≠ some address := by
    intro address alive i argument at_i points
    obtain ⟨object, live⟩ := Option.isSome_iff_exists.mp alive
    have before := (Memory.lt_of_live live).trans_le grows.next
    exact absurd before (not_lt.mpr (arrived.fresh _ (List.mem_filterMap.mpr ⟨argument, listed i argument at_i, points⟩)))
  refine ⟨fun i update at_i => ?_, fun i argument at_i => arrived.placed argument (listed i argument at_i),
    fun update member => old update.ptr (owned update member), fun i argument address at_i points update member inside => ?_,
    fun i j argument argument' address at_i at_j points points' => ?_, fun i update argument at_i at_argument => ?_⟩
  · obtain ⟨-, -, address, len, held, -, -, found, -⟩ := matched i update at_i
    exact ⟨address, len, held, found⟩
  · exact old address (held update member address inside) i argument at_i points
  · rw [at_index] at at_i at_j
    exact index_of_filterMap_nodup arrived.distinct at_i at_j points points'
  · obtain ⟨r, member, address, len, held, -, incoming, found, looks⟩ := matched i update at_i
    rw [found] at at_argument
    cases at_argument
    obtain ⟨v, v', before, after, fits⟩ := serves.updated r member
    have type : r.type.toChar = update.type.toChar := (Prod.mk.inj incoming).1
    refine ⟨v, v', ?_, ?_, fits⟩
    · have alive := owned update (List.mem_of_getElem? at_i)
      rw [DrpcTypeUpdate.view_extends (grows.trans arrived.grows) alive, ← incoming, before, type]
    · rw [looks, after, type]

end Reply

/-- The repacked arguments of a reply are as many as the passed pointers, in
their order and of their types. -/
def LinesUp (reply : DStruct Field) (repackable : List DrpcTypeUpdate) : Prop :=
  (repackable = [] ∧ dStructGet reply (.ofString "repacked_arguments") .dArray = .ok none) ∨
    ∃ repacked, dStructGet reply (.ofString "repacked_arguments") .dArray = .ok (some (.arguments repacked)) ∧
      dArrayLen repacked = repackable.length ∧
      ∀ i update, repackable[i]? = some update → dArrayGetType repacked i = .ok update.type.toChar

/-- The objects that were passed once, and in none of the containers that were passed, have the
content that the callee left in its pointer arguments at the same indices. -/
def Synchronised {aes : Option Aes} {server : CallServer} {clientPerm : Int} {serverMemory : Memory Element}
    {call : ClientCall} (contents : Contents) (run : CalleeRun aes server clientPerm serverMemory call)
    (memory : Memory Element) : Prop :=
  run.pointers.length = call.repackable.length ∧
    ∀ i passed, call.repackable[i]? = some passed → PassedOnce call.repackable i passed →
      Unheld contents call.repackable passed.ptr →
      ∃ pointer v, run.pointers[i]? = some pointer ∧ pointer.view run.left = (passed.type.toChar, .ok v) ∧
        passed.view memory = (passed.type.toChar, .ok v)

section Synchronise
variable {aes : Option Aes} {server : CallServer} {clientPerm : Int} {contents : Contents} {memory serverMemory arrival : Memory Element}
  {call : ClientCall} {run : CalleeRun aes server clientPerm serverMemory call} {result : CallResult} {recv : DrpcMessage}
  {got : MemoryMessage}

/-- What the client makes of the reply to a run of an honest callee. -/
theorem CalleeRun.Serves.synchronises (serves : run.Serves memory) (grows : memory.Extends call.memory)
    (owned : ∀ passed ∈ call.repackable, (memory.cells passed.ptr).isSome)
    (held : ∀ passed ∈ call.repackable, ∀ address ∈ contents passed.ptr, (memory.cells address).isSome)
    (invoked : drpcServerInvokeFn run.memory run.fnInfo run.arguments run.slots run.toRepack newDStruct = .ok result)
    (sent : drpcTcpSend aes result.memory ⟨.return, some result.returnMsg⟩ = .ok (some recv))
    (load : drpcTcpLoad (.ofString "repacked_arguments") call.memory recv = .ok (arrival, got)) :
    ∃ reply, got = ⟨.return, some reply⟩ ∧ LinesUp reply call.repackable ∧
      (∀ returnIs, Avoids .assertion (clientRepackAll contents arrival call.repackable reply returnIs)) ∧
      ∀ finish, drpcClientCallFinish contents arrival call.repackable got = .ok finish →
        Synchronised contents run finish.memory := by
  obtain ⟨repacked, holds, occupied, views⟩ :=
    drpcServerInvokeFn_reply run.called serves.objects serves.repackable serves.small invoked
  have good : ∀ key field, (key, field) ∈ result.returnMsg.hashtable.bindings → field.Good result.memory :=
    fun key field member => holds.good key field (holds.wf.table.lookup_eq_some.mpr member)
  have count := serves.count
  have pointers : run.pointers.length = call.repackable.length := by
    rw [serves.pointers, List.length_map, count]
  have carried := holds.repacked
  by_cases some_there : run.toRepack.length > 0
  · rw [if_pos some_there] at carried
    obtain ⟨reply, loaded, rfl, arrived⟩ := drpcTcpSend_arrives holds.wf good carried sent load
    have answers := serves.answers grows owned held arrived occupied views
    obtain ⟨length, matched⟩ := serves.matched arrived occupied views
    refine ⟨reply, rfl, .inr ⟨loaded, arrived.get, length, fun i update at_i => ?_⟩,
      fun returnIs => (clientRepackAll_answers arrived.wf length arrived.get answers).1, fun finish ran => ⟨pointers, ?_⟩⟩
    · obtain ⟨-, -, address, len, held, -, -, found, -⟩ := matched i update at_i
      rw [(arrived.wf.holds.reads i).1, found]
      rfl
    obtain ⟨-, returnIs, message, s, looped, kept⟩ := drpcClientCallFinish_returned rfl rfl ran
    obtain ⟨syncs, fields⟩ := (clientRepackAll_answers arrived.wf length arrived.get answers).2 message s looped
    intro i passed at_i once unheld
    obtain ⟨r, member, address, len, pointer, at_r, -, found, looks⟩ := matched i passed at_i
    have outside : ∀ n argument, loaded.lookup n = some argument → argument.address ≠ some passed.ptr :=
      answers.apart passed (List.mem_of_getElem? at_i)
    -- what the client releases at the end came with the reply
    have stays : passed.view finish.memory = passed.view s.memory := by
      refine DrpcTypeUpdate.view_congr (kept passed.ptr fun key field live inside => ?_)
      obtain before | rfl := fields key field live
      · obtain ⟨argument, here, points⟩ := List.mem_filterMap.mp (arrived.owns key field before inside)
        obtain ⟨n, at_n⟩ := DArray.lookup_of_mem here
        exact outside n argument at_n points
      · obtain ⟨argument, here, points⟩ := List.mem_filterMap.mp inside
        obtain ⟨n, at_n⟩ := DArray.lookup_of_mem here
        exact outside n argument (syncs.kept n argument at_n) points
    have bound := (List.getElem?_eq_some_iff.mp at_i).choose
    have equal := syncs.synced i bound passed _ at_i once unheld found
    obtain ⟨-, v, -, after, -⟩ := answers.fits i passed _ at_i found
    refine ⟨{ r with index := 0 }, v, ?_, ?_, ?_⟩
    · rw [serves.pointers, List.getElem?_map, at_r]
      rfl
    · exact looks.symm.trans after
    · rw [stays, equal, after]
  · rw [if_neg some_there] at carried
    obtain ⟨-, reply, rfl, absent, -⟩ := drpcTcpSend_absent holds.wf good carried sent load
    have none_passed : call.repackable = [] := List.eq_nil_of_length_eq_zero (by omega)
    refine ⟨reply, rfl, .inl ⟨none_passed, absent⟩, fun returnIs => ?_, fun finish ran => ⟨pointers, ?_⟩⟩
    · rw [clientRepackAll, absent]
      exact avoids_ok _
    · intro i passed at_i
      rw [none_passed] at at_i
      cases at_i

end Synchronise

section Call
variable {aes : Option Aes} {server : CallServer} {clientPerm : Int} {contents : Contents} {memory serverMemory : Memory Element}
  {fromDouble : Nat → Nat} {fnName : CString} {prototype : List DrpcTypes} {varargs : List Nat} {call : ClientCall}

/-- Only a reply of the type `return` makes the call return 0. -/
theorem drpcTcpCall_ok {finish : ClientFinish}
    (built : drpcClientCallMessage fromDouble memory fnName prototype varargs = .ok call)
    (ran : drpcTcpCall aes server clientPerm serverMemory fromDouble contents memory fnName prototype varargs = .ok finish)
    (zero : finish.ret = .ok) : ∃ exchange, drpcTcpExchange aes server clientPerm serverMemory call = .ok (some exchange) ∧
      exchange.recv.messageType = .return ∧
      drpcClientCallFinish contents exchange.memory call.repackable exchange.recv = .ok finish := by
  rw [drpcTcpCall, built, ok_bind] at ran
  obtain ⟨found, exchanged, ran⟩ := bind_eq_ok.mp ran
  cases found with
  | none =>
    cases ran
    cases zero
  | some exchange =>
    refine ⟨exchange, exchanged, ?_, ran⟩
    by_contra other
    dsimp only at ran
    rw [drpcClientCallFinish, if_pos other] at ran
    split at ran
    · cases ran
      cases zero
    · obtain ⟨memory', -, same⟩ := bind_eq_ok.mp ran
      cases same
      cases zero

/-- With callees that keep to their contract, a reply of the type `return` has
a repacked argument for every passed pointer, in order and of its type, so no
assertion on them fails; and when the call returns 0, every object that the
caller passed once, and not inside another one, holds what the callee left in its own pointer
argument. The bound is the one on a table of pointers that can be allocated. -/
theorem drpcTcpCall_synchronises (honest : ∀ record, (server.records record).Honest) (objects : ObjectsWf memory)
    (serverObjects : ObjectsWf serverMemory) (fits : prototype.length < 2 ^ 61)
    (built : drpcClientCallMessage fromDouble memory fnName prototype varargs = .ok call)
    (owned : ∀ passed ∈ call.repackable, (memory.cells passed.ptr).isSome)
    (held : ∀ passed ∈ call.repackable, ∀ address ∈ contents passed.ptr, (memory.cells address).isSome) :
    (∀ exchange, drpcTcpExchange aes server clientPerm serverMemory call = .ok (some exchange) →
      exchange.recv.messageType = .return → ∃ reply, exchange.recv.message = some reply ∧ LinesUp reply call.repackable ∧
        ∀ returnIs, Avoids .assertion (clientRepackAll contents exchange.memory call.repackable reply returnIs)) ∧
      ∀ finish, drpcTcpCall aes server clientPerm serverMemory fromDouble contents memory fnName prototype varargs = .ok finish →
        finish.ret = .ok →
          ∃ run : CalleeRun aes server clientPerm serverMemory call, Synchronised contents run finish.memory := by
  have grows : memory.Extends call.memory := by
    obtain ⟨-, -, -, grows, -⟩ := drpcClientCallMessage_passes objects fits owned built
    exact grows
  refine ⟨fun exchange exchanged returned => ?_, fun finish ran zero => ?_⟩
  · obtain ⟨run, result, recv, invoked, sent, load⟩ := drpcTcpExchange_returned exchanged returned
    obtain ⟨reply, got, lines, avoids, -⟩ :=
      (run.serves honest objects serverObjects fits owned built).synchronises grows owned held invoked sent load
    exact ⟨reply, congrArg MemoryMessage.message got, lines, avoids⟩
  · obtain ⟨exchange, exchanged, returned, ran⟩ := drpcTcpCall_ok built ran zero
    obtain ⟨run, result, recv, invoked, sent, load⟩ := drpcTcpExchange_returned exchanged returned
    obtain ⟨-, -, -, -, synchronised⟩ :=
      (run.serves honest objects serverObjects fits owned built).synchronises grows owned held invoked sent load
    exact ⟨run, synchronised finish ran⟩

end Call

/-- A function that fills its first buffer with ones. -/
def fillFirst : DrpcFunction where
  prototype := some [.dSizedbuf, .dSizedbuf]
  returnType := .dVoid
  minimalPermissionLevel := 0
  fn := fun slots memory =>
    match slots.filterMap FfiSlot.address with
    | [] => pure (memory, 0)
    | address :: _ => do
      let object ← memory.read address
      match object with
      | .sizedbuf block => do
        let memory ← memory.write address (.sizedbuf (block.map fun _ => 1))
        pure (memory, 0)
      | _ => pure (memory, 0)

/-- A server with one function. -/
def fillServer : CallServer := ⟨⟨1, [.null, .null, .null, .live (.ofString "f") 0]⟩, fun _ => fillFirst⟩

theorem Updated.refl {e : Element} (wf : e.Wf) : Updated e e := by
  cases wf with
  | packed sized => exact .packed _ _
  | str terminated => exact .str terminated le_rfl
  | sizedbuf => exact .sizedbuf rfl
  | _ => constructor

theorem fillFirst_fn {slots : List FfiSlot} {memory left : Memory Element} {nativeReturn : Nat}
    (called : fillFirst.fn slots memory = .ok (left, nativeReturn)) : left = memory ∨
    ∃ address block, memory.cells address = some (.sizedbuf block) ∧
      left.cells = Function.update memory.cells address (some (.sizedbuf (block.map fun _ => 1))) := by
  unfold fillFirst at called
  dsimp only at called
  split at called
  · cases called
    exact .inl rfl
  · next address rest found =>
    obtain ⟨object, read, called⟩ := bind_eq_ok.mp called
    split at called
    · next block =>
      obtain ⟨written, write, same⟩ := bind_eq_ok.mp called
      cases same
      exact .inr ⟨address, block, Memory.read_eq_ok.mp read, (Memory.write_eq_ok.mp write).2.1⟩
    · cases called
      exact .inl rfl

theorem fillFirst_honest : fillFirst.Honest where
  passed := by
    intro slots memory left nativeReturn address e called objects inside live
    obtain rfl | ⟨other, block, held, cells⟩ := fillFirst_fn called
    · exact ⟨e, live, .refl (objects address e live)⟩
    · rw [cells, Function.update_apply]
      by_cases here : address = other
      · rw [here, held] at live
        cases live
        exact ⟨_, if_pos here, .sizedbuf (List.length_map _)⟩
      · rw [if_neg here]
        exact ⟨e, live, .refl (objects address e live)⟩
  objects := by
    intro slots memory left nativeReturn called objects
    obtain rfl | ⟨other, block, held, cells⟩ := fillFirst_fn called
    · exact objects
    · refine objects.update (fun e same => ?_) cells
      cases same
      exact .sizedbuf

/-- A memory with two buffers of one byte. -/
def bufferMemory : Memory Element := ((Memory.empty.alloc (.sizedbuf [5])).2.alloc (.sizedbuf [7])).2

theorem bufferMemory_wf : ObjectsWf bufferMemory := by
  have empty : ObjectsWf (Memory.empty : Memory Element) := fun address e live => by cases live
  exact (empty.alloc .sizedbuf).alloc .sizedbuf

theorem drpcTcpCall_synchronises_buffers : ∃ call finish,
    drpcClientCallMessage id bufferMemory (.ofString "f") [.dSizedbuf, .dSizedbuf] [1, 1, 2, 1] = .ok call ∧
    drpcTcpCall none fillServer (-1) Memory.empty id noContents bufferMemory (.ofString "f") [.dSizedbuf, .dSizedbuf] [1, 1, 2, 1] =
      .ok finish ∧ finish.ret = .ok ∧
    ∃ run : CalleeRun none fillServer (-1) Memory.empty call, Synchronised noContents run finish.memory := by
  have run : (do
      let call ← drpcClientCallMessage id bufferMemory (.ofString "f") [.dSizedbuf, .dSizedbuf] [1, 1, 2, 1]
      let finish ← drpcTcpCall none fillServer (-1) Memory.empty id noContents bufferMemory (.ofString "f")
        [.dSizedbuf, .dSizedbuf] [1, 1, 2, 1]
      pure (call.repackable.map DrpcTypeUpdate.ptr, finish.ret)) = .ok ([1, 2], .ok) := by decide +kernel
  obtain ⟨call, built, run⟩ := bind_eq_ok.mp run
  obtain ⟨finish, called, same⟩ := bind_eq_ok.mp run
  obtain ⟨pointers, zero⟩ := Prod.mk.inj (Except.ok.inj same)
  have owned : ∀ passed ∈ call.repackable, (bufferMemory.cells passed.ptr).isSome := by
    intro passed member
    have inside := List.mem_map_of_mem (f := DrpcTypeUpdate.ptr) member
    rw [pointers] at inside
    simp only [List.mem_cons, List.not_mem_nil, or_false] at inside
    obtain here | here := inside <;> rw [here] <;> decide
  have empty : ObjectsWf (Memory.empty : Memory Element) := fun address e live => by cases live
  exact ⟨call, finish, built, called, zero, (drpcTcpCall_synchronises (fun _ => fillFirst_honest) bufferMemory_wf empty
    (by decide) built owned fun _ _ _ inside => absurd inside List.not_mem_nil).2 finish called zero⟩

/-- The bytes behind a pointer to a buffer. -/
def DrpcTypeUpdate.buffer (memory : Memory Element) (update : DrpcTypeUpdate) : List UInt8 :=
  match (update.view memory).2 with
  | .ok (.sizedbuf block) => block
  | _ => []

/-- The buffers that the callee of a call leaves behind its pointers. -/
def calleeBuffers (aes : Option Aes) (server : CallServer) (clientPerm : Int) (serverMemory : Memory Element)
    (call : ClientCall) : Outcome (List (List UInt8)) := do
  let sent ← drpcTcpSend aes call.memory ⟨.call, some call.message⟩
  match sent with
  | none => .error .outside
  | some recv => do
    let (memory, received) ← drpcTcpLoad (.ofString "arguments") serverMemory recv
    let verdict ← drpcAdmitCall server clientPerm received.message
    match verdict with
    | .refuse _ _ => .error .outside
    | .invoke record _ slots _ => do
      let fnInfo := server.records record
      let (left, _) ← fnInfo.fn slots memory
      pure ((calleePointers (fnInfo.prototype.getD []) slots).map (DrpcTypeUpdate.buffer left))

theorem CalleeRun.buffers {aes : Option Aes} {server : CallServer} {clientPerm : Int} {serverMemory : Memory Element}
    {call : ClientCall} (run : CalleeRun aes server clientPerm serverMemory call) :
    calleeBuffers aes server clientPerm serverMemory call = .ok (run.pointers.map (DrpcTypeUpdate.buffer run.left)) := by
  rw [calleeBuffers, run.sent, ok_bind]
  dsimp only
  rw [run.loaded, ok_bind]
  dsimp only
  rw [run.admitted, ok_bind]
  dsimp only
  rw [run.called]
  rfl

/-- A buffer that is passed twice: the callee has two copies of it and leaves
different bytes in them, and the caller finds those of the last. -/
theorem drpcTcpCall_sharedBuffer : (∀ record, (fillServer.records record).Honest) ∧ ObjectsWf bufferMemory ∧ ∃ call finish,
    drpcClientCallMessage id bufferMemory (.ofString "f") [.dSizedbuf, .dSizedbuf] [1, 1, 1, 1] = .ok call ∧
    drpcTcpCall none fillServer (-1) Memory.empty id noContents bufferMemory (.ofString "f") [.dSizedbuf, .dSizedbuf] [1, 1, 1, 1] =
      .ok finish ∧ finish.ret = .ok ∧
    ∀ run : CalleeRun none fillServer (-1) Memory.empty call, ¬ ∀ (i : Nat) passed, call.repackable[i]? = some passed →
      ∃ pointer, run.pointers[i]? = some pointer ∧ passed.view finish.memory = pointer.view run.left := by
  have ran : (do
      let call ← drpcClientCallMessage id bufferMemory (.ofString "f") [.dSizedbuf, .dSizedbuf] [1, 1, 1, 1]
      let finish ← drpcTcpCall none fillServer (-1) Memory.empty id noContents bufferMemory (.ofString "f")
        [.dSizedbuf, .dSizedbuf] [1, 1, 1, 1]
      let left ← calleeBuffers none fillServer (-1) Memory.empty call
      pure (call.repackable.map (DrpcTypeUpdate.buffer finish.memory), left, finish.ret)) =
      .ok ([[5], [5]], [[1], [5]], .ok) := by decide +kernel
  obtain ⟨call, built, ran⟩ := bind_eq_ok.mp ran
  obtain ⟨finish, called, ran⟩ := bind_eq_ok.mp ran
  obtain ⟨left, observed, same⟩ := bind_eq_ok.mp ran
  simp only [pure_eq_ok, Except.ok.injEq, Prod.mk.injEq] at same
  obtain ⟨buffers, rfl, zero⟩ := same
  refine ⟨fun _ => fillFirst_honest, bufferMemory_wf, call, finish, built, called, zero, fun run keeps => ?_⟩
  rw [run.buffers] at observed
  have first := congrArg (·[0]?) buffers
  have first' := congrArg (·[0]?) (Except.ok.inj observed)
  simp only [List.getElem?_map, List.getElem?_cons_zero] at first first'
  obtain ⟨passed, at_zero, bytes⟩ := Option.map_eq_some_iff.mp first
  obtain ⟨other, there, bytes'⟩ := Option.map_eq_some_iff.mp first'
  obtain ⟨pointer, here, looks⟩ := keeps 0 passed at_zero
  rw [there] at here
  cases here
  rw [DrpcTypeUpdate.buffer, looks] at bytes
  rw [DrpcTypeUpdate.buffer, bytes] at bytes'
  revert bytes'
  decide

end DynamicRPC
