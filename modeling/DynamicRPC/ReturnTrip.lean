import DynamicRPC.ReturnIs

namespace DynamicRPC
open Outcome

/-- A call of a function by the server: what the function is given, the memory that it leaves
and what it returns. -/
structure Invocation where
  fnInfo : DrpcFunction
  slots : List FfiSlot
  memory : Memory Element
  left : Memory Element
  returned : Nat
  called : fnInfo.fn slots memory = .ok (left, returned)

namespace Invocation

/-- The callee's pointer arguments in order. -/
def pointers (invocation : Invocation) : List DrpcTypeUpdate :=
  calleePointers (invocation.fnInfo.prototype.getD []) invocation.slots

/-- The callee returns the pointer that it received as its m-th pointer argument. -/
def ReturnsArgument (invocation : Invocation) (m : Nat) : Prop :=
  ∃ received, invocation.pointers[m]? = some received ∧ received.type = invocation.fnInfo.returnType ∧
    received.ptr = invocation.returned

/-- The callee returns a pointer that is none of its arguments and leads to an
object of the return type. -/
def ReturnsObject (invocation : Invocation) (e : Element) : Prop :=
  invocation.left.cells invocation.returned = some e ∧ e.type = invocation.fnInfo.returnType.toChar ∧
    ∀ received ∈ invocation.pointers, received.ptr ≠ invocation.returned

section Pointers
variable {invocation : Invocation} {toRepack : List DrpcTypeUpdate}
  (pointers : invocation.pointers = toRepack.map fun update => { update with index := 0 })
include pointers

/-- What the callee reads off its slots is what its server repacks. -/
theorem pointers_at {m : Nat} {received : DrpcTypeUpdate} (at_m : invocation.pointers[m]? = some received) :
    ∃ r, toRepack[m]? = some r ∧ r.type = received.type ∧ r.ptr = received.ptr := by
  rw [pointers, List.getElem?_map, Option.map_eq_some_iff] at at_m
  obtain ⟨r, at_r, rfl⟩ := at_m
  exact ⟨r, at_r, rfl, rfl⟩

theorem pointers_apart {address : Nat} (apart : ∀ received ∈ invocation.pointers, received.ptr ≠ address) :
    ∀ update ∈ toRepack, update.ptr ≠ address := by
  intro update member
  refine apart { update with index := 0 } ?_
  rw [pointers]
  exact List.mem_map_of_mem member

end Pointers

end Invocation

/-- The pointer at the position that a byte makes of the n-th one is the same as the m-th. -/
def Named (passed : List DrpcTypeUpdate) (m n : Nat) : Prop :=
  n % 256 < 128 ∧ ∃ mine other, passed[m]? = some mine ∧ passed[n % 256]? = some other ∧ other.type = mine.type ∧
    other.ptr = mine.ptr

theorem named_self {passed : List DrpcTypeUpdate} {m : Nat} (small : m < 128) (within : m < passed.length) :
    Named passed m m := by
  have same : m % 256 = m := Nat.mod_eq_of_lt (by omega)
  rw [Named, same]
  exact ⟨small, _, _, List.getElem?_eq_getElem within, List.getElem?_eq_getElem within, rfl, rfl⟩

/-- The client finds its own m-th pointer at the position. -/
theorem identified_iff {passed : List DrpcTypeUpdate} {mine : DrpcTypeUpdate} {m n : Nat} (at_m : passed[m]? = some mine)
    (returned : mine.type.isReturned = true) :
    identified passed (Int.bmod n 256) = some (.pointer mine.type mine.ptr) ↔ Named passed m n := by
  rw [bmod_byte, Named]
  by_cases small : n % 256 < 128
  · have position : ((n % 256 : Nat) : Int).toNat = n % 256 := Int.toNat_natCast _
    rw [if_pos small, identified, if_pos (Int.natCast_nonneg _), position, Option.map_eq_some_iff]
    constructor
    · rintro ⟨other, found, same⟩
      obtain ⟨there, -⟩ := Option.filter_eq_some_iff.mp found
      injection same with type ptr
      exact ⟨small, mine, other, at_m, there, type, ptr⟩
    · rintro ⟨-, found, other, again, there, type, ptr⟩
      rw [at_m] at again
      cases again
      refine ⟨other, Option.filter_eq_some_iff.mpr ⟨there, ?_⟩, by rw [type, ptr]⟩
      rw [type]
      exact returned
  · have negative : ¬ 0 ≤ ((n % 256 : Nat) : Int) - 256 := by omega
    rw [if_neg small, identified, if_neg negative]
    simp [small]

section Server
variable {memory : Memory Element} {fnInfo : DrpcFunction} {arguments : DArray Argument} {slots : List FfiSlot}
  {toRepack : List DrpcTypeUpdate} {result : CallResult} {left : Memory Element} {nativeReturn : Nat}

/-- The reply names the last position of a returned argument, unless it is the
marker; else it carries what the returned pointer leads to. -/
theorem drpcServerInvokeFn_named (called : fnInfo.fn slots memory = .ok (left, nativeReturn))
    (returned : fnInfo.returnType.isReturned = true) (nonNull : nativeReturn ≠ 0)
    (ran : drpcServerInvokeFn memory fnInfo arguments slots toRepack newDStruct = .ok result) :
    (∃ n, LastAt toRepack nativeReturn n ∧ n % 256 ≠ 255 ∧
        result.returnMsg.hashtable.lookup (.ofString "return_is") = some (returnIsField (Int.bmod n 256))) ∨
      ((∀ update ∈ toRepack, update.ptr ≠ nativeReturn) ∨
          ∃ n, LastAt toRepack nativeReturn n ∧ n % 256 = 255) ∧
        result.returnMsg.hashtable.lookup (.ofString "return_is") = none ∧
        ∃ field, ReturnField result.memory fnInfo.returnType nativeReturn field ∧
          result.returnMsg.hashtable.lookup (.ofString "return") = some field := by
  obtain ⟨s, map, looped, memory', -, fields, reply⟩ := drpcServerInvokeFn_return called returned nonNull ran
  have unnamed : map (.ofString "return_is") = none := by
    rw [fields]
    exact if_neg fun both => absurd both.1 (by decide)
  have position := repack_returnIs looped
  obtain ⟨marked, field, made, stands⟩ | ⟨positioned, stands⟩ := reply
  · refine .inr ⟨?_, ?_, field, memory' ▸ made, ?_⟩
    · obtain ⟨absent, -⟩ | ⟨n, last, set⟩ := position
      · exact .inl absent
      · rw [Nat.zero_add] at set
        exact .inr ⟨n, last, (bmod_byte_marker n).mp (set.symm.trans marked)⟩
    · rw [stands.lookup, Function.update_of_ne (by decide), unnamed]
    · rw [stands.lookup, Function.update_self]
  · obtain ⟨-, same⟩ | ⟨n, last, set⟩ := position
    · exact absurd same positioned
    · rw [Nat.zero_add] at set
      refine .inl ⟨n, last, fun full => positioned (set.trans ((bmod_byte_marker n).mpr full)), ?_⟩
      rw [stands.lookup, Function.update_self, set]

/-- The object that the callee returns stays as it is while the arguments are repacked. -/
theorem drpcServerInvokeFn_keeps {address : Nat} (called : fnInfo.fn slots memory = .ok (left, nativeReturn))
    (bound : address < left.next)
    (apart : ∀ update ∈ toRepack, update.ptr ≠ address)
    (ran : drpcServerInvokeFn memory fnInfo arguments slots toRepack newDStruct = .ok result) :
    result.memory.cells address = left.cells address := by
  rw [drpcServerInvokeFn, called, ok_bind] at ran
  obtain ⟨s, looped, ran⟩ := bind_eq_ok.mp ran
  obtain ⟨first, -, ran⟩ := bind_eq_ok.mp ran
  obtain ⟨last, -, same⟩ := bind_eq_ok.mp ran
  cases same
  exact repack_keeps bound apart looped

end Server

/-- The invocation of a run over TCP. -/
def CalleeRun.invocation {aes : Option Aes} {server : CallServer} {clientPerm : Int} {serverMemory : Memory Element}
    {call : ClientCall} (run : CalleeRun aes server clientPerm serverMemory call) : Invocation :=
  ⟨run.fnInfo, run.slots, run.memory, run.left, run.nativeReturn, run.called⟩

section Tcp
variable {aes : Option Aes} {server : CallServer} {clientPerm : Int} {contents : Contents} {memory serverMemory arrival : Memory Element}
  {call : ClientCall} {run : CalleeRun aes server clientPerm serverMemory call} {result : CallResult} {recv : DrpcMessage}
  {got : MemoryMessage} {finish : ClientFinish}

/-- A call message brings about one run at most. -/
theorem CalleeRun.unique (run other : CalleeRun aes server clientPerm serverMemory call) : other = run := by
  obtain ⟨recv, sent, memory, received, loaded, record, arguments, slots, toRepack, admitted, left, nativeReturn,
    called⟩ := run
  obtain ⟨recv', sent', memory', received', loaded', record', arguments', slots', toRepack', admitted', left', nativeReturn',
    called'⟩ := other
  rw [sent] at sent'
  cases sent'
  rw [loaded] at loaded'
  cases loaded'
  rw [admitted] at admitted'
  cases admitted'
  rw [called] at called'
  cases called'
  rfl

/-- What the client stores through `native_return` after a run whose callee
returned a pointer: its own pointer at the named position, or an element with
the content that the returned pointer leads to. -/
theorem CalleeRun.Serves.native (serves : run.Serves memory) (grows : memory.Extends call.memory)
    (owned : ∀ passed ∈ call.repackable, (memory.cells passed.ptr).isSome)
    (returned : run.fnInfo.returnType.isReturned = true) (nonNull : run.invocation.returned ≠ 0)
    (invoked : drpcServerInvokeFn run.memory run.fnInfo run.arguments run.slots run.toRepack newDStruct = .ok result)
    (sent : drpcTcpSend aes result.memory ⟨.return, some result.returnMsg⟩ = .ok (some recv))
    (load : drpcTcpLoad (.ofString "repacked_arguments") call.memory recv = .ok (arrival, got))
    (ran : drpcClientCallFinish contents arrival call.repackable got = .ok finish) :
    (∃ n, LastAt run.toRepack run.invocation.returned n ∧ n % 256 ≠ 255 ∧
        finish.nativeReturn = identified call.repackable (Int.bmod n 256)) ∨
      ((∀ update ∈ run.toRepack, update.ptr ≠ run.invocation.returned) ∨
          ∃ n, LastAt run.toRepack run.invocation.returned n ∧ n % 256 = 255) ∧
        ∃ field e e', ReturnField result.memory run.fnInfo.returnType run.invocation.returned field ∧
          field.resolve result.memory = .ok e ∧ finish.nativeReturn = some (.element e') ∧ e'.value = e.value := by
  have copies : ∀ passed ∈ call.repackable, ∀ address ∈ noContents passed.ptr, (memory.cells address).isSome :=
    fun _ _ _ inside => absurd inside List.not_mem_nil
  obtain ⟨reply, same, lines, -, -⟩ := serves.synchronises grows owned copies invoked sent load
  obtain ⟨repacked, holds, -, -⟩ := drpcServerInvokeFn_reply run.called serves.objects serves.repackable serves.small invoked
  have good : ∀ key field, (key, field) ∈ result.returnMsg.hashtable.bindings → field.Good result.memory :=
    fun key field member => holds.good key field (holds.wf.table.lookup_eq_some.mpr member)
  obtain ⟨message, map, arrived, stands, carried⟩ := drpcTcpSend_fields holds.wf good sent load
  rw [same] at arrived
  cases arrived
  rw [same] at ran
  have counted : call.repackable = [] ∨ ∃ repacked, map (.ofString "repacked_arguments") = some (.arguments repacked) ∧
      dArrayLen repacked = call.repackable.length := by
    obtain ⟨empty, -⟩ | ⟨repacked, get, length, -⟩ := lines
    · exact .inl empty
    · exact .inr ⟨repacked, (stands.get (dStructGet_some get).1).symm, length⟩
  obtain ⟨named, unnamed⟩ := drpcClientCallFinish_return stands counted ran
  obtain ⟨returnIs_absent, returnIs_there⟩ := carried (.ofString "return_is") (by decide)
  obtain ⟨-, return_there⟩ := carried (.ofString "return") (by decide)
  obtain ⟨n, last, position, sentPosition⟩ | ⟨where_, absent, field, made, sentReturn⟩ :=
    drpcServerInvokeFn_named run.called returned nonNull invoked
  · obtain ⟨e, e', resolved, found, value⟩ := returnIs_there _ sentPosition
    cases resolved
    rw [Element.value_scalar value] at found
    have proper : Int.bmod n 256 ≠ -1 := by
      rw [ne_eq, bmod_byte_marker]
      exact position
    exact .inl ⟨n, last, position, named _ _ found rfl (returnIsField_position n) proper⟩
  · obtain ⟨e, e', resolved, found, value⟩ := return_there field sentReturn
    have type : e'.type = run.fnInfo.returnType.toChar := by
      rw [← Element.value_type, value, Element.value_type, made.resolve_type resolved]
      rfl
    refine .inr ⟨where_, field, e, e', made, resolved, unnamed (returnIs_absent absent) _ found fun void => ?_, value⟩
    have same : run.fnInfo.returnType = .dVoid := DrpcTypes.toChar_injective (type.symm.trans void)
    rw [same] at returned
    cases returned

theorem CalleeRun.Serves.pointersOf (serves : run.Serves memory) :
    run.invocation.pointers = run.toRepack.map fun update => { update with index := 0 } :=
  serves.pointers

/-- A pointer that the callee received, with the one that the caller passed there. -/
theorem CalleeRun.Serves.received (serves : run.Serves memory) {m : Nat} {received : DrpcTypeUpdate}
    (at_m : run.invocation.pointers[m]? = some received) :
    ∃ r passed, run.toRepack[m]? = some r ∧ r.ptr = received.ptr ∧ call.repackable[m]? = some passed ∧
      passed.type = received.type := by
  obtain ⟨r, at_r, type, ptr⟩ := Invocation.pointers_at serves.pointersOf at_m
  obtain ⟨passed, at_passed, looks⟩ := getElem?_of_map_eq serves.incoming.symm at_r
  have passedType : passed.type = r.type := DrpcTypes.toChar_injective (Prod.mk.inj looks).1
  exact ⟨r, passed, at_r, ptr, at_passed, passedType.trans type⟩

/-- The return value of a run over TCP. -/
theorem CalleeRun.Serves.returns (serves : run.Serves memory) (grows : memory.Extends call.memory)
    (owned : ∀ passed ∈ call.repackable, (memory.cells passed.ptr).isSome)
    (returned : run.fnInfo.returnType.isReturned = true)
    (invoked : drpcServerInvokeFn run.memory run.fnInfo run.arguments run.slots run.toRepack newDStruct = .ok result)
    (sent : drpcTcpSend aes result.memory ⟨.return, some result.returnMsg⟩ = .ok (some recv))
    (load : drpcTcpLoad (.ofString "repacked_arguments") call.memory recv = .ok (arrival, got))
    (ran : drpcClientCallFinish contents arrival call.repackable got = .ok finish) :
    (∀ m, run.invocation.ReturnsArgument m → ∃ passed, call.repackable[m]? = some passed ∧
        passed.type = run.fnInfo.returnType ∧
        (finish.nativeReturn = some (.pointer passed.type passed.ptr) ↔ Named call.repackable m m)) ∧
      ∀ e, run.invocation.ReturnsObject e →
        ∃ e', finish.nativeReturn = some (.element e') ∧ e'.value = e.value := by
  refine ⟨fun m returns => ?_, fun e returns => ?_⟩
  · obtain ⟨received, at_m, type, same⟩ := returns
    obtain ⟨r, passed, at_r, ptr, at_passed, passedType⟩ := serves.received at_m
    have passedReturned : passed.type.isReturned = true := by
      rw [passedType, type]
      exact returned
    obtain ⟨object, held⟩ := Option.isSome_iff_exists.mp (serves.repackable.live r (List.mem_of_getElem? at_r))
    have only {n : Nat} (last : LastAt run.toRepack run.invocation.returned n) : n = m := by
      obtain ⟨⟨other, at_n, equal⟩, -⟩ := last
      refine index_of_filterMap_nodup (f := fun update : DrpcTypeUpdate => some update.ptr) ?_ at_n at_r rfl ?_
      · rw [List.filterMap_eq_map']
        exact serves.repackable.distinct
      · rw [ptr, same, equal]
    refine ⟨passed, at_passed, passedType.trans type, ?_⟩
    obtain ⟨n, last, -, set⟩ | ⟨absent | ⟨n, last, full⟩, field, e, e', -, -, set, -⟩ :=
      serves.native grows owned returned (by rw [← same, ← ptr]; exact Memory.ne_zero_of_live held) invoked sent load ran
    · rw [only last] at set
      rw [set, identified_iff at_passed passedReturned]
    · exact absurd (ptr.trans same) (absent r (List.mem_of_getElem? at_r))
    · rw [only last] at full
      rw [set, Named, full]
      simp
  · obtain ⟨held, type, apart⟩ := returns
    have outside := Invocation.pointers_apart serves.pointersOf apart
    obtain ⟨n, ⟨⟨update, at_n, equal⟩, -⟩, -, -⟩ | ⟨-, field, e', e'', made, resolved, set, value⟩ :=
      serves.native grows owned returned (Memory.ne_zero_of_live held) invoked sent load ran
    · exact absurd equal (outside update (List.mem_of_getElem? at_n))
    · have kept := drpcServerInvokeFn_keeps run.called (Memory.lt_of_live held) outside invoked
      exact ⟨e'', set, value.trans (made.content (kept.trans held) resolved)⟩

end Tcp

end DynamicRPC
