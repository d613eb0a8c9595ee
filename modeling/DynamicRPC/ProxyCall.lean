import DynamicRPC.CallVerdict

namespace DynamicRPC
open Outcome

/-- One `drpc_client_call_internal` on the destination: what it returns, what
it does to the memory and what it leaves in `generic_ret`. -/
structure ProxyAttempt where
  ret : DrpcClientErrors
  memory : Memory Element → Memory Element
  genericRet : Nat → Nat

/-- What a proxy function is registered with, what its attempts come to and
what `proxy_fail_handler` returns after each of them. -/
structure ProxyFunction where
  prototype : Option (List DrpcTypes)
  returnType : DrpcTypes
  minimalPermissionLevel : Int
  attempt : Nat → ProxyAttempt
  failHandler : Option (Nat → Int)

/-- What `drpc_proxy_impl` returns and leaves, with the number of attempts it made. -/
structure ProxyReturn where
  memory : Memory Element
  genericRet : Nat
  forceDisconnect : Bool
  attempts : Nat

/-- What an attempt comes to in a memory with what is in `generic_ret`: the value that
`drpc_client_call_internal` returns, the memory and `generic_ret` after it. -/
abbrev Attempting := Nat → Memory Element → Nat → Outcome (DrpcClientErrors × Memory Element × Nat)

/-- Attempts that come to what is given of them. -/
def madeAttempts (made : Nat → ProxyAttempt) : Attempting := fun i memory genericRet =>
  .ok ((made i).ret, (made i).memory memory, (made i).genericRet genericRet)

/-- `drpc_proxy_impl` from the attempt `i` on, for at most `fuel` attempts. -/
def drpcProxyRetry (attempt : Attempting) (failHandler : Option (Nat → Int)) :
    Nat → Nat → Memory Element → Nat → Outcome ProxyReturn
  | 0, _, _, _ => .error .diverges
  | fuel + 1, i, memory, genericRet => do
    let (ret, memory, genericRet) ← attempt i memory genericRet
    if ret ≠ .ok then
      match failHandler with
      | some handler =>
        if handler i = 0 then drpcProxyRetry attempt failHandler fuel (i + 1) memory genericRet
        else pure ⟨memory, genericRet, true, i + 1⟩
      | none => pure ⟨memory, genericRet, false, i + 1⟩
    else pure ⟨memory, genericRet, false, i + 1⟩

/-- `proxy_base_proto`. -/
def proxyBaseProto : List DrpcTypes := [.dFnstorage, .dClientinfo, .dFninfo]

/-- The prototype of a proxy function, after `drpc_proto_to_ffi` at its registration. -/
def proxyPrototype (prototype : List DrpcTypes) : List DrpcTypes :=
  drpcProtoToFfi (proxyBaseProto ++ drpcCreateClientPrototype prototype)

namespace ProxyFunction
variable (proxy : ProxyFunction)

/-- `drpc_proxy_impl` on attempts that come to what they come to. -/
def drpcProxyImpl (fuel i : Nat) (memory : Memory Element) (genericRet : Nat) : Outcome ProxyReturn :=
  drpcProxyRetry (madeAttempts proxy.attempt) proxy.failHandler fuel i memory genericRet

theorem drpcProxyImpl_succ (fuel i : Nat) (memory : Memory Element) (genericRet : Nat) :
    proxy.drpcProxyImpl (fuel + 1) i memory genericRet =
      if (proxy.attempt i).ret ≠ .ok then
        match proxy.failHandler with
        | some handler =>
          if handler i = 0 then
            proxy.drpcProxyImpl fuel (i + 1) ((proxy.attempt i).memory memory) ((proxy.attempt i).genericRet genericRet)
          else .ok ⟨(proxy.attempt i).memory memory, (proxy.attempt i).genericRet genericRet, true, i + 1⟩
        | none => .ok ⟨(proxy.attempt i).memory memory, (proxy.attempt i).genericRet genericRet, false, i + 1⟩
      else .ok ⟨(proxy.attempt i).memory memory, (proxy.attempt i).genericRet genericRet, false, i + 1⟩ := rfl

/-- The body that `ffi_call` enters. -/
def fn (fuel : Nat) (_ : List FfiSlot) (memory : Memory Element) : Outcome (Memory Element × Nat) := do
  let body ← proxy.drpcProxyImpl fuel 0 memory 0
  pure (body.memory, body.genericRet)

/-- The record of the function once it is registered. -/
def fnInfo (fuel : Nat) : DrpcFunction where
  prototype := proxy.prototype.map proxyPrototype
  returnType := proxy.returnType
  minimalPermissionLevel := proxy.minimalPermissionLevel
  fn := proxy.fn fuel

/-- The attempt fails and the fail handler asks for another one. -/
def Retries (i : Nat) : Prop :=
  (proxy.attempt i).ret ≠ .ok ∧ ∃ handler, proxy.failHandler = some handler ∧ handler i = 0

/-- After attempts that were all retried one fails, and there is no fail
handler or one that does not return 0. -/
def GivesUp : Prop :=
  ∃ i, (∀ j < i, proxy.Retries j) ∧ (proxy.attempt i).ret ≠ .ok ∧ ¬ proxy.Retries i

variable {proxy} {fuel i : Nat} {memory : Memory Element} {genericRet : Nat}

theorem drpcProxyImpl_retries (retries : proxy.Retries i) : proxy.drpcProxyImpl (fuel + 1) i memory genericRet =
    proxy.drpcProxyImpl fuel (i + 1) ((proxy.attempt i).memory memory) ((proxy.attempt i).genericRet genericRet) := by
  obtain ⟨fails, handler, installed, again⟩ := retries
  rw [drpcProxyImpl_succ, if_pos fails, installed]
  dsimp only
  rw [if_pos again]

theorem drpcProxyImpl_ends {body : ProxyReturn} (ends : ¬ proxy.Retries i)
    (ran : proxy.drpcProxyImpl (fuel + 1) i memory genericRet = .ok body) : body.attempts = i + 1 := by
  rw [drpcProxyImpl_succ] at ran
  split at ran
  · next fails =>
    split at ran
    · next handler installed =>
      rw [if_neg fun again => ends ⟨fails, handler, installed, again⟩] at ran
      cases ran
      rfl
    · cases ran
      rfl
  · cases ran
    rfl

/-- The body returns after the first attempt that is not retried. -/
theorem drpcProxyImpl_inv {body : ProxyReturn} (ran : proxy.drpcProxyImpl fuel i memory genericRet = .ok body) :
    ∃ last, i ≤ last ∧ body.attempts = last + 1 ∧ ¬ proxy.Retries last ∧ ∀ j, i ≤ j → j < last → proxy.Retries j := by
  induction fuel generalizing i memory genericRet with
  | zero => cases ran
  | succ fuel ih =>
    by_cases retries : proxy.Retries i
    · rw [drpcProxyImpl_retries retries] at ran
      obtain ⟨last, later, attempts, stops, before⟩ := ih ran
      refine ⟨last, by omega, attempts, stops, fun j from_i to_last => ?_⟩
      obtain rfl | beyond := Nat.eq_or_lt_of_le from_i
      · exact retries
      · exact before j beyond to_last
    · exact ⟨i, Nat.le_refl i, drpcProxyImpl_ends retries ran, retries, fun j from_i to_i => by omega⟩

/-- Where every attempt is retried the call does not end, and there is no reply. -/
theorem drpcProxyImpl_diverges (retries : ∀ i, proxy.Retries i) (fuel : Nat) (memory : Memory Element) :
    ¬ Returns (proxy.drpcProxyImpl fuel 0 memory 0) := by
  rintro ⟨body, ran⟩
  obtain ⟨last, -, -, stops, -⟩ := drpcProxyImpl_inv ran
  exact stops (retries last)

/-- A call that ends was executed, unless it was given up. -/
theorem executed_iff {body : ProxyReturn} (ran : proxy.drpcProxyImpl fuel 0 memory 0 = .ok body) :
    (∃ i < body.attempts, (proxy.attempt i).ret = .ok) ↔ ¬ proxy.GivesUp := by
  obtain ⟨last, -, attempts, stops, before⟩ := drpcProxyImpl_inv ran
  have retried : ∀ j < last, proxy.Retries j := fun j earlier => before j (Nat.zero_le j) earlier
  rw [attempts]
  constructor
  · rintro ⟨i, made, ok⟩ ⟨other, again, fails, given⟩
    have final : i = last := by
      by_contra different
      exact (retried i (by omega)).1 ok
    obtain earlier | rfl | later := Nat.lt_trichotomy other last
    · exact given (retried other earlier)
    · exact fails (final ▸ ok)
    · exact stops (again last later)
  · intro persists
    refine ⟨last, Nat.lt_succ_self last, ?_⟩
    by_contra fails
    exact persists ⟨last, retried, fails, stops⟩

end ProxyFunction

/-- The request passes the checks of the handler: `ffi_call` is reached. -/
def Payload.Reaches (payload : Payload) (clientPerm : Int) (fnInfo : DrpcFunction) : Prop :=
  permitted clientPerm fnInfo ∧ ∃ arguments, payload.Carries arguments ∧ TypesMatch arguments fnInfo

section Reply
variable {server : CallServer} {clientPerm : Int} {memory : Memory Element} {payload : Payload} {handled : HandledCall}
  {fnName : CString} {record : Nat}

/-- The handler replies `drpc_return` to the calls that reach their function and to no others. -/
theorem drpcHandleCall_return_iff (functionsOpen : server.functions.Open) (named : payload.Names fnName)
    (registered : server.functions.lookup fnName = some record)
    (ran : drpcHandleCall server clientPerm memory (some payload) = .ok handled) :
    handled.reply.messageType = .return ↔ payload.Reaches clientPerm (server.records record) := by
  rw [drpcHandleCall_eq] at ran
  obtain ⟨verdict, admitted, finished⟩ := bind_eq_ok.mp ran
  cases verdict with
  | refuse type handleRet =>
    cases finished
    have refusal := drpcAdmitCall_refuse admitted
    refine ⟨fun returned => ?_, ?_⟩
    · obtain rfl | rfl | rfl := refusal <;> cases returned
    · rintro ⟨allowed, arguments, carried, types⟩
      rw [drpcAdmitCall_request _ functionsOpen (named.request carried), registered] at admitted
      dsimp only at admitted
      rw [if_pos allowed, drpcServerPrepareFn_match types] at admitted
      obtain ⟨prepared, ready, same⟩ := bind_eq_ok.mp admitted
      obtain ⟨walked, -, some_prepared⟩ := bind_eq_ok.mp ready
      cases some_prepared
      cases same
  | invoke record' arguments slots toRepack =>
    obtain ⟨allowed, types, -, _, same, carried, other, named', found⟩ := drpcAdmitCall_invoke functionsOpen admitted
    cases same
    rw [named'.unique named, registered] at found
    cases found
    obtain ⟨result, -, finished⟩ := bind_eq_ok.mp finished
    obtain ⟨received, -, finished⟩ := bind_eq_ok.mp finished
    cases finished
    exact ⟨fun _ => ⟨allowed, arguments, carried, types⟩, fun _ => rfl⟩

end Reply

/-- The reply to a call of a proxy function is `drpc_return` only after one of
its attempts returned 0, if and only if the call does not reach the function or is not given up. -/
theorem proxyCall_executed_iff {server : CallServer} {clientPerm : Int} {memory : Memory Element} {payload : Payload}
    {handled : HandledCall} {fnName : CString} {record fuel : Nat} {proxy : ProxyFunction} {body : ProxyReturn}
    (functionsOpen : server.functions.Open) (named : payload.Names fnName)
    (found : server.functions.lookup fnName = some record)
    (registered : server.records record = proxy.fnInfo fuel)
    (ends : proxy.drpcProxyImpl fuel 0 memory 0 = .ok body)
    (ran : drpcHandleCall server clientPerm memory (some payload) = .ok handled) :
    (handled.reply.messageType = .return → ∃ i < body.attempts, (proxy.attempt i).ret = .ok) ↔
      (payload.Reaches clientPerm (proxy.fnInfo fuel) → ¬ proxy.GivesUp) := by
  rw [drpcHandleCall_return_iff functionsOpen named found ran, registered, ProxyFunction.executed_iff ends]

/-- A proxy function without arguments whose destination answers every attempt with `ret`. -/
def steadyProxy (ret : DrpcClientErrors) : ProxyFunction where
  prototype := some []
  returnType := .dVoid
  minimalPermissionLevel := 0
  attempt := fun _ => ⟨ret, id, id⟩
  failHandler := none

/-- A server on which `f` is such a function. -/
def steadyProxyServer (ret : DrpcClientErrors) : Outcome CallServer := do
  let functions ← hashtableSet hashtableCreate (.ofString "f") 0
  pure ⟨functions, fun _ => (steadyProxy ret).fnInfo 1⟩

/-- The fields of a call of `f` without arguments. -/
def steadyProxyCall : Outcome (DStruct Field) := do
  let fields ← dStructSet newDStruct (.ofString "fn_name") (.element (.element (.str (CString.ofString "f").block)))
  dStructSet fields (.ofString "arguments") (.element (.arguments (newDArray 0)))

/-- The call of `f` on this server gets its `drpc_return`. -/
theorem steadyProxy_returns (ret : DrpcClientErrors) :
    ∃ (server : CallServer) (payload : Payload) (handled : HandledCall), server.functions.Open ∧
      payload.Names (.ofString "f") ∧ server.functions.lookup (.ofString "f") = some 0 ∧
      server.records 0 = (steadyProxy ret).fnInfo 1 ∧
      drpcHandleCall server 1 .empty (some payload) = .ok handled ∧ handled.reply.messageType = .return := by
  obtain ⟨functions, stored, functionsOpen⟩ :=
    hashtableCreate_open.set_safe 0 (show hashtableSetSafe _ (.ofString "f") from .inr (.inr (by decide)))
  have server : steadyProxyServer ret =
      .ok ⟨functions, fun _ => (steadyProxy ret).fnInfo 1⟩ := by
    rw [steadyProxyServer, stored]
    rfl
  obtain ⟨one, first, filled⟩ := DStruct.Filled.start.set (.ofString "fn_name")
    (Field.element (.str (CString.ofString "f").block)) List.not_mem_nil
  obtain ⟨fields, second, filled⟩ := filled.set (.ofString "arguments") (Field.arguments (newDArray 0)) (by decide +kernel)
  have call : steadyProxyCall = .ok fields := by rw [steadyProxyCall, first, ok_bind, second]
  have evaluated : (do
      let server ← steadyProxyServer ret
      let fields ← steadyProxyCall
      let handled ← drpcHandleCall server 1 .empty (some fields)
      pure handled.reply.messageType) = .ok .return := by cases ret <;> decide +kernel
  have names : dStructGet fields (.ofString "fn_name") .dStr = .ok (some (.element (.str (CString.ofString "f").block))) :=
    dStructGet_of_get (filled.get _) rfl
  have looked : (do
      let functions ← hashtableSet hashtableCreate (.ofString "f") 0
      hashtableGet functions (.ofString "f")) = .ok (some 0) := by decide +kernel
  rw [server, call, ok_bind, ok_bind] at evaluated
  rw [stored, ok_bind, functionsOpen.get] at looked
  obtain ⟨handled, ran, returned⟩ := bind_eq_ok.mp evaluated
  exact ⟨_, fields, handled, functionsOpen, ⟨_, names, CString.read_block (.ofString "f")⟩, Except.ok.inj looked, rfl, ran,
    Except.ok.inj returned⟩

/-- A destination that answers: the call is executed. -/
theorem proxyCall_executed_iff_answered :
    ∃ (server : CallServer) (payload : Payload) (handled : HandledCall),
      drpcHandleCall server 1 .empty (some payload) = .ok handled ∧ handled.reply.messageType = .return ∧
      ((handled.reply.messageType = .return → ∃ i < 1, ((steadyProxy .ok).attempt i).ret = .ok) ↔
        (payload.Reaches 1 ((steadyProxy .ok).fnInfo 1) → ¬ (steadyProxy .ok).GivesUp)) := by
  obtain ⟨server, payload, handled, functionsOpen, named, found, registered, ran, returned⟩ := steadyProxy_returns .ok
  have ends : (steadyProxy .ok).drpcProxyImpl 1 0 .empty 0 = .ok ⟨.empty, 0, false, 1⟩ := rfl
  exact ⟨server, payload, handled, ran, returned,
    proxyCall_executed_iff functionsOpen named found registered ends ran⟩

/-- A destination that cannot be reached: the client gets `drpc_return` for a call that nobody executed. -/
theorem proxyCall_networkError :
    ¬ ∀ (server : CallServer) (clientPerm : Int) (memory : Memory Element) (payload : Payload) (handled : HandledCall)
      (fnName : CString) (record fuel : Nat) (proxy : ProxyFunction) (body : ProxyReturn), server.functions.Open →
      payload.Names fnName → server.functions.lookup fnName = some record →
      server.records record = proxy.fnInfo fuel →
      proxy.drpcProxyImpl fuel 0 memory 0 = .ok body →
      drpcHandleCall server clientPerm memory (some payload) = .ok handled →
      handled.reply.messageType = .return → ∃ i < body.attempts, (proxy.attempt i).ret = .ok := by
  intro executed
  obtain ⟨server, payload, handled, functionsOpen, named, found, registered, ran, returned⟩ :=
    steadyProxy_returns .enetwork
  obtain ⟨i, -, answered⟩ := executed server 1 .empty payload handled (.ofString "f") 0 1 (steadyProxy .enetwork)
    ⟨.empty, 0, false, 1⟩ functionsOpen named found registered rfl ran returned
  cases answered

end DynamicRPC
