import DynamicRPC.HashtableRuns
import DynamicRPC.CallRepack
import DynamicRPC.HandleCall

namespace DynamicRPC
open Outcome

/-- What `drpc_handle_call` comes to before `ffi_call`: a reply without a
payload and its return value, or the call of a function. -/
inductive CallVerdict
  | refuse (type : DrpcProtocol) (handleRet : Int)
  | invoke (record : Nat) (arguments : DArray Argument) (slots : List FfiSlot) (toRepack : List DrpcTypeUpdate)

/-- `none` is the return value 1 of `drpc_server_call_fn`. -/
def CallVerdict.ofPrepared (record : Nat) : Option (DArray Argument × List FfiSlot × List DrpcTypeUpdate) → CallVerdict
  | none => .refuse .bad 1
  | some (arguments, slots, toRepack) => .invoke record arguments slots toRepack

/-- The payload of a message in memory: any fields of any types. -/
abbrev Payload := DStruct Field

/-- What `drpc_handle_call` reads of its payload: the name of a function and the
array of arguments, where it has one. -/
def Payload.request (payload : Payload) : Outcome (Option (CString × Option (DArray Argument))) := do
  let found ← dStructGet payload (CString.ofString "fn_name") .dStr
  match found with
  | none => pure none
  | some name => do
    let fnName ← name.asStr
    let found ← dStructGet payload (CString.ofString "arguments") .dArray
    let arguments ← fieldArguments found
    pure (some (fnName, arguments))

/-- `drpc_handle_call` up to `ffi_call`. -/
def drpcAdmitCall (server : CallServer) (clientPerm : Int) (receivedMessage : Option Payload) : Outcome CallVerdict :=
  match receivedMessage with
  | none => .error .assertion
  | some received => do
    let request ← received.request
    match request with
    | none => pure (.refuse .bad 1)
    | some (fnName, arguments) => do
      let callFn ← hashtableGet server.functions fnName
      match callFn with
      | none => pure (.refuse .notfound 1)
      | some record =>
        if permitted clientPerm (server.records record) then do
          let prepared ← drpcServerPrepareFn arguments (server.records record)
          pure (.ofPrepared record prepared)
        else pure (.refuse .eperm 0)

/-- `drpc_handle_call` from `ffi_call` on. -/
def drpcFinishCall (server : CallServer) (memory : Memory Element) (received : DStruct Field) :
    CallVerdict → Outcome HandledCall
  | .refuse type handleRet => pure ⟨⟨type, none⟩, handleRet, received, memory, server.records⟩
  | .invoke record arguments slots toRepack => do
    let result ← drpcServerInvokeFn memory (server.records record) arguments slots toRepack newDStruct
    let received ← dStructModify received (CString.ofString "arguments") fun _ => .arguments result.arguments
    pure ⟨⟨.return, some result.returnMsg⟩, 0, received, result.memory,
      Function.update server.records record result.fnInfo⟩

theorem drpcHandleCall_eq (server : CallServer) (clientPerm : Int) (memory : Memory Element) (received : Payload) :
    drpcHandleCall server clientPerm memory (some received) =
      drpcAdmitCall server clientPerm (some received) >>= drpcFinishCall server memory received := by
  unfold drpcHandleCall drpcAdmitCall Payload.request
  dsimp only
  simp only [bind_assoc]
  refine bind_congr fun found => ?_
  cases found with
  | none => rfl
  | some name =>
    dsimp only
    simp only [bind_assoc]
    refine bind_congr fun fnName => bind_congr fun found => bind_congr fun arguments => ?_
    dsimp only [pure_eq_ok, ok_bind]
    rw [bind_assoc]
    refine bind_congr fun callFn => ?_
    cases callFn with
    | none => rfl
    | some record =>
      dsimp only
      split
      · rw [drpcServerCallFn, bind_assoc, bind_assoc]
        refine bind_congr fun prepared => ?_
        cases prepared with
        | none => rfl
        | some prepared =>
          obtain ⟨arguments, slots, toRepack⟩ := prepared
          dsimp only [pure_eq_ok, CallVerdict.ofPrepared]
          rw [bind_assoc]
          rfl
      · rfl

/-- The name of the function that a payload asks for. -/
def Payload.Names (payload : Payload) (fnName : CString) : Prop :=
  ∃ field, dStructGet payload (.ofString "fn_name") .dStr = .ok (some field) ∧ field.asStr = .ok fnName

/-- The arguments that a payload carries. -/
def Payload.Carries (payload : Payload) (arguments : DArray Argument) : Prop :=
  dStructGet payload (.ofString "arguments") .dArray = .ok (some (.arguments arguments))

/-- The types of the arguments are those of the client-visible prototype. -/
def TypesMatch (arguments : DArray Argument) (fnInfo : DrpcFunction) : Prop :=
  extractPrototype arguments = .ok ((drpcCreateClientPrototype (fnInfo.prototype.getD [])).map DrpcTypes.toChar)

/-- The types can be read, and so can the arguments themselves where the types are
those of the client-visible prototype: none is missing, and each scalar's record
holds the bytes of its type. -/
def CallableWith (fnInfo : DrpcFunction) (arguments : DArray Argument) : Prop :=
  Returns (extractPrototype arguments) ∧
    (TypesMatch arguments fnInfo → ∀ i < dArrayLen arguments, ReadableArgument arguments i)

/-- A call that the handler can answer: it has a payload with a name that ends,
where it is a string, and when it names a function that the client may call it has
an array of arguments that the function can be called with. -/
def Answerable (server : CallServer) (clientPerm : Int) (message : Option Payload) : Prop :=
  ∃ payload request, message = some payload ∧ payload.request = .ok request ∧ ∀ fnName given record,
    request = some (fnName, given) → server.functions.lookup fnName = some record →
    permitted clientPerm (server.records record) →
    ∃ arguments, given = some arguments ∧ CallableWith (server.records record) arguments

section Request
variable {payload : Payload} {fnName other : CString} {given : Option (DArray Argument)} {arguments : DArray Argument}

theorem fieldArguments_eq_some {found : Option Field} :
    fieldArguments found = .ok (some arguments) ↔ found = some (.arguments arguments) := by
  cases found with
  | none => simp [fieldArguments]
  | some field => cases field <;> simp [fieldArguments, Field.asArguments]

/-- What the parts of a request are. -/
theorem Payload.request_eq_some : payload.request = .ok (some (fnName, given)) ↔
    payload.Names fnName ∧ ∃ found, dStructGet payload (.ofString "arguments") .dArray = .ok found ∧
      fieldArguments found = .ok given := by
  constructor
  · intro ran
    obtain ⟨found, get, ran⟩ := bind_eq_ok.mp ran
    cases found with
    | none => cases ran
    | some name =>
      obtain ⟨fnName, read, ran⟩ := bind_eq_ok.mp ran
      obtain ⟨found, carried, ran⟩ := bind_eq_ok.mp ran
      obtain ⟨given, field, same⟩ := bind_eq_ok.mp ran
      cases same
      exact ⟨⟨name, get, read⟩, found, carried, field⟩
  · rintro ⟨⟨name, get, read⟩, found, carried, field⟩
    rw [request, get, ok_bind]
    dsimp only
    rw [read, ok_bind, carried, ok_bind, field]
    rfl

theorem Payload.Names.unique (named : payload.Names fnName) (again : payload.Names other) : fnName = other := by
  obtain ⟨field, get, read⟩ := named
  obtain ⟨_, get', read'⟩ := again
  rw [get] at get'
  cases get'
  rw [read] at read'
  exact Except.ok.inj read'

theorem Payload.Carries.unique {others : DArray Argument} (carried : payload.Carries arguments)
    (again : payload.Carries others) : arguments = others := by
  rw [Payload.Carries, carried] at again
  cases again
  rfl

theorem Payload.request_carries (asked : payload.request = .ok (some (fnName, given))) :
    given = some arguments ↔ payload.Carries arguments := by
  obtain ⟨-, found, get, field⟩ := request_eq_some.mp asked
  rw [Carries, get]
  constructor
  · rintro rfl
    rw [fieldArguments_eq_some.mp field]
  · intro carried
    rw [Except.ok.inj carried] at field
    exact (Except.ok.inj field).symm

/-- A payload that names a function and carries arguments asks for a call. -/
theorem Payload.Names.request (named : payload.Names fnName) (carried : payload.Carries arguments) :
    payload.request = .ok (some (fnName, some arguments)) :=
  request_eq_some.mpr ⟨named, _, carried, rfl⟩

end Request

section Prepare
variable {arguments : DArray Argument} {fnInfo : DrpcFunction}

theorem typesMatch_iff : TypesMatch arguments fnInfo ↔ ∃ types, extractPrototype arguments = .ok types ∧
    isArgumentsEqualPrototype fnInfo.prototype (some types) = 0 := by
  simp only [isArgumentsEqualPrototype_eq_zero, exists_eq_right, TypesMatch]

theorem TypesMatch.accepts (types : TypesMatch arguments fnInfo) :
    arguments.realSize = (drpcCreateClientPrototype (fnInfo.prototype.getD [])).length ∧
      Accepts arguments.lookup (fnInfo.prototype.getD []) 0 :=
  accepts_of_types (extractPrototype_types types).symm

theorem drpcServerPrepareFn_match (types : TypesMatch arguments fnInfo) :
    drpcServerPrepareFn (some arguments) fnInfo = (do
      let (slots, toRepack) ← ffiFromDrpc arguments (fnInfo.prototype.getD []) 0 0
      pure (some (arguments, slots, toRepack))) := by
  obtain ⟨extracted, same, equal⟩ := typesMatch_iff.mp types
  rw [drpcServerPrepareFn, same, ok_bind, if_neg (not_not.mpr equal)]

theorem drpcServerPrepareFn_types {prepared : DArray Argument × List FfiSlot × List DrpcTypeUpdate}
    (ran : drpcServerPrepareFn (some arguments) fnInfo = .ok (some prepared)) : TypesMatch arguments fnInfo := by
  obtain ⟨types, extracted, ran⟩ := bind_eq_ok.mp ran
  by_contra differ
  rw [if_pos fun equal => differ (typesMatch_iff.mpr ⟨types, extracted, equal⟩)] at ran
  cases ran

end Prepare

section Admit
variable {server : CallServer} {clientPerm : Int} {payload : Payload}

/-- The verdict on a request is a refusal before the permission is there, or what
the checks on the arguments come to. -/
theorem drpcAdmitCall_request (clientPerm : Int) (functionsOpen : server.functions.Open) {fnName : CString}
    {given : Option (DArray Argument)} (asked : payload.request = .ok (some (fnName, given))) :
    drpcAdmitCall server clientPerm (some payload) =
      match server.functions.lookup fnName with
      | none => .ok (.refuse .notfound 1)
      | some record =>
        if permitted clientPerm (server.records record) then do
          let prepared ← drpcServerPrepareFn given (server.records record)
          pure (.ofPrepared record prepared)
        else .ok (.refuse .eperm 0) := by
  rw [drpcAdmitCall, asked, ok_bind]
  dsimp only
  rw [functionsOpen.get, ok_bind]
  cases server.functions.lookup fnName <;> rfl

/-- What the checks before those on the arguments come to: the name cannot be read, there is no
function that the client may call, or there is one. -/
inductive Asks (server : CallServer) (clientPerm : Int) (payload : Payload) : Prop
  | unreadable {fault : Fault} (asked : payload.request = .error fault)
      (admits : drpcAdmitCall server clientPerm (some payload) = .error fault)
  | refused {request : Option (CString × Option (DArray Argument))} {type : DrpcProtocol} {handleRet : Int}
      (asked : payload.request = .ok request)
      (bars : ∀ fnName given record, request = some (fnName, given) → server.functions.lookup fnName = some record →
        ¬ permitted clientPerm (server.records record))
      (admits : drpcAdmitCall server clientPerm (some payload) = .ok (.refuse type handleRet))
  | calls {fnName : CString} {given : Option (DArray Argument)} {record : Nat}
      (asked : payload.request = .ok (some (fnName, given))) (found : server.functions.lookup fnName = some record)
      (allowed : permitted clientPerm (server.records record))
      (admits : drpcAdmitCall server clientPerm (some payload) = (do
        let prepared ← drpcServerPrepareFn given (server.records record)
        pure (.ofPrepared record prepared)))

theorem drpcAdmitCall_cases (functionsOpen : server.functions.Open) (clientPerm : Int) (payload : Payload) :
    Asks server clientPerm payload := by
  cases asked : payload.request with
  | error fault =>
    refine .unreadable asked ?_
    rw [drpcAdmitCall, asked]
    rfl
  | ok request =>
    cases request with
    | none =>
      have admits : drpcAdmitCall server clientPerm (some payload) = .ok (.refuse .bad 1) := by
        rw [drpcAdmitCall, asked]
        rfl
      refine .refused asked (fun fnName given record same => ?_) admits
      cases same
    | some request =>
      obtain ⟨fnName, given⟩ := request
      have admits := drpcAdmitCall_request clientPerm functionsOpen asked
      cases found : server.functions.lookup fnName with
      | none =>
        rw [found] at admits
        refine .refused asked (fun other _ record same there => ?_) admits
        cases same
        rw [found] at there
        cases there
      | some record =>
        rw [found] at admits
        dsimp only at admits
        by_cases allowed : permitted clientPerm (server.records record)
        · rw [if_pos allowed] at admits
          exact .calls asked found allowed admits
        · rw [if_neg allowed] at admits
          refine .refused asked (fun other _ record' same there => ?_) admits
          cases same
          rw [found] at there
          cases there
          exact allowed

/-- What a verdict rests on: a refusal is one of three replies, and a function
is invoked that the message names, that the client may call and that accepts
the arguments of the message. -/
theorem drpcAdmitCall_inv {verdict : CallVerdict} (ran : drpcAdmitCall server clientPerm (some payload) = .ok verdict) :
    (∃ type handleRet, verdict = .refuse type handleRet ∧ (type = .notfound ∨ type = .eperm ∨ type = .bad)) ∨
      ∃ record arguments slots toRepack fnName, verdict = .invoke record arguments slots toRepack ∧
        payload.Names fnName ∧ hashtableGet server.functions fnName = .ok (some record) ∧
        permitted clientPerm (server.records record) ∧ payload.Carries arguments ∧
        drpcServerPrepareFn (some arguments) (server.records record) = .ok (some (arguments, slots, toRepack)) := by
  obtain ⟨request, asked, ran⟩ := bind_eq_ok.mp ran
  cases request with
  | none =>
    cases ran
    exact .inl ⟨_, _, rfl, .inr (.inr rfl)⟩
  | some request =>
    obtain ⟨fnName, given⟩ := request
    obtain ⟨callFn, looked, ran⟩ := bind_eq_ok.mp ran
    cases callFn with
    | none =>
      cases ran
      exact .inl ⟨_, _, rfl, .inl rfl⟩
    | some record =>
      dsimp only at ran
      split at ran
      · next allowed =>
        obtain ⟨prepared, ready, same⟩ := bind_eq_ok.mp ran
        cases same
        cases prepared with
        | none => exact .inl ⟨_, _, rfl, .inr (.inr rfl)⟩
        | some prepared =>
          obtain ⟨arguments, slots, toRepack⟩ := prepared
          cases given with
          | none => cases ready
          | some given =>
            obtain ⟨rfl, -⟩ := drpcServerPrepareFn_spec ready
            exact .inr ⟨record, _, slots, toRepack, fnName, rfl, (Payload.request_eq_some.mp asked).1, looked, allowed,
              (Payload.request_carries asked).mp rfl, ready⟩
      · cases ran
        exact .inl ⟨_, _, rfl, .inr (.inl rfl)⟩

/-- A refusal is one of three replies. -/
theorem drpcAdmitCall_refuse {message : Option Payload} {type : DrpcProtocol} {handleRet : Int}
    (ran : drpcAdmitCall server clientPerm message = .ok (.refuse type handleRet)) :
    type = .notfound ∨ type = .eperm ∨ type = .bad := by
  cases message with
  | none => cases ran
  | some received =>
    obtain ⟨_, _, same, three⟩ | ⟨_, _, _, _, _, same, -⟩ := drpcAdmitCall_inv ran
    · cases same
      exact three
    · cases same

/-- A function is invoked for a client with the permission and with arguments
of its prototype. -/
theorem drpcAdmitCall_invoke (functionsOpen : server.functions.Open) {message : Option Payload} {record : Nat}
    {arguments : DArray Argument} {slots : List FfiSlot} {toRepack : List DrpcTypeUpdate}
    (ran : drpcAdmitCall server clientPerm message = .ok (.invoke record arguments slots toRepack)) :
    permitted clientPerm (server.records record) ∧ TypesMatch arguments (server.records record) ∧
      drpcServerPrepareFn (some arguments) (server.records record) = .ok (some (arguments, slots, toRepack)) ∧
      ∃ payload, message = some payload ∧ payload.Carries arguments ∧
        ∃ fnName, payload.Names fnName ∧ server.functions.lookup fnName = some record := by
  cases message with
  | none => cases ran
  | some payload =>
    obtain ⟨_, _, same, -⟩ | ⟨_, _, _, _, fnName, same, named, looked, allowed, carried, ready⟩ := drpcAdmitCall_inv ran
    · cases same
    cases same
    rw [functionsOpen.get] at looked
    exact ⟨allowed, drpcServerPrepareFn_types ready, ready, payload, rfl, carried, fnName, named, Except.ok.inj looked⟩

end Admit
end DynamicRPC
