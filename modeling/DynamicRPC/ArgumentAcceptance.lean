import DynamicRPC.FfiSlots
import DynamicRPC.ProxyCall

namespace DynamicRPC
open Outcome

/-- The check of `drpc_server_call_fn` lets the arguments pass. -/
def AcceptsArguments (fnInfo : DrpcFunction) (arguments : DArray Argument) : Prop :=
  ∃ extractedPrototype, extractPrototype arguments = .ok extractedPrototype ∧
    isArgumentsEqualPrototype fnInfo.prototype (some extractedPrototype) = 0

/-- The types at the indices below `d_array_len`. -/
def argumentTypes (arguments : DArray Argument) : List UInt8 :=
  (List.range (dArrayLen arguments)).map (typeAt arguments.lookup)

/-- The types of a prototype given at registration that the callers see. -/
def clientTypes (prototype : Option (List DrpcTypes)) : List UInt8 :=
  ((prototype.getD []).filter fun type =>
    type ≠ .dInterfunc ∧ type ≠ .dFnstorage ∧ type ≠ .dClientinfo ∧ type ≠ .dFninfo).map DrpcTypes.toChar

/-- The record of a function from its registration on: every call that is carried
out may write to its prototype. -/
inductive AfterCalls (registered : DrpcFunction) : DrpcFunction → Prop
  | start : AfterCalls registered registered
  | call {fnInfo : DrpcFunction} {memory : Memory Element} {arguments : Option (DArray Argument)}
      {returnMsg : DStruct Field} {result : CallResult} (previous : AfterCalls registered fnInfo)
      (ran : drpcServerCallFn memory arguments fnInfo returnMsg = .ok (some result)) : AfterCalls registered result.fnInfo

theorem drpcCreateClientPrototype_types (prototype : Option (List DrpcTypes)) :
    (drpcCreateClientPrototype (prototype.getD [])).map DrpcTypes.toChar = clientTypes prototype := by
  have same : ∀ type ∈ prototype.getD [], (!type.isServerOnly) = decide
      (type ≠ .dInterfunc ∧ type ≠ .dFnstorage ∧ type ≠ .dClientinfo ∧ type ≠ .dFninfo) := by
    intro type _
    cases type <;> rfl
  rw [drpcCreateClientPrototype, clientTypes, List.filter_congr same]

theorem argumentTypes_eq {arguments : DArray Argument} {size : Nat} {map : Nat → Option Argument}
    (holds : arguments.Holds size map) : extractPrototype arguments = .ok (argumentTypes arguments) := by
  have same : arguments.lookup = map := funext holds.lookup
  rw [extractPrototype_eq holds, argumentTypes, same]
  rfl

/-- The language of a record is the client-visible part of its prototype. -/
theorem acceptsArguments_iff {fnInfo : DrpcFunction} {arguments : DArray Argument} {size : Nat}
    {map : Nat → Option Argument} (holds : arguments.Holds size map) :
    AcceptsArguments fnInfo arguments ↔ argumentTypes arguments = clientTypes fnInfo.prototype := by
  have extracted := argumentTypes_eq holds
  rw [← drpcCreateClientPrototype_types]
  constructor
  · rintro ⟨types, run, equal⟩
    rw [extracted] at run
    rw [Except.ok.inj run]
    exact isArgumentsEqualPrototype_eq_zero.mp equal
  · intro same
    exact ⟨_, extracted, isArgumentsEqualPrototype_eq_zero.mpr same⟩

/-- The return value 1 of `drpc_server_call_fn` stands for this check alone. -/
theorem drpcServerPrepareFn_refuses {fnInfo : DrpcFunction} {arguments : DArray Argument} {size : Nat}
    {map : Nat → Option Argument} (holds : arguments.Holds size map) :
    drpcServerPrepareFn (some arguments) fnInfo = .ok none ↔ ¬ AcceptsArguments fnInfo arguments := by
  have extracted := argumentTypes_eq holds
  rw [drpcServerPrepareFn, extracted, ok_bind]
  constructor
  · rintro ran ⟨types, run, equal⟩
    rw [extracted] at run
    rw [Except.ok.inj run, if_neg (not_not.mpr equal)] at ran
    obtain ⟨prepared, -, same⟩ := bind_eq_ok.mp ran
    cases same
  · intro refused
    have differs : isArgumentsEqualPrototype fnInfo.prototype (some (argumentTypes arguments)) ≠ 0 :=
      fun equal => refused ⟨_, extracted, equal⟩
    rw [if_pos differs]
    rfl

section Prototype
variable {prototype : List DrpcTypes}

/-- What the prototype loses to `drpc_proto_to_ffi`, the callers see: `d_return_is` is not a server-only type. -/
theorem drpcCreateClientPrototype_protoToFfi :
    drpcCreateClientPrototype (drpcProtoToFfi prototype) = drpcProtoToFfi (drpcCreateClientPrototype prototype) := by
  rw [drpcCreateClientPrototype, drpcCreateClientPrototype, drpcProtoToFfi, drpcProtoToFfi, List.filter_map]
  congr 1
  refine List.filter_congr fun type _ => ?_
  cases type <;> rfl

theorem drpcCreateClientPrototype_idem :
    drpcCreateClientPrototype (drpcCreateClientPrototype prototype) = drpcCreateClientPrototype prototype := by
  rw [drpcCreateClientPrototype, drpcCreateClientPrototype, List.filter_filter]
  simp only [Bool.and_self]

theorem proxyPrototype_visible : drpcCreateClientPrototype (proxyPrototype prototype) =
    drpcProtoToFfi (drpcCreateClientPrototype prototype) := by
  have base : drpcCreateClientPrototype proxyBaseProto = [] := rfl
  have appended : drpcCreateClientPrototype (proxyBaseProto ++ drpcCreateClientPrototype prototype) =
      drpcCreateClientPrototype prototype := by
    rw [drpcCreateClientPrototype, List.filter_append]
    change drpcCreateClientPrototype proxyBaseProto ++ drpcCreateClientPrototype (drpcCreateClientPrototype prototype) = _
    rw [base, List.nil_append, drpcCreateClientPrototype_idem]
  rw [proxyPrototype, drpcCreateClientPrototype_protoToFfi, appended]

end Prototype

/-- Which types `ffi_prep_cif_var` takes as variadic ones: those that the default
argument promotions leave as they are. -/
def FfiType.promoted : FfiType → Bool
  | .sint32 | .uint32 | .sint64 | .uint64 | .double | .pointer | .ulong => true
  | .void | .sint8 | .uint8 | .sint16 | .uint16 | .float => false

/-- What `ffi_prep_cif_var` is documented to do with a table of types, of which the first
`nfixed` are those of named arguments. -/
def PreparesVariadic (ffiPrepCifVar : Nat → FfiType → List (Option FfiType) → Bool) : Prop :=
  ∀ nfixed returnType (kinds : List FfiType), ffiPrepCifVar nfixed returnType (kinds.map some) = true ↔
    ∀ kind ∈ kinds.drop nfixed, kind.promoted = true

/-- The record that `drpc_server_register_proxy_fn` enters. A NULL prototype gives
`ffi_prep_cif_var` no table to read. -/
def drpcServerRegisterProxyFn (ffiPrepCifVar : Nat → FfiType → List (Option FfiType) → Bool) (proxy : ProxyFunction)
    (fuel : Nat) : Outcome DrpcFunction :=
  match proxy.prototype, drpcFfiConvertTable[proxy.returnType.toChar.toNat]? with
  | some prototype, some returnType => do
    let kinds ← ffiPrototype (proxyBaseProto ++ drpcCreateClientPrototype prototype)
    if ffiPrepCifVar proxyBaseProto.length returnType kinds then pure (proxy.fnInfo fuel) else .error .assertion
  | _, _ => .error .outside

/-- The types of client-visible arguments that a proxy function can have. -/
def DrpcTypes.Proxyable (type : DrpcTypes) : Prop :=
  type = .dInt32 ∨ type = .dUint32 ∨ type = .dInt64 ∨ type = .dUint64 ∨ type = .dDouble ∨ type.isPointer = true

instance (type : DrpcTypes) : Decidable type.Proxyable := inferInstanceAs (Decidable (_ ∨ _))

section Registration
variable {prototype : List DrpcTypes} {ffiPrepCifVar : Nat → FfiType → List (Option FfiType) → Bool}

/-- The kinds of the slots of a prototype, where `d_return_is` counts as `d_void`. -/
def kindsOf (prototype : List DrpcTypes) : List FfiType := (drpcProtoToFfi prototype).flatMap slotKinds

theorem drpcProtoToFfiStep_rewritten (s : List (Option FfiType) × Nat) (type : DrpcTypes) :
    drpcProtoToFfiStep s (if type = .dReturnIs then .dVoid else type) = drpcProtoToFfiStep s type := by
  cases type <;> rfl

theorem drpcProtoToFfiLenAdjust_rewritten : drpcProtoToFfiLenAdjust (drpcProtoToFfi prototype) =
    drpcProtoToFfiLenAdjust prototype := by
  rw [drpcProtoToFfiLenAdjust_eq, drpcProtoToFfiLenAdjust_eq, drpcProtoToFfi, List.map_map]
  refine congrArg List.sum (List.map_congr_left fun type _ => ?_)
  cases type <;> rfl

/-- `drpc_proto_to_ffi` fills its table for every prototype. -/
theorem ffiPrototype_kindsOf (prototype : List DrpcTypes) : ffiPrototype prototype = .ok ((kindsOf prototype).map some) := by
  have plain : ∀ type ∈ drpcProtoToFfi prototype, type ≠ .dReturnIs := by
    rintro type member rfl
    exact returnIs_not_mem_drpcProtoToFfi prototype member
  have run := drpcProtoToFfi_run [] plain
  rw [drpcProtoToFfi, List.foldlM_map] at run
  simp only [drpcProtoToFfiStep_rewritten] at run
  rw [← drpcProtoToFfi, drpcProtoToFfiLenAdjust_rewritten] at run
  rw [ffiPrototype]
  exact congrArg (fun ran : Outcome (List (Option FfiType) × Nat) => ran >>= fun s => pure s.1) run

/-- A client-visible type has slots of promoted kinds only where it is one that a proxy can pass on. -/
theorem slotKinds_promoted_iff {type : DrpcTypes} (client : type.isServerOnly = false) :
    (∀ kind ∈ slotKinds (if type = .dReturnIs then .dVoid else type), kind.promoted = true) ↔ type.Proxyable := by
  cases type <;> first | exact Bool.noConfusion client | decide

theorem kindsOf_promoted_iff : (∀ kind ∈ kindsOf (drpcCreateClientPrototype prototype), kind.promoted = true) ↔
    ∀ type ∈ drpcCreateClientPrototype prototype, type.Proxyable := by
  rw [kindsOf, drpcProtoToFfi]
  simp only [List.mem_flatMap, List.mem_map]
  constructor
  · intro promoted type member
    have client : type.isServerOnly = false := by simpa using (List.mem_filter.mp member).2
    exact (slotKinds_promoted_iff client).mp fun kind inside => promoted kind ⟨_, ⟨type, member, rfl⟩, inside⟩
  · rintro proxyable kind ⟨_, ⟨type, member, rfl⟩, inside⟩
    have client : type.isServerOnly = false := by simpa using (List.mem_filter.mp member).2
    exact (slotKinds_promoted_iff client).mpr (proxyable type member) kind inside

/-- Which registrations of a proxy function go through. -/
theorem drpcServerRegisterProxyFn_eq_ok (prepares : PreparesVariadic ffiPrepCifVar) {proxy : ProxyFunction} {fuel : Nat}
    {record : DrpcFunction} : drpcServerRegisterProxyFn ffiPrepCifVar proxy fuel = .ok record ↔
      record = proxy.fnInfo fuel ∧ proxy.returnType ≠ .dReturnIs ∧
        ∃ prototype, proxy.prototype = some prototype ∧ ∀ type ∈ drpcCreateClientPrototype prototype, type.Proxyable := by
  have table : drpcFfiConvertTable[DrpcTypes.dReturnIs.toChar.toNat]? = none := rfl
  unfold drpcServerRegisterProxyFn
  cases given : proxy.prototype with
  | none => simp
  | some prototype =>
    by_cases returns : proxy.returnType = .dReturnIs
    · rw [returns, table]
      simp
    · obtain ⟨kind, converts⟩ := drpcFfiConvertTable_get returns
      have kinds : kindsOf (proxyBaseProto ++ drpcCreateClientPrototype prototype) =
          [.pointer, .pointer, .pointer] ++ kindsOf (drpcCreateClientPrototype prototype) := by
        rw [kindsOf, drpcProtoToFfi, List.map_append, List.flatMap_append]
        rfl
      have accepted := prepares proxyBaseProto.length kind (kindsOf (proxyBaseProto ++ drpcCreateClientPrototype prototype))
      rw [kinds, show proxyBaseProto.length = [FfiType.pointer, .pointer, .pointer].length from rfl, List.drop_left,
        kindsOf_promoted_iff] at accepted
      rw [converts]
      dsimp only
      rw [ffiPrototype_kindsOf, ok_bind, kinds, show proxyBaseProto.length = [FfiType.pointer, .pointer, .pointer].length from rfl]
      constructor
      · intro ran
        split at ran
        · next prepared =>
          cases ran
          exact ⟨rfl, returns, prototype, rfl, accepted.mp prepared⟩
        · cases ran
      · rintro ⟨rfl, -, _, same, proxyable⟩
        cases same
        exact if_pos (accepted.mpr proxyable)

end Registration

/-- The types that a proxy function asks for. -/
theorem fnInfo_types (proxy : ProxyFunction) (fuel : Nat) : clientTypes (proxy.fnInfo fuel).prototype =
    (drpcProtoToFfi (drpcCreateClientPrototype (proxy.prototype.getD []))).map DrpcTypes.toChar := by
  rw [← drpcCreateClientPrototype_types, ProxyFunction.fnInfo]
  cases proxy.prototype with
  | none => rfl
  | some prototype => rw [Option.map_some, Option.getD_some, Option.getD_some, proxyPrototype_visible]

theorem drpcServerCallFn_prototype {memory : Memory Element} {arguments : Option (DArray Argument)} {fnInfo : DrpcFunction}
    {returnMsg : DStruct Field} {result : CallResult}
    (ran : drpcServerCallFn memory arguments fnInfo returnMsg = .ok (some result)) :
    result.fnInfo.prototype = fnInfo.prototype.map drpcProtoToFfi := by
  obtain ⟨prepared, -, ran⟩ := bind_eq_ok.mp ran
  cases prepared with
  | none => cases ran
  | some prepared =>
    obtain ⟨invoked, ran, same⟩ := bind_eq_ok.mp ran
    cases same
    obtain ⟨_, -, ran⟩ := bind_eq_ok.mp ran
    obtain ⟨_, -, ran⟩ := bind_eq_ok.mp ran
    obtain ⟨_, -, ran⟩ := bind_eq_ok.mp ran
    obtain ⟨_, -, same⟩ := bind_eq_ok.mp ran
    cases same
    rfl

/-- A call leaves the prototype of a record as it is or as `drpc_proto_to_ffi` left it. -/
theorem AfterCalls.prototype {registered fnInfo : DrpcFunction} (calls : AfterCalls registered fnInfo) :
    fnInfo.prototype = registered.prototype ∨ fnInfo.prototype = registered.prototype.map drpcProtoToFfi := by
  induction calls with
  | start => exact .inl rfl
  | @call before memory arguments returnMsg result previous ran ih =>
    have written := drpcServerCallFn_prototype ran
    refine .inr (written.trans ?_)
    obtain same | same := ih
    · rw [same]
    · rw [same, Option.map_map]
      simp only [Function.comp_def, drpcProtoToFfi_idem]

/-- Without `d_return_is` the calls change nothing. -/
theorem AfterCalls.prototype_eq {registered fnInfo : DrpcFunction} (calls : AfterCalls registered fnInfo)
    (plain : .dReturnIs ∉ registered.prototype.getD []) : fnInfo.prototype = registered.prototype := by
  obtain same | same := calls.prototype
  · exact same
  · rw [same]
    cases prototype : registered.prototype with
    | none => rfl
    | some types =>
      rw [prototype, Option.getD_some] at plain
      rw [Option.map_some, drpcProtoToFfi_eq_self plain]

/-- An argument of a type. -/
def argumentOfType (type : DrpcTypes) : Argument :=
  if held : type.isPointer = true then .pointer type 1 0 held
  else .packed type.toChar ⟨type.toChar, []⟩ (by cases type <;> first | rfl | exact absurd rfl held)

/-- The array with arguments of the given types. -/
def argumentsOfTypes (types : List DrpcTypes) : DArray Argument :=
  ⟨types.length, types.map fun type => .elem (argumentOfType type)⟩

theorem argumentsOfTypes_holds (types : List DrpcTypes) : (argumentsOfTypes types).Holds types.length
    fun i => types[i]?.map argumentOfType where
  size := List.length_map _
  initialised := by simp [argumentsOfTypes]
  live := by simp [argumentsOfTypes]
  counted := by
    have filled := List.length_filterMap_le Cell.element (types.map fun type => Cell.elem (argumentOfType type))
    rwa [List.length_map] at filled
  lookup := by
    intro i
    rw [DArray.lookup, argumentsOfTypes, List.getElem?_map]
    cases types[i]? with
    | none => rfl
    | some type => rfl

/-- At every time a function registered directly accepts the arguments whose types are those
of its prototype without the server's own. -/
def AcceptsItsTypes (direct : DrpcFunction) : Prop :=
  ∀ now, AfterCalls direct now → ∀ (arguments : DArray Argument) size map, arguments.Holds size map →
    (AcceptsArguments now arguments ↔ argumentTypes arguments = clientTypes direct.prototype)

/-- A function registered directly accepts the arguments of its types, and the registration as
a proxy function returns and makes one that accepts the same arguments at every time. -/
structure AcceptsExactly (direct : DrpcFunction) (proxied : Outcome DrpcFunction) : Prop where
  language : AcceptsItsTypes direct
  same : ∃ registered, proxied = .ok registered ∧ ∀ now proxyNow, AfterCalls direct now → AfterCalls registered proxyNow →
    ∀ (arguments : DArray Argument) size map, arguments.Holds size map →
    (AcceptsArguments proxyNow arguments ↔ AcceptsArguments now arguments)

/-- The prototype of a proxy function holds no `d_return_is`, so the calls change nothing. -/
theorem AfterCalls.proxy_types {proxy : ProxyFunction} {fuel : Nat} {now : DrpcFunction}
    (calls : AfterCalls (proxy.fnInfo fuel) now) : clientTypes now.prototype =
      (drpcProtoToFfi (drpcCreateClientPrototype (proxy.prototype.getD []))).map DrpcTypes.toChar := by
  have plain : .dReturnIs ∉ (proxy.fnInfo fuel).prototype.getD [] := by
    rw [ProxyFunction.fnInfo]
    cases proxy.prototype with
    | none => exact List.not_mem_nil
    | some prototype => exact returnIs_not_mem_drpcProtoToFfi _
  rw [calls.prototype_eq plain, fnInfo_types]

/-- Without `d_return_is` the types of the arguments are those of the prototype. -/
theorem acceptsItsTypes {direct : DrpcFunction} (plain : .dReturnIs ∉ direct.prototype.getD []) : AcceptsItsTypes direct := by
  intro now calls arguments size map holds
  rw [acceptsArguments_iff holds, calls.prototype_eq plain]

/-- The proxy of a function, registered with its prototype and its return type. -/
def ProxyFunction.of (proxy : ProxyFunction) (direct : DrpcFunction) : ProxyFunction :=
  { proxy with prototype := direct.prototype, returnType := direct.returnType }

/-- The types of the arguments are those of the prototype for a prototype without `d_return_is`,
which `drpc_proto_to_ffi` makes a `d_void` in the prototype itself. They are so directly and
through a proxy exactly for the prototypes that can be registered for a proxy: those that are
there, with no type that `ffi_prep_cif_var` refuses as a variadic one. -/
theorem acceptsExactly_iff {ffiPrepCifVar : Nat → FfiType → List (Option FfiType) → Bool}
    (prepares : PreparesVariadic ffiPrepCifVar) (direct : DrpcFunction) (proxy : ProxyFunction) (fuel : Nat) :
    (.dReturnIs ∉ direct.prototype.getD [] → AcceptsItsTypes direct) ∧
      (AcceptsExactly direct (drpcServerRegisterProxyFn ffiPrepCifVar (proxy.of direct) fuel) ↔
        direct.returnType ≠ .dReturnIs ∧ ∃ prototype, direct.prototype = some prototype ∧
          ∀ type ∈ drpcCreateClientPrototype prototype, type.Proxyable) := by
  refine ⟨acceptsItsTypes, fun exactly => ?_, ?_⟩
  · obtain ⟨registered, entered, -⟩ := exactly.same
    exact ((drpcServerRegisterProxyFn_eq_ok prepares).mp entered).2
  · rintro ⟨returns, prototype, given, proxyable⟩
    have visible : .dReturnIs ∉ drpcCreateClientPrototype prototype := by
      intro member
      obtain same | same | same | same | same | same := proxyable _ member <;> cases same
    have plain : .dReturnIs ∉ direct.prototype.getD [] := by
      rw [given, Option.getD_some]
      exact fun member => visible (List.mem_filter.mpr ⟨member, rfl⟩)
    have language := acceptsItsTypes plain
    refine ⟨language, _, (drpcServerRegisterProxyFn_eq_ok prepares).mpr ⟨rfl, returns, prototype, given, proxyable⟩, ?_⟩
    intro now proxyNow calls proxyCalls arguments size map holds
    have types : clientTypes proxyNow.prototype = clientTypes direct.prototype := by
      rw [proxyCalls.proxy_types, ProxyFunction.of, ← drpcCreateClientPrototype_types, given, Option.getD_some,
        drpcProtoToFfi_eq_self visible]
    rw [language now calls arguments size map holds, acceptsArguments_iff holds, types]

/-- `ffi_prep_cif_var` as it is documented. -/
def prepCifVar (nfixed : Nat) (_ : FfiType) (kinds : List (Option FfiType)) : Bool :=
  (kinds.drop nfixed).all fun kind => kind.any FfiType.promoted

theorem prepCifVar_prepares : PreparesVariadic prepCifVar := by
  intro nfixed returnType kinds
  rw [prepCifVar, ← List.map_drop, List.all_map, List.all_eq_true]
  rfl

/-- A function that does nothing with its arguments. -/
def idleOf (prototype : List DrpcTypes) : DrpcFunction := ⟨some prototype, .dVoid, 0, fun _ memory => pure (memory, 0)⟩

/-- Numbers of four bytes and pointers go through a proxy. -/
theorem acceptsExactly_iff_numbers : AcceptsExactly (idleOf [.dInt32, .dFnstorage, .dStr])
    (drpcServerRegisterProxyFn prepCifVar ((steadyProxy .ok).of (idleOf [.dInt32, .dFnstorage, .dStr])) 1) := by
  refine (acceptsExactly_iff prepCifVar_prepares (idleOf _) (steadyProxy .ok) 1).2.mpr ⟨nofun, _, rfl, ?_⟩
  decide

/-- Two prototypes for which the lists differ: a function with a `d_float` cannot be registered
as a proxy function, and one with a `d_return_is` refuses, from its first call on, the array that it accepted. -/
theorem acceptsExactly_fails :
    (drpcServerRegisterProxyFn prepCifVar ((steadyProxy .ok).of (idleOf [.dFloat])) 1).map DrpcFunction.prototype =
        .error .assertion ∧
      ¬ AcceptsExactly (idleOf [.dFloat])
        (drpcServerRegisterProxyFn prepCifVar ((steadyProxy .ok).of (idleOf [.dFloat])) 1) ∧
      AcceptsArguments (idleOf [.dReturnIs]) (argumentsOfTypes [.dReturnIs]) ∧
      ¬ AcceptsItsTypes (idleOf [.dReturnIs]) := by
  have holds := argumentsOfTypes_holds [.dReturnIs]
  refine ⟨rfl, fun exactly => ?_, (acceptsArguments_iff holds).mpr (by decide), fun language => ?_⟩
  · obtain ⟨registered, entered, -⟩ := exactly.same
    cases entered
  · obtain ⟨result, called⟩ : ∃ result, drpcServerCallFn .empty (some (argumentsOfTypes [.dReturnIs]))
        (idleOf [.dReturnIs]) newDStruct = .ok (some result) := ⟨_, rfl⟩
    have later := (language _ (.call .start called) _ _ _ holds).mpr (by decide)
    have changed := drpcServerCallFn_prototype called
    rw [acceptsArguments_iff holds, changed] at later
    exact absurd later (by decide)

end DynamicRPC
