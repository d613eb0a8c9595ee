import DynamicRPC.CallPrepare

namespace DynamicRPC
open Outcome

/-- A store into an allocated table. -/
def storeSlot {α : Type} (table : List α) (i : Nat) (a : α) : Outcome (List α) :=
  if i < table.length then pure (table.set i a) else .error .outside

/-- The kinds of `ffi_type` in use. -/
inductive FfiType
  | void | sint8 | uint8 | sint16 | uint16 | sint32 | uint32 | sint64 | uint64 | float | double | pointer | ulong
  deriving DecidableEq

/-- `drpc_ffi_convert_table`, which ends before `d_return_is`. -/
def drpcFfiConvertTable : List FfiType :=
  [.void, .sint8,
    .uint8, .sint16,
    .uint16, .sint32,
    .uint32, .sint64,
    .uint64, .float,
    .double, .pointer,
    .pointer, .pointer,
    .pointer, .pointer,
    .pointer, .pointer,
    .pointer, .pointer]

/-- `drpc_proto_to_ffi_len_adjust`. -/
def drpcProtoToFfiLenAdjust (prototype : List DrpcTypes) : Nat :=
  prototype.foldl (fun adjustedLen type => if type = .dSizedbuf then adjustedLen + 1 else adjustedLen) prototype.length

/-- One round of the loop of `drpc_proto_to_ffi`, on `ffi_proto` and `j`. -/
def drpcProtoToFfiStep (s : List (Option FfiType) × Nat) (type : DrpcTypes) : Outcome (List (Option FfiType) × Nat) :=
  let type := if type = .dReturnIs then .dVoid else type
  match drpcFfiConvertTable[type.toChar.toNat]? with
  | none => .error .outside
  | some kind => do
    let ffiProto ← storeSlot s.1 s.2 (some kind)
    if type = .dSizedbuf then do
      let ffiProto ← storeSlot ffiProto (s.2 + 1) (some .ulong)
      pure (ffiProto, s.2 + 2)
    else pure (ffiProto, s.2 + 1)

/-- The table that `drpc_proto_to_ffi` returns. -/
def ffiPrototype (prototype : List DrpcTypes) : Outcome (List (Option FfiType)) := do
  let (ffiProto, _) ← prototype.foldlM drpcProtoToFfiStep
    (List.replicate (drpcProtoToFfiLenAdjust prototype) none, 0)
  pure ffiProto

/-- An entry of `ffi_arguments`: not set, a block that holds no value yet, or a value. -/
inductive FfiBlock
  | null
  | malloced
  | holds (value : FfiSlot)

/-- What the loop of `ffi_from_drpc` changes. An entry of `fill_later` is a type
and the index of its slot. -/
structure FfiArguments where
  ffiArguments : List FfiBlock
  j : Nat
  k : Nat
  fillLater : List (DrpcTypes × Nat)
  repackQue : List DrpcTypeUpdate

/-- One round of the loop of `ffi_from_drpc`. -/
def ffiFromDrpcStep (arguments : DArray Argument) (s : FfiArguments) (type : DrpcTypes) : Outcome FfiArguments :=
  if type.isServerOnly then do
    let ffiArguments ← storeSlot s.ffiArguments s.k .malloced
    pure ⟨ffiArguments, s.j, s.k + 1, s.fillLater ++ [(type, s.k)], s.repackQue⟩
  else do
    let type ← dArrayGetType arguments s.j
    let ffiArguments ← storeSlot s.ffiArguments s.k .malloced
    let argument ← dArrayGet arguments s.j type
    match argument with
    | none => .error .assertion
    | some (.packed type data _) => do
      let value ← packedSlot type data
      let ffiArguments ← storeSlot ffiArguments s.k (.holds value)
      pure ⟨ffiArguments, s.j + 1, s.k + 1, s.fillLater, s.repackQue⟩
    | some (.pointer type ptr len _) => do
      let ffiArguments ← storeSlot ffiArguments s.k (.holds (.pointer ptr))
      if type = .dSizedbuf then do
        let ffiArguments ← storeSlot ffiArguments (s.k + 1) (.holds (.length len))
        pure ⟨ffiArguments, s.j + 1, s.k + 2, s.fillLater, s.repackQue ++ [⟨type, len, s.k, ptr⟩]⟩
      else pure ⟨ffiArguments, s.j + 1, s.k + 1, s.fillLater, s.repackQue ++ [⟨type, 0, s.k, ptr⟩]⟩

/-- `ffi_from_drpc` with its table of slots. -/
def ffiFromDrpcSlots (arguments : DArray Argument) (prototype : List DrpcTypes) : Outcome FfiArguments :=
  prototype.foldlM (ffiFromDrpcStep arguments)
    ⟨List.replicate (drpcProtoToFfiLenAdjust prototype) .null, 0, 0, [], []⟩

/-- The addresses that the server passes of itself. -/
structure ServerValues where
  fnstorage : Nat
  interfunc : Nat
  clientInfo : Nat
  fnInfo : Nat

/-- `**(void***)fill->ptr = value`. -/
def fillSlot (ffiArguments : List FfiBlock) (k value : Nat) : Outcome (List FfiBlock) :=
  match ffiArguments[k]? with
  | none => .error .outside
  | some .null => .error .outside
  | some _ => pure (ffiArguments.set k (.holds (.pointer value)))

/-- One round of the fill loop of `drpc_server_call_fn`. -/
def drpcFillStep (server : ServerValues) (ffiArguments : List FfiBlock) (fill : DrpcTypes × Nat) :
    Outcome (List FfiBlock) :=
  match fill.1 with
  | .dFnstorage => fillSlot ffiArguments fill.2 server.fnstorage
  | .dInterfunc => fillSlot ffiArguments fill.2 server.interfunc
  | .dClientinfo => fillSlot ffiArguments fill.2 server.clientInfo
  | .dFninfo => fillSlot ffiArguments fill.2 server.fnInfo
  | _ => pure ffiArguments

/-- The slots that `drpc_server_call_fn` gives to `ffi_call`, with the queue of its pointers. -/
def drpcServerSlots (server : ServerValues) (arguments : DArray Argument) (prototype : List DrpcTypes) :
    Outcome (List FfiBlock × List DrpcTypeUpdate) := do
  let s ← ffiFromDrpcSlots arguments prototype
  let ffiArguments ← s.fillLater.foldlM (drpcFillStep server) s.ffiArguments
  pure (ffiArguments, s.repackQue)

/-- The server's own value for a type. -/
def ServerValues.value (server : ServerValues) : DrpcTypes → Option Nat
  | .dFnstorage => some server.fnstorage
  | .dInterfunc => some server.interfunc
  | .dClientinfo => some server.clientInfo
  | .dFninfo => some server.fnInfo
  | _ => none

/-- What a callee gets of one argument: a buffer comes with its length. -/
def Argument.values : Argument → List FfiSlot
  | .packed type data _ => [filledSlot type data]
  | .pointer type ptr len _ => if type = .dSizedbuf then [.pointer ptr, .length len] else [.pointer ptr]

/-- What a callee of a prototype is to get: in order, the server's value for
each type of its own and the next argument for every other. -/
def calleeValues (server : ServerValues) (map : Nat → Option Argument) : List DrpcTypes → Nat → List FfiSlot
  | [], _ => []
  | type :: prototype, j =>
    match server.value type with
    | some address => .pointer address :: calleeValues server map prototype j
    | none => ((map j).map Argument.values).getD [] ++ calleeValues server map prototype (j + 1)

/-- A value of the kind that `ffi_call` takes it for. -/
inductive FfiSlot.OfKind : FfiSlot → FfiType → Prop
  | pointer (address : Nat) : OfKind (.pointer address) .pointer
  | length (len : Nat) : OfKind (.length len) .ulong
  | scalar {type : DrpcTypes} {kind : FfiType} {bytes : List UInt8} (sized : type.scalarWidth = some bytes.length)
      (converts : drpcFfiConvertTable[type.toChar.toNat]? = some kind) : OfKind (.scalar type.toChar bytes) kind

section Store
variable {α : Type}

theorem storeSlot_front (front : List α) (old a : α) (rest : List α) :
    storeSlot (front ++ old :: rest) front.length a = .ok (front ++ a :: rest) := by
  have within : front.length < (front ++ old :: rest).length := by simp
  rw [storeSlot, if_pos within, List.set_append_right _ _ le_rfl, Nat.sub_self]
  rfl

theorem storeSlot_second (front : List α) (first old a : α) (rest : List α) :
    storeSlot (front ++ first :: old :: rest) (front.length + 1) a = .ok (front ++ first :: a :: rest) := by
  have stored := storeSlot_front (front ++ [first]) old a rest
  rw [List.length_append, List.length_singleton, List.append_assoc, List.append_assoc] at stored
  exact stored

end Store

/-- The slots that a type takes. -/
def slotCount (type : DrpcTypes) : Nat := if type = .dSizedbuf then 2 else 1

theorem drpcProtoToFfiLenAdjust_eq (prototype : List DrpcTypes) :
    drpcProtoToFfiLenAdjust prototype = (prototype.map slotCount).sum := by
  have count : ∀ n, prototype.foldl (fun adjustedLen type =>
      if type = .dSizedbuf then adjustedLen + 1 else adjustedLen) (prototype.length + n) =
      (prototype.map slotCount).sum + n := by
    induction prototype with
    | nil => exact fun n => rfl
    | cons type prototype ih =>
      intro n
      rw [List.foldl_cons, List.map_cons, List.sum_cons, List.length_cons, slotCount]
      split
      · rw [show prototype.length + 1 + n + 1 = prototype.length + (n + 2) by omega, ih]
        omega
      · rw [show prototype.length + 1 + n = prototype.length + (n + 1) by omega, ih]
        omega
  exact count 0

theorem drpcProtoToFfiLenAdjust_cons (type : DrpcTypes) (prototype : List DrpcTypes) :
    drpcProtoToFfiLenAdjust (type :: prototype) = slotCount type + drpcProtoToFfiLenAdjust prototype := by
  rw [drpcProtoToFfiLenAdjust_eq, drpcProtoToFfiLenAdjust_eq, List.map_cons, List.sum_cons]

/-- The kinds of the slots of a type. -/
def slotKinds (type : DrpcTypes) : List FfiType :=
  if type = .dSizedbuf then [.pointer, .ulong] else drpcFfiConvertTable[type.toChar.toNat]?.toList

theorem slotKinds_length {type : DrpcTypes} (ordinary : type ≠ .dReturnIs) :
    (slotKinds type).length = slotCount type := by
  cases type <;> first | rfl | exact absurd rfl ordinary

section Kinds
variable {prototype : List DrpcTypes}

theorem drpcFfiConvertTable_get {type : DrpcTypes} (ordinary : type ≠ .dReturnIs) :
    ∃ kind, drpcFfiConvertTable[type.toChar.toNat]? = some kind := by
  cases type <;> first | exact ⟨_, rfl⟩ | exact absurd rfl ordinary

theorem drpcProtoToFfiStep_front (front : List (Option FfiType)) (n : Nat) {type : DrpcTypes}
    (ordinary : type ≠ .dReturnIs) :
    drpcProtoToFfiStep (front ++ List.replicate (slotCount type + n) none, front.length) type =
      .ok (front ++ (slotKinds type).map some ++ List.replicate n none, front.length + slotCount type) := by
  obtain ⟨kind, converts⟩ := drpcFfiConvertTable_get ordinary
  unfold drpcProtoToFfiStep
  rw [if_neg ordinary]
  dsimp only
  rw [converts]
  dsimp only
  by_cases buffer : type = .dSizedbuf
  · have pointer : kind = .pointer := by
      rw [buffer] at converts
      exact (Option.some.inj converts).symm
    have count : slotCount type = 2 := if_pos buffer
    have kinds : slotKinds type = [.pointer, .ulong] := if_pos buffer
    rw [count, kinds, Nat.add_comm 2 n, List.replicate_succ, List.replicate_succ, storeSlot_front, ok_bind,
      if_pos buffer, storeSlot_second, ok_bind, pointer, List.append_assoc]
    rfl
  · have count : slotCount type = 1 := if_neg buffer
    have kinds : slotKinds type = [kind] := by
      rw [slotKinds, if_neg buffer, converts, Option.toList_some]
    rw [count, kinds, Nat.add_comm 1 n, List.replicate_succ, storeSlot_front, ok_bind, if_neg buffer, List.append_assoc]
    rfl

/-- The kinds come from the prototype, one type after the other. -/
theorem drpcProtoToFfi_run (front : List (Option FfiType)) (ordinary : ∀ type ∈ prototype, type ≠ .dReturnIs) :
    prototype.foldlM drpcProtoToFfiStep
        (front ++ List.replicate (drpcProtoToFfiLenAdjust prototype) none, front.length) =
      .ok (front ++ (prototype.flatMap slotKinds).map some, front.length + drpcProtoToFfiLenAdjust prototype) := by
  induction prototype generalizing front with
  | nil =>
    have nothing : drpcProtoToFfiLenAdjust [] = 0 := rfl
    rw [nothing, List.replicate_zero, List.flatMap_nil, List.map_nil]
    rfl
  | cons type prototype ih =>
    obtain ⟨here, later⟩ := List.forall_mem_cons.mp ordinary
    have next : front.length + slotCount type = (front ++ (slotKinds type).map some).length := by
      rw [List.length_append, List.length_map, slotKinds_length here]
    rw [drpcProtoToFfiLenAdjust_cons, List.foldlM_cons, drpcProtoToFfiStep_front front _ here, ok_bind, next,
      ih _ later, ← next, List.flatMap_cons, List.map_append, List.append_assoc, Nat.add_assoc]

end Kinds

/-- An array has an argument of a type at an index, which can be read. -/
def ArgumentAt (arguments : DArray Argument) (i : Nat) (type : DrpcTypes) : Prop :=
  ∃ argument, dArrayGetInternal arguments i = .ok (some argument) ∧ argument.type = type.toChar ∧ argument.Full

/-- A slot of the walk over the arguments as the callee finds it. -/
inductive FfiSlot.Shows (server : ServerValues) : FfiSlot → FfiSlot → Prop
  | server {type : DrpcTypes} {address : Nat} (own : server.value type = some address) :
      Shows server (.server type) (.pointer address)
  | argument (slot : FfiSlot) : Shows server slot slot

/-- The slots before those of the server are filled. -/
def calleeBlocks (map : Nat → Option Argument) : List DrpcTypes → Nat → List FfiBlock
  | [], _ => []
  | type :: prototype, j =>
    if type.isServerOnly then .malloced :: calleeBlocks map prototype j
    else (((map j).map Argument.values).getD []).map .holds ++ calleeBlocks map prototype (j + 1)

/-- The slots that the server fills. -/
def serverSlots : List DrpcTypes → Nat → List (DrpcTypes × Nat)
  | [], _ => []
  | type :: prototype, k =>
    if type.isServerOnly then (type, k) :: serverSlots prototype (k + 1) else serverSlots prototype (k + slotCount type)

def Argument.updates (k : Nat) : Argument → List DrpcTypeUpdate
  | .packed _ _ _ => []
  | .pointer type ptr len _ => [⟨type, if type = .dSizedbuf then len else 0, k, ptr⟩]

theorem ServerValues.value_isSome (server : ServerValues) (type : DrpcTypes) :
    (server.value type).isSome = type.isServerOnly := by
  cases type <;> rfl

theorem ServerValues.value_own {type : DrpcTypes} (server : ServerValues) (own : type.isServerOnly = true) :
    ∃ address, server.value type = some address :=
  Option.isSome_iff_exists.mp ((server.value_isSome type).trans own)

theorem ServerValues.value_client {type : DrpcTypes} (server : ServerValues) (client : type.isServerOnly = false) :
    server.value type = none := by
  have isSome := (server.value_isSome type).trans client
  rwa [Option.isSome_eq_false_iff, Option.isNone_iff_eq_none] at isSome

theorem Argument.values_ofKind {argument : Argument} {type : DrpcTypes} (same : argument.type = type.toChar)
    (client : type.isServerOnly = false) (ordinary : type ≠ .dVoid ∧ type ≠ .dReturnIs) (full : argument.Full) :
    List.Forall₂ FfiSlot.OfKind argument.values (slotKinds type) := by
  cases argument with
  | packed stored data scalar =>
    have stored_eq : stored = type.toChar := same
    subst stored_eq
    rw [isPointerChar_toChar] at scalar
    obtain ⟨kind, converts⟩ := drpcFfiConvertTable_get ordinary.2
    have other : type ≠ .dSizedbuf := by
      rintro rfl
      cases scalar
    have kinds : slotKinds type = [kind] := by
      rw [slotKinds, if_neg other, converts, Option.toList_some]
    obtain ⟨width, sized⟩ : ∃ width, type.scalarWidth = some width := by
      cases type <;> first | exact ⟨_, rfl⟩ | exact absurd rfl ordinary.1 | exact absurd rfl ordinary.2 |
        exact Bool.noConfusion scalar | exact Bool.noConfusion client
    have whole := full width ((charWidth_toChar type).trans sized)
    rw [kinds, Argument.values, filledSlot, charWidth_toChar, sized]
    refine .cons (.scalar ?_ converts) .nil
    rw [sized, List.length_take, Nat.min_eq_left whole]
  | pointer stored ptr len held =>
    cases DrpcTypes.toChar_injective same
    cases type with
    | dSizedbuf => exact .cons (.pointer ptr) (.cons (.length len) .nil)
    | dStr | dArray | dStruct | dQueue => exact .cons (.pointer ptr) .nil
    | _ => cases held

/-- The slots and the update of an argument. -/
theorem Argument.slots_eq {argument : Argument} (full : argument.Full) (k : Nat) :
    argument.slots k = .ok (argument.values, argument.updates k) := by
  cases argument with
  | packed type data scalar =>
    rw [slots, (packedSlot_eq_ok scalar).mpr ⟨full, rfl⟩]
    rfl
  | pointer type ptr len held =>
    rw [slots, values, updates]
    split <;> rfl

theorem Argument.values_length {argument : Argument} {type : DrpcTypes} (same : argument.type = type.toChar) :
    argument.values.length = slotCount type := by
  cases argument with
  | packed stored data scalar =>
    have other : type ≠ .dSizedbuf := by
      rintro rfl
      rw [Argument.type] at same
      rw [same] at scalar
      cases scalar
    exact (if_neg other).symm
  | pointer stored ptr len held =>
    cases DrpcTypes.toChar_injective same
    rw [Argument.values, slotCount]
    split <;> rfl

section Walk
variable {arguments : DArray Argument} {s : FfiArguments} {type : DrpcTypes} {front : List FfiBlock}
  {argument : Argument}

theorem ffiFromDrpcStep_server (n : Nat) (own : type.isServerOnly = true) (k : s.k = front.length)
    (slots : s.ffiArguments = front ++ List.replicate (n + 1) .null) :
    ffiFromDrpcStep arguments s type =
      .ok ⟨front ++ .malloced :: List.replicate n .null, s.j, s.k + 1, s.fillLater ++ [(type, s.k)], s.repackQue⟩ := by
  rw [ffiFromDrpcStep, if_pos own, slots, k, List.replicate_succ, storeSlot_front]
  rfl

/-- An argument takes as many slots as its type has. -/
theorem ffiFromDrpcStep_client (n : Nat) (client : type.isServerOnly = false) (k : s.k = front.length)
    (slots : s.ffiArguments = front ++ List.replicate (slotCount type + n) .null)
    (found : dArrayGetInternal arguments s.j = .ok (some argument)) (same : argument.type = type.toChar)
    (full : argument.Full) : ffiFromDrpcStep arguments s type =
      .ok ⟨front ++ argument.values.map .holds ++ List.replicate n .null, s.j + 1, s.k + slotCount type, s.fillLater,
        s.repackQue ++ argument.updates s.k⟩ := by
  have count := Argument.values_length same
  rw [ffiFromDrpcStep, if_neg (by simp [client]), dArrayGetType_of_get found, ok_bind, Option.map_some, Option.getD_some,
    dArrayGet_of_get found, slots, k]
  cases argument with
  | packed stored data scalar =>
    have one : slotCount type = 1 := count.symm
    rw [one, Nat.add_comm 1 n, List.replicate_succ, storeSlot_front, ok_bind, ok_bind]
    dsimp only
    rw [(packedSlot_eq_ok scalar).mpr ⟨full, rfl⟩, ok_bind, storeSlot_front, ok_bind, Argument.updates, List.append_nil,
      List.append_assoc]
    rfl
  | pointer stored ptr len held =>
    by_cases buffer : stored = .dSizedbuf
    · have values : (Argument.pointer stored ptr len held).values = [.pointer ptr, .length len] := if_pos buffer
      have two : slotCount type = 2 := by rw [← count, values]; rfl
      rw [two, values, Nat.add_comm 2 n, List.replicate_succ, List.replicate_succ, storeSlot_front, ok_bind, ok_bind]
      dsimp only
      rw [storeSlot_front, ok_bind, if_pos buffer, storeSlot_second, ok_bind, Argument.updates, if_pos buffer,
        List.append_assoc]
      rfl
    · have values : (Argument.pointer stored ptr len held).values = [.pointer ptr] := if_neg buffer
      have one : slotCount type = 1 := by rw [← count, values]; rfl
      rw [one, values, Nat.add_comm 1 n, List.replicate_succ, storeSlot_front, ok_bind, ok_bind]
      dsimp only
      rw [storeSlot_front, ok_bind, if_neg buffer, Argument.updates, if_neg buffer, List.append_assoc]
      rfl

/-- A step goes on only where there is an argument that can be read. -/
theorem ffiFromDrpcStep_inv {s' : FfiArguments} (ran : ffiFromDrpcStep arguments s type = .ok s') :
    type.isServerOnly = true ∧ s'.j = s.j ∨
      type.isServerOnly = false ∧ ReadableArgument arguments s.j ∧ s'.j = s.j + 1 := by
  rw [ffiFromDrpcStep] at ran
  split at ran
  · next own =>
    obtain ⟨_, -, same⟩ := bind_eq_ok.mp ran
    cases same
    exact .inl ⟨own, rfl⟩
  next client =>
  have visible : type.isServerOnly = false := by simpa using client
  obtain ⟨stored, -, ran⟩ := bind_eq_ok.mp ran
  obtain ⟨_, -, ran⟩ := bind_eq_ok.mp ran
  obtain ⟨found, got, ran⟩ := bind_eq_ok.mp ran
  obtain ⟨there, get, same⟩ := bind_eq_ok.mp got
  cases found with
  | none => cases ran
  | some argument =>
    have present := (Option.filter_eq_some_iff.mp (Except.ok.inj same)).1
    subst present
    cases argument with
    | packed type data scalar =>
      obtain ⟨value, filled, ran⟩ := bind_eq_ok.mp ran
      obtain ⟨_, -, same⟩ := bind_eq_ok.mp ran
      cases same
      exact .inr ⟨visible, ⟨_, get, ((packedSlot_eq_ok scalar).mp filled).1⟩, rfl⟩
    | pointer type ptr len held =>
      obtain ⟨_, -, ran⟩ := bind_eq_ok.mp ran
      refine .inr ⟨visible, ⟨_, get, trivial⟩, ?_⟩
      split at ran
      · obtain ⟨_, -, same⟩ := bind_eq_ok.mp ran
        cases same
        rfl
      · cases ran
        rfl

/-- The loop ends only when every argument of the prototype can be read. -/
theorem ffiFromDrpcStep_readable {prototype : List DrpcTypes} {s' : FfiArguments}
    (ran : prototype.foldlM (ffiFromDrpcStep arguments) s = .ok s') :
    ∀ i < (drpcCreateClientPrototype prototype).length, ReadableArgument arguments (s.j + i) := by
  induction prototype generalizing s with
  | nil => exact fun i bound => absurd bound (Nat.not_lt_zero i)
  | cons type prototype ih =>
    rw [List.foldlM_cons] at ran
    obtain ⟨middle, first, rest⟩ := bind_eq_ok.mp ran
    obtain ⟨own, stays⟩ | ⟨client, here, next⟩ := ffiFromDrpcStep_inv first
    · have later := ih rest
      rwa [drpcCreateClientPrototype_cons_server own, ← stays]
    · have later := ih rest
      rw [next] at later
      rw [drpcCreateClientPrototype_cons client, List.length_cons]
      exact forall_shift_succ.mpr ⟨here, later⟩

end Walk

section Run
variable {arguments : DArray Argument} {prototype : List DrpcTypes}

/-- The array has the arguments of a prototype from an index on. -/
def ArgumentsFor (arguments : DArray Argument) (prototype : List DrpcTypes) (j : Nat) : Prop :=
  ∀ i type, (drpcCreateClientPrototype prototype)[i]? = some type → ArgumentAt arguments (j + i) type

theorem ArgumentsFor.server {type : DrpcTypes} {j : Nat} (given : ArgumentsFor arguments (type :: prototype) j)
    (own : type.isServerOnly = true) : ArgumentsFor arguments prototype j := by
  intro i other at_i
  refine given i other ?_
  rw [drpcCreateClientPrototype_cons_server own]
  exact at_i

theorem ArgumentsFor.client {type : DrpcTypes} {j : Nat} (given : ArgumentsFor arguments (type :: prototype) j)
    (client : type.isServerOnly = false) : ArgumentAt arguments j type ∧ ArgumentsFor arguments prototype (j + 1) := by
  rw [ArgumentsFor, drpcCreateClientPrototype_cons client] at given
  refine ⟨given 0 type rfl, fun i other at_i => ?_⟩
  have here := given (i + 1) other at_i
  rwa [show j + (i + 1) = j + 1 + i by omega] at here

/-- What the loop over the prototype leaves. The induction is on the types to
come, with the slots before `k` done. -/
theorem ffiFromDrpc_run (server : ServerValues) {s : FfiArguments} {front : List FfiBlock}
    (given : ArgumentsFor arguments prototype s.j) (k : s.k = front.length)
    (slots : s.ffiArguments = front ++ List.replicate (drpcProtoToFfiLenAdjust prototype) .null) :
    ∃ s' slots queue, prototype.foldlM (ffiFromDrpcStep arguments) s = .ok s' ∧
      s'.ffiArguments = front ++ calleeBlocks arguments.lookup prototype s.j ∧
      s'.fillLater = s.fillLater ++ serverSlots prototype s.k ∧ s'.repackQue = s.repackQue ++ queue ∧
      ffiFromDrpc arguments prototype s.j s.k = .ok (slots, queue) ∧
      List.Forall₂ (FfiSlot.Shows server) slots (calleeValues server arguments.lookup prototype s.j) := by
  induction prototype generalizing s front with
  | nil =>
    refine ⟨s, [], [], rfl, ?_, ?_, ?_, rfl, .nil⟩
    · exact slots
    · exact (List.append_nil _).symm
    · exact (List.append_nil _).symm
  | cons type prototype ih =>
    rw [drpcProtoToFfiLenAdjust_cons] at slots
    rw [List.foldlM_cons, calleeBlocks, serverSlots, calleeValues]
    cases own : type.isServerOnly with
    | true =>
      have one : slotCount type = 1 := by cases type <;> first | rfl | cases own
      obtain ⟨address, value⟩ := server.value_own own
      rw [one, Nat.add_comm] at slots
      have step : ffiFromDrpcStep arguments s type = _ := ffiFromDrpcStep_server _ own k slots
      have next : s.k + 1 = (front ++ [FfiBlock.malloced]).length := by
        rw [List.length_append, k]
        rfl
      obtain ⟨s', rest, queue, ran, blocks, fills, updates, walked, shows⟩ := ih
        (s := ⟨front ++ .malloced :: List.replicate (drpcProtoToFfiLenAdjust prototype) .null, s.j, s.k + 1,
          s.fillLater ++ [(type, s.k)], s.repackQue⟩) (given.server own) next (by rw [List.append_assoc]; rfl)
      refine ⟨s', .server type :: rest, queue, ?_, ?_, ?_, updates, ?_, ?_⟩
      · rw [step]
        exact ran
      · rw [blocks, List.append_assoc]
        rfl
      · rw [fills, List.append_assoc]
        rfl
      · rw [ffiFromDrpc_server s.k own, walked]
        rfl
      · rw [value]
        exact .cons (.server value) shows
    | false =>
      obtain ⟨⟨argument, found, same, full⟩, later⟩ := given.client own
      have looked := dArrayGetInternal_lookup found
      have nobody := server.value_client own
      have step := ffiFromDrpcStep_client _ own k slots found same full
      have next : s.k + slotCount type = (front ++ argument.values.map FfiBlock.holds).length := by
        rw [List.length_append, List.length_map, Argument.values_length same, k]
      obtain ⟨s', rest, queue, ran, blocks, fills, updates, walked, shows⟩ := ih
        (s := ⟨front ++ argument.values.map .holds ++ List.replicate (drpcProtoToFfiLenAdjust prototype) .null, s.j + 1,
          s.k + slotCount type, s.fillLater, s.repackQue ++ argument.updates s.k⟩) later next rfl
      refine ⟨s', argument.values ++ rest, argument.updates s.k ++ queue, ?_, ?_, ?_, ?_, ?_, ?_⟩
      · rw [step]
        exact ran
      · rw [blocks, looked, List.append_assoc]
        rfl
      · rw [fills]
        rfl
      · rw [updates, List.append_assoc]
      · rw [ffiFromDrpc_client s.k own found, argument.slots_eq full, ok_bind, Argument.values_length same, walked]
        rfl
      · rw [nobody, looked]
        exact List.rel_append (List.forall₂_same.mpr fun slot _ => .argument slot) shows

theorem fillSlot_front (front rest : List FfiBlock) (value : Nat) :
    fillSlot (front ++ .malloced :: rest) front.length value = .ok (front ++ .holds (.pointer value) :: rest) := by
  rw [fillSlot, List.getElem?_append_right le_rfl, Nat.sub_self]
  dsimp only [List.getElem?_cons_zero]
  rw [List.set_append_right _ _ le_rfl, Nat.sub_self]
  rfl

theorem drpcFillStep_value {server : ServerValues} {type : DrpcTypes} {address : Nat}
    (value : server.value type = some address) (slots : List FfiBlock) (k : Nat) :
    drpcFillStep server slots (type, k) = fillSlot slots k address := by
  cases type <;> cases value <;> rfl

/-- The fill loop puts the server's values where nothing is yet. -/
theorem drpcFill_run (server : ServerValues) {j : Nat} (front : List FfiBlock)
    (given : ArgumentsFor arguments prototype j) :
    (serverSlots prototype front.length).foldlM (drpcFillStep server)
        (front ++ calleeBlocks arguments.lookup prototype j) =
      .ok (front ++ (calleeValues server arguments.lookup prototype j).map .holds) := by
  induction prototype generalizing j front with
  | nil => rfl
  | cons type prototype ih =>
    rw [serverSlots, calleeBlocks, calleeValues]
    cases own : type.isServerOnly with
    | true =>
      obtain ⟨address, value⟩ := server.value_own own
      have later := ih (front ++ [.holds (.pointer address)]) (given.server own)
      rw [List.length_append, List.length_singleton, List.append_assoc, List.append_assoc] at later
      rw [if_pos rfl, if_pos rfl, List.foldlM_cons, drpcFillStep_value value, fillSlot_front, ok_bind, value]
      exact later
    | false =>
      obtain ⟨⟨argument, found, same, -⟩, rest⟩ := given.client own
      have nobody := server.value_client own
      have later := ih (front ++ argument.values.map .holds) rest
      rw [List.length_append, List.length_map, Argument.values_length same, List.append_assoc,
        List.append_assoc] at later
      rw [if_neg Bool.false_ne_true, if_neg Bool.false_ne_true, nobody, dArrayGetInternal_lookup found]
      dsimp only [Option.map_some, Option.getD_some]
      rw [List.map_append]
      exact later

/-- Every slot has a value of its kind. -/
theorem calleeValues_ofKind (server : ServerValues) {j : Nat} (given : ArgumentsFor arguments prototype j)
    (ordinary : ∀ type ∈ prototype, type ≠ .dVoid ∧ type ≠ .dReturnIs) :
    List.Forall₂ FfiSlot.OfKind (calleeValues server arguments.lookup prototype j) (prototype.flatMap slotKinds) := by
  induction prototype generalizing j with
  | nil => exact .nil
  | cons type prototype ih =>
    obtain ⟨here, others⟩ := List.forall_mem_cons.mp ordinary
    rw [calleeValues, List.flatMap_cons]
    cases own : type.isServerOnly with
    | true =>
      obtain ⟨address, value⟩ := server.value_own own
      have kinds : slotKinds type = [.pointer] := by cases type <;> first | rfl | cases own
      rw [value, kinds]
      exact .cons (.pointer address) (ih (given.server own) others)
    | false =>
      obtain ⟨⟨argument, found, same, full⟩, rest⟩ := given.client own
      have nobody := server.value_client own
      rw [nobody, dArrayGetInternal_lookup found]
      exact List.rel_append (Argument.values_ofKind same own here full) (ih rest others)

/-- Accepted arguments are there, one for each type that a client sees. -/
theorem argument_of_accepted {serv : Option (List DrpcTypes)} {types : List UInt8}
    (ordinary : ∀ type ∈ serv.getD [], type ≠ .dVoid ∧ type ≠ .dReturnIs)
    (extracted : extractPrototype arguments = .ok types)
    (accepted : isArgumentsEqualPrototype serv (some types) = 0) {i : Nat} {type : DrpcTypes}
    (at_i : (drpcCreateClientPrototype (serv.getD []))[i]? = some type) :
    i < dArrayLen arguments ∧ ∃ argument, dArrayGetInternal arguments i = .ok (some argument) ∧ argument.type = type.toChar := by
  obtain ⟨each, shape⟩ := mapM_eq_ok extracted
  rw [isArgumentsEqualPrototype_eq_zero, shape] at accepted
  have entry := congrArg (·[i]?) accepted
  simp only [List.getElem?_map, at_i, Option.map_some] at entry
  obtain ⟨index, inside, read⟩ := Option.map_eq_some_iff.mp entry
  obtain ⟨bound, same⟩ := List.getElem?_eq_some_iff.mp inside
  rw [List.getElem_range] at same
  subst same
  rw [List.length_range] at bound
  have ran := each i (List.mem_range.mpr bound)
  rw [read] at ran
  obtain ⟨found, get, typed⟩ := bind_eq_ok.mp ran
  have notVoid : type ≠ .dVoid := (ordinary type (List.mem_of_mem_filter (List.mem_of_getElem? at_i))).1
  cases found with
  | none =>
    have void : DrpcTypes.dVoid.toChar = type.toChar := Except.ok.inj typed
    exact absurd (DrpcTypes.toChar_injective void).symm notVoid
  | some argument => exact ⟨bound, argument, get, Except.ok.inj typed⟩

end Run

/-- For an accepted array of arguments the slots of the callee are as many as
the prototype asks for, each is of the kind that it asks for, and they hold in
order the server's values and the arguments, if and only if the record of each
scalar holds the bytes of its type: they are copied without a look at its length. -/
theorem drpcServerSlots_hold_iff {serv : Option (List DrpcTypes)} {arguments : DArray Argument} {types : List UInt8}
    (server : ServerValues) (ordinary : ∀ type ∈ serv.getD [], type ≠ .dVoid ∧ type ≠ .dReturnIs)
    (extracted : extractPrototype arguments = .ok types)
    (accepted : isArgumentsEqualPrototype serv (some types) = 0) :
    (∃ values kinds toRepack, drpcServerSlots server arguments (serv.getD []) = .ok (values.map .holds, toRepack) ∧
      values = calleeValues server arguments.lookup (serv.getD []) 0 ∧
      values.length = drpcProtoToFfiLenAdjust (serv.getD []) ∧
      ffiPrototype (serv.getD []) = .ok (kinds.map some) ∧ List.Forall₂ FfiSlot.OfKind values kinds ∧
      ∃ slots, ffiFromDrpc arguments (serv.getD []) 0 0 = .ok (slots, toRepack) ∧
        List.Forall₂ (FfiSlot.Shows server) slots values) ↔
      ∀ i < dArrayLen arguments, ∀ argument, arguments.lookup i = some argument → argument.Full := by
  have named (i : Nat) (type : DrpcTypes) (at_i : (drpcCreateClientPrototype (serv.getD []))[i]? = some type) :=
    argument_of_accepted ordinary extracted accepted at_i
  constructor
  · rintro ⟨values, kinds, toRepack, ran, -⟩ i bound argument held
    obtain ⟨s, walked, -⟩ := bind_eq_ok.mp ran
    obtain ⟨length, -⟩ : arguments.realSize = (drpcCreateClientPrototype (serv.getD [])).length ∧
        Accepts arguments.lookup (serv.getD []) 0 := accepts_of_types
      (by rw [← extractPrototype_types extracted]; exact isArgumentsEqualPrototype_eq_zero.mp accepted)
    obtain ⟨other, get, full⟩ := ffiFromDrpcStep_readable walked i (by rw [← length]; exact bound)
    rw [Nat.zero_add] at get
    rw [dArrayGetInternal_lookup get] at held
    exact Option.some.inj held ▸ full
  · intro full
    have given : ArgumentsFor arguments (serv.getD []) 0 := by
      intro i type at_i
      obtain ⟨bound, argument, get, same⟩ := named i type at_i
      rw [Nat.zero_add]
      exact ⟨argument, get, same, full i bound argument (dArrayGetInternal_lookup get)⟩
    have kinds : ∀ type ∈ serv.getD [], type ≠ .dReturnIs := fun type member => (ordinary type member).2
    obtain ⟨s, slots, queue, ran, blocks, fills, updates, walked, shows⟩ := ffiFromDrpc_run server
      (s := ⟨List.replicate (drpcProtoToFfiLenAdjust (serv.getD [])) .null, 0, 0, [], []⟩) given
      (show 0 = ([] : List FfiBlock).length from rfl) rfl
    have filled := drpcFill_run server [] given
    have ofKind := calleeValues_ofKind server given ordinary
    have table := drpcProtoToFfi_run [] kinds
    refine ⟨_, (serv.getD []).flatMap slotKinds, queue, ?_, rfl, ?_, ?_, ofKind, slots, walked, shows⟩
    · rw [drpcServerSlots, ffiFromDrpcSlots, ran, ok_bind, blocks, fills, updates]
      exact congrArg (fun filled => filled >>= fun slots => pure (slots, queue)) filled
    · rw [ofKind.length_eq, List.length_flatMap, drpcProtoToFfiLenAdjust_eq]
      exact congrArg List.sum (List.map_congr_left fun type member => slotKinds_length (kinds type member))
    · rw [ffiPrototype]
      exact congrArg (fun ran : Outcome (List (Option FfiType) × Nat) => ran >>= fun s => pure s.1) table

/-- A buffer of four bytes and a number. -/
def bufferArguments : DArray Argument where
  realSize := 2
  lookupTable := [.elem (.pointer .dSizedbuf 1 4 (Eq.refl true)),
    .elem (.packed DrpcTypes.dInt32.toChar ⟨DrpcTypes.dInt32.toChar, [7, 0, 0, 0]⟩ (Eq.refl false))]

theorem drpcServerSlots_hold_iff_buffer : ∃ values kinds toRepack,
    drpcServerSlots ⟨10, 20, 30, 40⟩ bufferArguments [.dFnstorage, .dSizedbuf, .dInt32, .dFninfo] =
      .ok (values.map .holds, toRepack) ∧
    values = [.pointer 10, .pointer 1, .length 4, .scalar DrpcTypes.dInt32.toChar [7, 0, 0, 0], .pointer 40] ∧
    ffiPrototype [.dFnstorage, .dSizedbuf, .dInt32, .dFninfo] = .ok (kinds.map some) ∧
    List.Forall₂ FfiSlot.OfKind values kinds := by
  have ordinary : ∀ type ∈ (some [DrpcTypes.dFnstorage, .dSizedbuf, .dInt32, .dFninfo]).getD [],
      type ≠ .dVoid ∧ type ≠ .dReturnIs := by decide
  have extracted : extractPrototype bufferArguments = .ok [DrpcTypes.dSizedbuf.toChar, DrpcTypes.dInt32.toChar] := rfl
  have accepted : isArgumentsEqualPrototype (some [.dFnstorage, .dSizedbuf, .dInt32, .dFninfo])
      (some [DrpcTypes.dSizedbuf.toChar, DrpcTypes.dInt32.toChar]) = 0 := by decide
  obtain ⟨values, kinds, toRepack, filled, same, -, table, ofKind, -⟩ :=
    (drpcServerSlots_hold_iff ⟨10, 20, 30, 40⟩ ordinary extracted accepted).mpr fun i bound argument held => by
      match i with
      | 0 =>
        cases held
        trivial
      | 1 =>
        cases held
        intro width known
        cases known
        decide
  exact ⟨values, kinds, toRepack, filled, same, table, ofKind⟩

/-- A `d_int32` element whose record is a `d_void` one, as a type byte 5 in front of
such a record gives, and the accepted array with it. -/
def shortArguments : DArray Argument where
  realSize := 1
  lookupTable := [.elem (.packed DrpcTypes.dInt32.toChar ⟨DrpcTypes.dVoid.toChar, []⟩ (Eq.refl false))]

/-- The array passes the check, and its number is read outside its record. -/
theorem drpcServerSlots_shortRecord :
    extractPrototype shortArguments = .ok [DrpcTypes.dInt32.toChar] ∧
      isArgumentsEqualPrototype (some [.dInt32]) (some [DrpcTypes.dInt32.toChar]) = 0 ∧
      (drpcServerSlots ⟨10, 20, 30, 40⟩ shortArguments [.dInt32]).map Prod.snd = .error .outside :=
  ⟨rfl, by decide, rfl⟩

end DynamicRPC
