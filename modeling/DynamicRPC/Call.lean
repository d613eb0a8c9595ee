import DynamicRPC.Library.Memory
import DynamicRPC.Protocol

namespace DynamicRPC

/-- The test of `ffi_from_drpc` on the type of an argument. -/
def isPointerChar (type : UInt8) : Bool :=
  type = DrpcTypes.dArray.toChar || type = DrpcTypes.dStruct.toChar || type = DrpcTypes.dQueue.toChar ||
    type = DrpcTypes.dStr.toChar || type = DrpcTypes.dSizedbuf.toChar

/-- An element of an argument array: a packed value, or the address of a block
or a container with, for a buffer, its length. -/
inductive Argument
  | packed (type : UInt8) (data : DrpcType) (scalar : isPointerChar type = false)
  | pointer (type : DrpcTypes) (address len : Nat) (held : type.isPointer = true)

def Argument.type : Argument → UInt8
  | .packed type _ _ => type
  | .pointer type _ _ _ => type.toChar

def Argument.isPacked : Argument → Bool
  | .packed _ _ _ => true
  | .pointer _ _ _ _ => false

instance : DStructElement Argument := ⟨Argument.type, Argument.isPacked⟩

/-- A field of a message: one that the message owns, the address of a
container, or an array of arguments. -/
inductive Field
  | element (e : Element)
  | pointer (type : DrpcTypes) (address : Nat)
  | arguments (a : DArray Argument)

def Field.type : Field → UInt8
  | .element e => e.type
  | .pointer type _ => type.toChar
  | .arguments _ => DrpcTypes.dArray.toChar

def Field.isPacked : Field → Bool
  | .element e => e.isPacked
  | _ => false

instance : DStructElement Field := ⟨Field.type, Field.isPacked⟩

instance : Inhabited Field := ⟨.element default⟩

/-- What one slot of `ffi_call` points to. A scalar has the type that it was got with. -/
inductive FfiSlot
  | server (type : DrpcTypes)
  | pointer (address : Nat)
  | length (len : Nat)
  | scalar (type : UInt8) (bytes : List UInt8)
  | record (data : DrpcType)

/-- `struct drpc_type_update`. -/
structure DrpcTypeUpdate where
  type : DrpcTypes
  len : Nat
  index : Nat
  ptr : Nat

/-- `struct drpc_function`. The body sees its slots and the memory; the low
bytes of the number it returns are the value that `ffi_call` stores. -/
structure DrpcFunction where
  prototype : Option (List DrpcTypes)
  returnType : DrpcTypes
  minimalPermissionLevel : Int
  fn : List FfiSlot → Memory Element → Outcome (Memory Element × Nat)

/-- `drpc_create_client_prototype`. -/
def drpcCreateClientPrototype (serv : List DrpcTypes) : List DrpcTypes := serv.filter fun type => !type.isServerOnly

/-- `is_arguments_equal_prototype`; the lengths that come with null pointers are 0. -/
def isArgumentsEqualPrototype (serv : Option (List DrpcTypes)) (client : Option (List UInt8)) : Int :=
  match serv, client with
  | none, none => 0
  | some serv, none => if (drpcCreateClientPrototype serv).length = 0 then 0 else 1
  | none, some client => if client.length = 0 then 0 else 1
  | some serv, some client =>
    if (drpcCreateClientPrototype serv).length ≠ client.length then 1
    else if (drpcCreateClientPrototype serv).map DrpcTypes.toChar ≠ client then 1
    else 0

/-- What the switch of `d_array_get` stores for a packed element: the value of a
scalar, or the address of the record of another type. -/
def packedSlot (type : UInt8) (data : DrpcType) : Outcome FfiSlot :=
  match charWidth type with
  | some width => do
    let bytes ← drpcDeconvert data width
    pure (.scalar type bytes)
  | none => pure (.record data)

/-- `ffi_from_drpc`: the slots in order and the updates to repack. `j` counts
the arguments and `k` the slots that are done. -/
def ffiFromDrpc (arguments : DArray Argument) :
    List DrpcTypes → Nat → Nat → Outcome (List FfiSlot × List DrpcTypeUpdate)
  | [], _, _ => pure ([], [])
  | type :: prototype, j, k =>
    if type.isServerOnly then do
      let (slots, repackQue) ← ffiFromDrpc arguments prototype j (k + 1)
      pure (.server type :: slots, repackQue)
    else do
      let type ← dArrayGetType arguments j
      let argument ← dArrayGet arguments j type
      match argument with
      | none => .error .assertion
      | some (.packed type data _) => do
        let slot ← packedSlot type data
        let (slots, repackQue) ← ffiFromDrpc arguments prototype (j + 1) (k + 1)
        pure (slot :: slots, repackQue)
      | some (.pointer type ptr len _) =>
        if type = .dSizedbuf then do
          let (slots, repackQue) ← ffiFromDrpc arguments prototype (j + 1) (k + 2)
          pure (.pointer ptr :: .length len :: slots, ⟨type, len, k, ptr⟩ :: repackQue)
        else do
          let (slots, repackQue) ← ffiFromDrpc arguments prototype (j + 1) (k + 1)
          pure (.pointer ptr :: slots, ⟨type, 0, k, ptr⟩ :: repackQue)

/-- The types that `drpc_server_call_fn` extracts from the arguments. -/
def extractPrototype (arguments : DArray Argument) : Outcome (List UInt8) :=
  (List.range (dArrayLen arguments)).mapM fun i => dArrayGetType arguments i

/-- What a setter of a container makes of a pointer: strings and buffers are
copied, containers are kept by address. -/
def dArrayNative (memory : Memory Element) (type : DrpcTypes) (ptr len : Nat) : Outcome (Memory Element × Native Argument) :=
  if ptr = 0 then pure (memory, .null)
  else
    match type with
    | .dStr => do
      let object ← memory.read ptr
      let content ← object.asStr
      let (address, memory) := memory.alloc (.str content.block)
      pure (memory, .element (.pointer .dStr address 0 rfl))
    | .dSizedbuf => do
      let object ← memory.read ptr
      match object with
      | .sizedbuf block =>
        if block.length < len then .error .outside
        else
          let (address, memory) := memory.alloc (.sizedbuf (block.take len))
          pure (memory, .element (.pointer .dSizedbuf address len rfl))
      | _ => .error .outside
    | .dStruct => pure (memory, .element (.pointer .dStruct ptr 0 rfl))
    | .dQueue => pure (memory, .element (.pointer .dQueue ptr 0 rfl))
    | .dArray => pure (memory, .element (.pointer .dArray ptr 0 rfl))
    | _ => pure (memory, .unsupported)

/-- `d_array_set` where the writes behind the table count as a fault. -/
def dArraySetWithin {E : Type} (a : DArray E) (index : Nat) (native : Native E) : Outcome (DArray E) := do
  let (a, stray) ← dArraySet a index native
  if stray = [] then pure a else .error .outside

/-- What the repack loop of `drpc_server_call_fn` changes, with the buffers it released. -/
structure Repacking where
  arguments : DArray Argument
  repacked : DArray Argument
  memory : Memory Element
  returnIs : Int
  freed : List Nat

/-- The test of a repacked pointer against the returned one; `return_is` is an `int8_t`. -/
def repackReturnIs (fnInfo : DrpcFunction) (nativeReturn : Nat) (returnIs : Int) (repack : DrpcTypeUpdate) (i : Nat) :
    Outcome Int :=
  if repack.ptr = nativeReturn then
    if repack.type = fnInfo.returnType then pure (Int.bmod i 256) else .error .assertion
  else pure returnIs

/-- One round of the repack loop. -/
def repackArgument (fnInfo : DrpcFunction) (nativeReturn : Nat) (s : Repacking) (entry : DrpcTypeUpdate × Nat) :
    Outcome Repacking := do
  let returnIs ← repackReturnIs fnInfo nativeReturn s.returnIs entry.1 entry.2
  let (arguments, _) ← dArrayUnlink s.arguments entry.1.index
  let (memory, native) ← dArrayNative s.memory entry.1.type entry.1.ptr entry.1.len
  let repacked ← dArraySetWithin s.repacked entry.2 native
  if entry.1.type = .dSizedbuf then do
    let memory ← memory.free entry.1.ptr
    pure ⟨arguments, repacked, memory, returnIs, entry.1.ptr :: s.freed⟩
  else pure ⟨arguments, repacked, memory, returnIs, s.freed⟩

/-- The value that `d_struct_set` stores under `return`. -/
def returnNative (memory : Memory Element) (type : DrpcTypes) (nativeReturn : Nat) : Outcome (Native Field) :=
  match type with
  | .dStr =>
    if nativeReturn = 0 then pure .null
    else do
      let object ← memory.read nativeReturn
      let content ← object.asStr
      pure (.element (.element (.str content.block)))
  | .dStruct | .dQueue | .dArray => pure (if nativeReturn = 0 then .null else .element (.pointer type nativeReturn))
  | .dSizedbuf => .error .outside
  | _ =>
    match type.scalarWidth with
    | some width => pure (.element (.element (.packed type.toChar ⟨type.toChar, LittleEndian.encode width nativeReturn⟩)))
    | none => pure .unsupported

def setRepacked (returnMsg : DStruct Field) (repackLen : Nat) (repacked : DArray Argument) : Outcome (DStruct Field) :=
  if repackLen > 0 then dStructSet returnMsg (CString.ofString "repacked_arguments") (.element (.arguments repacked))
  else pure returnMsg

def setReturn (returnMsg : DStruct Field) (fnInfo : DrpcFunction) (memory : Memory Element) (nativeReturn : Nat)
    (returnIs : Int) : Outcome (DStruct Field) :=
  if returnIs = -1 then
    if fnInfo.returnType = .dVoid then pure returnMsg
    else do
      let native ← returnNative memory fnInfo.returnType nativeReturn
      dStructSet returnMsg (CString.ofString "return") native
  else
    dStructSet returnMsg (CString.ofString "return_is")
      (.element (.element (.packed DrpcTypes.dInt8.toChar
        ⟨DrpcTypes.dInt8.toChar, LittleEndian.encode 1 (returnIs % 256).toNat⟩)))

/-- What `drpc_proto_to_ffi` leaves of the prototype it is given. -/
def drpcProtoToFfi (prototype : List DrpcTypes) : List DrpcTypes :=
  prototype.map fun type => if type = .dReturnIs then .dVoid else type

theorem drpcProtoToFfi_eq_self {prototype : List DrpcTypes} (plain : .dReturnIs ∉ prototype) :
    drpcProtoToFfi prototype = prototype := by
  have each : ∀ type ∈ prototype, (if type = .dReturnIs then .dVoid else type) = type := by
    intro type member
    refine if_neg fun same => ?_
    rw [same] at member
    exact plain member
  rw [drpcProtoToFfi, List.map_congr_left each, List.map_id']

theorem returnIs_not_mem_drpcProtoToFfi (prototype : List DrpcTypes) : .dReturnIs ∉ drpcProtoToFfi prototype := by
  intro member
  obtain ⟨type, -, same⟩ := List.mem_map.mp member
  split at same
  · cases same
  · next other => exact other same

theorem drpcProtoToFfi_idem (prototype : List DrpcTypes) :
    drpcProtoToFfi (drpcProtoToFfi prototype) = drpcProtoToFfi prototype :=
  drpcProtoToFfi_eq_self (returnIs_not_mem_drpcProtoToFfi prototype)

/-- A call that was carried out. The first call of a function writes to its prototype. -/
structure CallResult where
  arguments : DArray Argument
  repacked : Option (DArray Argument)
  returnMsg : DStruct Field
  memory : Memory Element
  freed : List Nat
  fnInfo : DrpcFunction

/-- The part of `drpc_server_call_fn` before `ffi_call`: `none` for the return value 1. -/
def drpcServerPrepareFn (arguments : Option (DArray Argument)) (fnInfo : DrpcFunction) :
    Outcome (Option (DArray Argument × List FfiSlot × List DrpcTypeUpdate)) :=
  match arguments with
  | none => .error .assertion
  | some arguments => do
    let extractedPrototype ← extractPrototype arguments
    if isArgumentsEqualPrototype fnInfo.prototype (some extractedPrototype) ≠ 0 then pure none
    else do
      let (slots, toRepack) ← ffiFromDrpc arguments (fnInfo.prototype.getD []) 0 0
      pure (some (arguments, slots, toRepack))

/-- The part of `drpc_server_call_fn` from `ffi_call` on. -/
def drpcServerInvokeFn (memory : Memory Element) (fnInfo : DrpcFunction) (arguments : DArray Argument)
    (slots : List FfiSlot) (toRepack : List DrpcTypeUpdate) (returnMsg : DStruct Field) : Outcome CallResult := do
  let (memory, nativeReturn) ← fnInfo.fn slots memory
  let s ← toRepack.zipIdx.foldlM (repackArgument fnInfo nativeReturn)
    ⟨arguments, newDArray toRepack.length, memory, -1, []⟩
  let returnMsg ← setRepacked returnMsg toRepack.length s.repacked
  let returnMsg ← setReturn returnMsg fnInfo s.memory nativeReturn s.returnIs
  pure ⟨s.arguments, if toRepack.length > 0 then some s.repacked else none, returnMsg, s.memory, s.freed,
    { fnInfo with prototype := fnInfo.prototype.map drpcProtoToFfi }⟩

/-- `drpc_server_call_fn`: `none` for the return value 1. -/
def drpcServerCallFn (memory : Memory Element) (arguments : Option (DArray Argument)) (fnInfo : DrpcFunction)
    (returnMsg : DStruct Field) : Outcome (Option CallResult) := do
  let prepared ← drpcServerPrepareFn arguments fnInfo
  match prepared with
  | none => pure none
  | some (arguments, slots, toRepack) => do
    let result ← drpcServerInvokeFn memory fnInfo arguments slots toRepack returnMsg
    pure (some result)

end DynamicRPC
