import DynamicRPC.HandleCall
import DynamicRPC.CallPrepare

namespace DynamicRPC

/-- `va_arg`, on arguments that each fill one register. -/
def vaArg : List Nat → Outcome (Nat × List Nat)
  | [] => .error .outside
  | word :: varargs => pure (word, varargs)

/-- The length that follows the pointer of a buffer. -/
def vaLen (type : DrpcTypes) (varargs : List Nat) : Outcome (Nat × List Nat) :=
  if type = .dSizedbuf then vaArg varargs else pure (0, varargs)

/-- An `int` in a `uint64_t`. -/
def signExtend (word : Nat) : Nat :=
  if word % 2 ^ 32 < 2 ^ 31 then word % 2 ^ 32 else word % 2 ^ 32 + (2 ^ 64 - 2 ^ 32)

/-- What `generic_input` holds for a type, where `fromDouble` is the conversion
of a `double` to `uint64_t`. Types without a case take no argument. -/
def genericInput (fromDouble : Nat → Nat) (type : DrpcTypes) (varargs : List Nat) : Outcome (Nat × List Nat) :=
  match type with
  | .dUint8 | .dInt8 | .dUint16 | .dInt16 | .dInt32 => do
    let (word, varargs) ← vaArg varargs
    pure (signExtend word, varargs)
  | .dUint32 => do
    let (word, varargs) ← vaArg varargs
    pure (word % 2 ^ 32, varargs)
  | .dUint64 | .dInt64 => do
    let (word, varargs) ← vaArg varargs
    pure (word % 2 ^ 64, varargs)
  | .dFloat | .dDouble => do
    let (word, varargs) ← vaArg varargs
    pure (fromDouble word % 2 ^ 64, varargs)
  | _ => pure (0, varargs)

/-- What a setter makes of `generic_input`. -/
def scalarNative (type : DrpcTypes) (scalar : type.isPointer = false) (input : Nat) : Native Argument :=
  match type.scalarWidth with
  | some width =>
    .element (.packed type.toChar ⟨type.toChar, LittleEndian.encode width input⟩ ((isPointerChar_toChar type).trans scalar))
  | none => .unsupported

/-- What the loop of `drpc_client_call_internal` over the prototype has built. -/
structure ClientArguments where
  arguments : DArray Argument
  memory : Memory Element
  varargs : List Nat
  repackable : List DrpcTypeUpdate

def clientArgument (fromDouble : Nat → Nat) (s : ClientArguments) (entry : DrpcTypes × Nat) : Outcome ClientArguments :=
  if pointer : entry.1.isPointer = true then do
    let (ptr, varargs) ← vaArg s.varargs
    let (len, varargs) ← vaLen entry.1 varargs
    let (memory, native) ← dArrayNative s.memory entry.1 ptr len
    let arguments ← dArraySetWithin s.arguments entry.2 native
    pure ⟨arguments, memory, varargs, s.repackable ++ [⟨entry.1, len, 0, ptr⟩]⟩
  else do
    let (input, varargs) ← genericInput fromDouble entry.1 s.varargs
    let arguments ← dArraySetWithin s.arguments entry.2 (scalarNative entry.1 (by simpa using pointer) input)
    pure ⟨arguments, s.memory, varargs, s.repackable⟩

/-- The call message with the memory and the queue of the pointers passed. -/
structure ClientCall where
  message : DStruct Field
  memory : Memory Element
  repackable : List DrpcTypeUpdate

/-- `drpc_client_call_internal` up to the exchange. The array is in the message
from the start; here it is put in when it is complete. -/
def drpcClientCallMessage (fromDouble : Nat → Nat) (memory : Memory Element) (fnName : CString)
    (prototype : List DrpcTypes) (varargs : List Nat) : Outcome ClientCall := do
  let built ← prototype.zipIdx.foldlM (clientArgument fromDouble) ⟨newDArray prototype.length, memory, varargs, []⟩
  let message ← dStructSet newDStruct (CString.ofString "fn_name") (.element (.element (.str fnName.block)))
  let message ← dStructSet message (CString.ofString "arguments") (.element (.arguments built.arguments))
  pure ⟨message, built.memory, built.repackable⟩

/-- The caller's objects that a container of the caller holds, which go when its insides are freed. -/
abbrev Contents := Nat → List Nat

/-- Of a caller whose containers hold copies only. -/
def noContents : Contents := fun _ => []

/-- The container cases: what the original holds is freed and `*original = *repacked`, unless
they are the same. Then it holds none of the caller's objects any more. -/
def moveContainer (contents : Contents) (memory : Memory Element) (original repacked : Nat) :
    Outcome (Memory Element × Contents) :=
  if original = repacked then pure (memory, contents)
  else do
    let memory ← (contents original).foldlM Memory.free memory
    let object ← memory.read repacked
    let memory ← memory.write original object
    let memory ← memory.free repacked
    pure (memory, Function.update contents original [])

/-- The bytes that the `d_str` case copies into the caller's string. -/
def moveStr (memory : Memory Element) (original repacked : Nat) : Outcome (Memory Element) :=
  if original = repacked then pure memory
  else do
    let object ← memory.read original
    match object with
    | .str block => do
      let originalStr ← CString.read block
      let object ← memory.read repacked
      let repackedStr ← object.asStr
      let strcpyLen := min originalStr.bytes.length repackedStr.bytes.length + 1
      let memory ← memory.write original (.str (repackedStr.block.take strcpyLen ++ block.drop strcpyLen))
      memory.free repacked
    | _ => .error .outside

/-- The `memcpy` of the `d_sizedbuf` case. -/
def moveBuffer (memory : Memory Element) (original repacked len : Nat) : Outcome (Memory Element) := do
  let object ← memory.read original
  let source ← memory.read repacked
  match object, source with
  | .sizedbuf block, .sizedbuf content =>
    if block.length < len ∨ content.length < len then .error .outside
    else memory.write original (.sizedbuf (content.take len ++ block.drop len))
  | _, _ => .error .outside

/-- What the loop over the repacked arguments changes. -/
structure ClientRepack where
  repacked : DArray Argument
  memory : Memory Element
  repackable : List DrpcTypeUpdate
  nativeReturn : Option Field
  contents : Contents

/-- The pointer at an index, with the assertion that it is there. -/
def repackedPointer (repacked : DArray Argument) (i : Nat) (type : UInt8) : Outcome (Nat × Nat) := do
  let element ← dArrayGet repacked i type
  match element with
  | some (.pointer _ address len _) => pure (address, len)
  | _ => .error .assertion

/-- `d_array_unlink` with the assertion that it succeeds. -/
def unlinkRepacked (repacked : DArray Argument) (i : Nat) : Outcome (DArray Argument) := do
  let (repacked, done) ← dArrayUnlink repacked i
  if done then pure repacked else .error .assertion

/-- One round of the loop over the repacked arguments. -/
def clientRepack (returnIs : Int) (s : ClientRepack) (i : Nat) : Outcome ClientRepack := do
  let type ← dArrayGetType s.repacked i
  match s.repackable with
  | [] => .error .assertion
  | repack :: repackable =>
    let nativeReturn := if returnIs = i then some (Field.pointer repack.type repack.ptr) else s.nativeReturn
    if repack.type.toChar ≠ type then .error .assertion
    else
      match repack.type with
      | .dStruct | .dArray | .dQueue => do
        let (address, _) ← repackedPointer s.repacked i type
        let repacked ← unlinkRepacked s.repacked i
        let (memory, contents) ← moveContainer s.contents s.memory repack.ptr address
        pure ⟨repacked, memory, repackable, nativeReturn, contents⟩
      | .dStr => do
        let (address, _) ← repackedPointer s.repacked i type
        let repacked ← unlinkRepacked s.repacked i
        let memory ← moveStr s.memory repack.ptr address
        pure ⟨repacked, memory, repackable, nativeReturn, s.contents⟩
      | .dSizedbuf => do
        let (address, len) ← repackedPointer s.repacked i type
        let memory ← moveBuffer s.memory repack.ptr address len
        pure ⟨s.repacked, memory, repackable, s.nativeReturn, s.contents⟩
      | _ => pure ⟨s.repacked, s.memory, repackable, s.nativeReturn, s.contents⟩

/-- `drpc_to_int8` on the record of a field. -/
def Field.asInt8 : Field → Outcome Int
  | .element (.packed _ data) => do
    let bytes ← drpcDeconvert data 1
    pure (Int.bmod (LittleEndian.decode bytes) 256)
  | _ => .error .outside

/-- `return_is`, which stays -1 where the reply has no such field. -/
def readReturnIs : Option Field → Outcome Int
  | none => pure (-1)
  | some field => field.asInt8

/-- What `drpc_client_call_internal` returns, with the memory it leaves and
what it stored through `native_return`. -/
structure ClientFinish where
  ret : DrpcClientErrors
  memory : Memory Element
  nativeReturn : Option Field

/-- The loop over the repacked arguments, if the reply has some. -/
def clientRepackAll (contents : Contents) (memory : Memory Element) (repackable : List DrpcTypeUpdate)
    (message : DStruct Field) (returnIs : Int) : Outcome (DStruct Field × ClientRepack) := do
  let found ← dStructGet message (CString.ofString "repacked_arguments") .dArray
  match found with
  | none => pure (message, ⟨newDArray 0, memory, repackable, none, contents⟩)
  | some field => do
    let repacked ← field.asArguments
    let s ← (List.range (dArrayLen repacked)).foldlM (clientRepack returnIs)
      ⟨repacked, memory, repackable, none, contents⟩
    let message ← dStructModify message (CString.ofString "repacked_arguments") fun _ => .arguments s.repacked
    pure (message, s)

/-- The return value that is none of the arguments. -/
def clientReturn (message : DStruct Field) (returnIs : Int) (nativeReturn : Option Field) :
    Outcome (DStruct Field × Option Field) :=
  if returnIs = -1 then do
    let type ← dStructGetType message (CString.ofString "return")
    if type = DrpcTypes.dVoid.toChar then pure (message, nativeReturn)
    else do
      let found ← hashtableGet message.hashtable (CString.ofString "return")
      let (message, _) ← dStructUnlink message (CString.ofString "return")
      pure (message, found)
  else pure (message, nativeReturn)

/-- `drpc_client_call_internal` from the received reply on. -/
def drpcClientCallFinish (contents : Contents) (memory : Memory Element) (repackable : List DrpcTypeUpdate)
    (recv : MemoryMessage) : Outcome ClientFinish :=
  if recv.messageType ≠ .return then do
    match recv.message with
    | none => pure ⟨.badreply, memory, none⟩
    | some message => do
      let memory ← dStructFree memory message
      pure ⟨.badreply, memory, none⟩
  else
    match recv.message with
    | none => .error .assertion
    | some message => do
      let found ← dStructGet message (CString.ofString "return_is") .dInt8
      let returnIs ← readReturnIs found
      let (message, s) ← clientRepackAll contents memory repackable message returnIs
      let (message, nativeReturn) ← clientReturn message returnIs s.nativeReturn
      let memory ← dStructFree s.memory message
      pure ⟨.ok, memory, nativeReturn⟩

/-- `drpc_client_call` on a dqueue client: the executor reads the caller's
message and the reply goes back before the message is freed. The caller goes on
when both are done. -/
def drpcDqueueCall (server : CallServer) (clientPerm : Int) (fromDouble : Nat → Nat) (contents : Contents)
    (memory : Memory Element) (fnName : CString) (prototype : List DrpcTypes) (varargs : List Nat) :
    Outcome ClientFinish := do
  let call ← drpcClientCallMessage fromDouble memory fnName prototype varargs
  let handled ← drpcExecuteCall server clientPerm call.memory (some call.message)
  drpcClientCallFinish contents handled.memory call.repackable handled.reply

end DynamicRPC
