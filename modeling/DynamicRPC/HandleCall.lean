import DynamicRPC.Call

namespace DynamicRPC

/-- The part of `struct drpc_server` that a call uses: the table of function
names and the records it points to. -/
structure CallServer where
  functions : Hashtable Nat
  records : Nat → DrpcFunction

/-- A message as the two ends of a transport see it in memory. -/
structure MemoryMessage where
  messageType : DrpcProtocol
  message : Option (DStruct Field)

/-- The array behind a `d_array` field of a message in memory. -/
def Field.asArguments : Field → Outcome (DArray Argument)
  | .arguments a => pure a
  | _ => .error .outside

def Field.asStr : Field → Outcome CString
  | .element e => e.asStr
  | _ => .error .outside

/-- The array that a getter of an optional `d_array` field leaves behind the pointer. -/
def fieldArguments : Option Field → Outcome (Option (DArray Argument))
  | none => pure none
  | some field => do
    let a ← field.asArguments
    pure (some a)

/-- What `drpc_handle_call` did: its reply and return value, the message as it
leaves it, the memory and the function records. -/
structure HandledCall where
  reply : MemoryMessage
  handleRet : Int
  received : DStruct Field
  memory : Memory Element
  records : Nat → DrpcFunction

/-- The test of the permission level in `drpc_handle_call`. -/
def permitted (clientPerm : Int) (fnInfo : DrpcFunction) : Prop :=
  (clientPerm > fnInfo.minimalPermissionLevel ∧ fnInfo.minimalPermissionLevel ≠ -1) ∨ clientPerm = -1

instance (clientPerm : Int) (fnInfo : DrpcFunction) : Decidable (permitted clientPerm fnInfo) :=
  inferInstanceAs (Decidable (_ ∨ _))

/-- `drpc_handle_call`. -/
def drpcHandleCall (server : CallServer) (clientPerm : Int) (memory : Memory Element)
    (receivedMessage : Option (DStruct Field)) : Outcome HandledCall :=
  match receivedMessage with
  | none => .error .assertion
  | some received => do
    let found ← dStructGet received (CString.ofString "fn_name") .dStr
    match found with
    | none => pure ⟨⟨.bad, none⟩, 1, received, memory, server.records⟩
    | some name => do
      let fnName ← name.asStr
      let found ← dStructGet received (CString.ofString "arguments") .dArray
      let arguments ← fieldArguments found
      let callFn ← hashtableGet server.functions fnName
      match callFn with
      | none => pure ⟨⟨.notfound, none⟩, 1, received, memory, server.records⟩
      | some record =>
        if permitted clientPerm (server.records record) then do
          let called ← drpcServerCallFn memory arguments (server.records record) newDStruct
          match called with
          | none => pure ⟨⟨.bad, none⟩, 1, received, memory, server.records⟩
          | some result => do
            let received ← dStructModify received (CString.ofString "arguments") fun _ => .arguments result.arguments
            pure ⟨⟨.return, some result.returnMsg⟩, 0, received, result.memory,
              Function.update server.records record result.fnInfo⟩
        else pure ⟨⟨.eperm, none⟩, 0, received, memory, server.records⟩

def Cell.free (memory : Memory Element) : Cell Argument → Outcome (Memory Element)
  | .elem (.pointer _ address _ _) => memory.free address
  | .elem (.packed _ _ _) => pure memory
  | .null => pure memory
  | .uninit => .error .uninitialised
  | .dangling => .error .outside

/-- `d_array_free` on the objects that an array refers to. -/
def dArrayFree (memory : Memory Element) (a : DArray Argument) : Outcome (Memory Element) :=
  a.lookupTable.foldlM Cell.free memory

def HashtableEntry.free (memory : Memory Element) : HashtableEntry Field → Outcome (Memory Element)
  | .live _ (.pointer _ address) => memory.free address
  | .live _ (.arguments a) => dArrayFree memory a
  | _ => pure memory

/-- `d_struct_free` on the objects that a message refers to; what the message
owns goes with it. -/
def dStructFree (memory : Memory Element) (message : DStruct Field) : Outcome (Memory Element) :=
  message.hashtable.body.foldlM HashtableEntry.free memory

/-- The `drpc_call` event of `drpc_client_executor`: the handler and, after its
reply is sent, `d_struct_free(event->message)`. -/
def drpcExecuteCall (server : CallServer) (clientPerm : Int) (memory : Memory Element)
    (message : Option (DStruct Field)) : Outcome HandledCall := do
  let handled ← drpcHandleCall server clientPerm memory message
  let memory ← dStructFree handled.memory handled.received
  pure { handled with memory := memory }

end DynamicRPC
