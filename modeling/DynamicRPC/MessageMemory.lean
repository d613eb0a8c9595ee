import DynamicRPC.HandleCall
import DynamicRPC.HashtableMap

namespace DynamicRPC
open Outcome

/-! A message on the wire owns its arguments; in the memory of a process they
are objects of their own. -/

/-- The element behind the pointer of an argument or a field. -/
def readObject (memory : Memory Element) (type : DrpcTypes) (address : Nat) : Outcome Element := do
  let object ← memory.read address
  if object.type = type.toChar then pure object else .error .outside

/-- The content behind a pointer that is passed with a length. -/
def readArgument (memory : Memory Element) (type : DrpcTypes) (address len : Nat) : Outcome Element := do
  let object ← readObject memory type address
  match object with
  | .sizedbuf block => if block.length < len then .error .outside else pure (.sizedbuf (block.take len))
  | object => pure object

/-- What the encoder finds behind an argument. -/
def Argument.resolve (memory : Memory Element) : Argument → Outcome Element
  | .packed type data _ => pure (.packed type data)
  | .pointer type address len _ => readArgument memory type address len

def Cell.resolve (memory : Memory Element) : Cell Argument → Outcome (Cell Element)
  | .elem argument => do
    let e ← argument.resolve memory
    pure (.elem e)
  | .null => pure .null
  | .uninit => pure .uninit
  | .dangling => pure .dangling

def DArray.resolve (memory : Memory Element) (a : DArray Argument) : Outcome (DArray Element) := do
  let cells ← a.lookupTable.mapM (Cell.resolve memory)
  pure ⟨a.realSize, cells⟩

def Field.resolve (memory : Memory Element) : Field → Outcome Element
  | .element e => pure e
  | .pointer type address => readObject memory type address
  | .arguments a => do
    let a ← a.resolve memory
    pure (.array a)

def HashtableEntry.resolve (memory : Memory Element) : HashtableEntry Field → Outcome (HashtableEntry Element)
  | .live key field => do
    let e ← field.resolve memory
    pure (.live key e)
  | .null => pure .null
  | .dead => pure .dead

/-- The message that the encoder finds. -/
def DStruct.resolve (memory : Memory Element) (message : DStruct Field) : Outcome (DStruct Element) := do
  let body ← message.hashtable.body.mapM (HashtableEntry.resolve memory)
  pure ⟨⟨message.hashtable.size, body⟩, message.currentLen⟩

/-- An element that the decoder built, as an argument. -/
def Element.load (memory : Memory Element) : Element → Outcome (Memory Element × Argument)
  | .packed type data =>
    if scalar : isPointerChar type = false then pure (memory, .packed type data scalar) else .error .outside
  | .str block => pure ((memory.alloc (.str block)).2, .pointer .dStr memory.next 0 (Eq.refl true))
  | .sizedbuf block => pure ((memory.alloc (.sizedbuf block)).2, .pointer .dSizedbuf memory.next block.length (Eq.refl true))
  | .dstruct d => pure ((memory.alloc (.dstruct d)).2, .pointer .dStruct memory.next 0 (Eq.refl true))
  | .queue q => pure ((memory.alloc (.queue q)).2, .pointer .dQueue memory.next 0 (Eq.refl true))
  | .array a => pure ((memory.alloc (.array a)).2, .pointer .dArray memory.next 0 (Eq.refl true))

def loadCells (memory : Memory Element) : List (Cell Element) → Outcome (Memory Element × List (Cell Argument))
  | [] => pure (memory, [])
  | .elem e :: cells => do
    let (memory, argument) ← e.load memory
    let (memory, cells) ← loadCells memory cells
    pure (memory, .elem argument :: cells)
  | .null :: cells => do
    let (memory, cells) ← loadCells memory cells
    pure (memory, .null :: cells)
  | .uninit :: cells => do
    let (memory, cells) ← loadCells memory cells
    pure (memory, .uninit :: cells)
  | .dangling :: cells => do
    let (memory, cells) ← loadCells memory cells
    pure (memory, .dangling :: cells)

/-- A received message whose array under a key holds arguments. -/
def loadMessage (key : CString) (memory : Memory Element) (message : DStruct Element) :
    Outcome (Memory Element × DStruct Field) := do
  let found ← dStructGet message key .dArray
  match found with
  | some (.array a) => do
    let (memory, cells) ← loadCells memory a.lookupTable
    pure (memory, message.mapKey fun other e => if other = key then .arguments ⟨a.realSize, cells⟩ else .element e)
  | _ => pure (memory, message.mapKey fun _ e => .element e)

instance : Inhabited (Cell Element) := ⟨.null⟩

instance : Inhabited (HashtableEntry Element) := ⟨.null⟩

end DynamicRPC
