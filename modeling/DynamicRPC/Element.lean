import DynamicRPC.Array

namespace DynamicRPC

/-- `struct d_struct_element` with everything it owns. A packed element holds a
`drpc_type`; the others hold the block or the container behind `data`. A queue
may hold null pointers beside its elements. -/
inductive Element
  | packed (type : UInt8) (data : DrpcType)
  | str (block : List UInt8)
  | sizedbuf (block : List UInt8)
  | dstruct (d : DStruct Element)
  | queue (q : List (Option Element))
  | array (a : DArray Element)

instance : Inhabited Element := ⟨.sizedbuf []⟩

def Element.type : Element → UInt8
  | .packed type _ => type
  | .str _ => DrpcTypes.dStr.toChar
  | .sizedbuf _ => DrpcTypes.dSizedbuf.toChar
  | .dstruct _ => DrpcTypes.dStruct.toChar
  | .queue _ => DrpcTypes.dQueue.toChar
  | .array _ => DrpcTypes.dArray.toChar

def Element.isPacked : Element → Bool
  | .packed _ _ => true
  | _ => false

instance : DStructElement Element := ⟨Element.type, Element.isPacked⟩

abbrev DQueue := List (Option Element)

/-- What an element means to its readers: containers are a finite map, a
sequence and a partial function, whatever their tables look like. -/
inductive Value
  | scalar (type : UInt8) (data : DrpcType)
  | str (content : List UInt8)
  | sizedbuf (block : List UInt8)
  | struct (fields : CString → Option Value)
  | queue (items : List (Option Value))
  | array (items : Nat → Option Value)

mutual
def Element.value : Element → Value
  | .packed type data => .scalar type data
  | .str block => .str (block.takeWhile (· ≠ 0))
  | .sizedbuf block => .sizedbuf block
  | .dstruct ⟨⟨_, body⟩, _⟩ => .struct (fieldsValue body)
  | .queue q => .queue (queueValue q)
  | .array ⟨_, cells⟩ => .array (cellsValue cells)

def fieldsValue : List (HashtableEntry Element) → CString → Option Value
  | [], _ => none
  | .null :: rest, key => fieldsValue rest key
  | .dead :: rest, key => fieldsValue rest key
  | .live other e :: rest, key => if key = other then some e.value else fieldsValue rest key

def queueValue : List (Option Element) → List (Option Value)
  | [] => []
  | none :: rest => none :: queueValue rest
  | some e :: rest => some e.value :: queueValue rest

def cellsValue : List (Cell Element) → Nat → Option Value
  | [], _ => none
  | .elem e :: _, 0 => some e.value
  | .uninit :: _, 0 => none
  | .null :: _, 0 => none
  | .dangling :: _, 0 => none
  | .elem _ :: rest, i + 1 => cellsValue rest i
  | .uninit :: rest, i + 1 => cellsValue rest i
  | .null :: rest, i + 1 => cellsValue rest i
  | .dangling :: rest, i + 1 => cellsValue rest i
end

def DStruct.value (d : DStruct Element) : CString → Option Value := fieldsValue d.hashtable.body

def DArray.value (a : DArray Element) : Nat → Option Value := cellsValue a.lookupTable

/-- The elements that the setters and the readers of a well-behaved caller
build: scalars of their type's width, terminated strings, tables that keep
their invariants and queues without null pointers, all the way down. -/
inductive Element.Wf : Element → Prop
  | packed {t : DrpcTypes} {bytes : List UInt8} (sized : t.scalarWidth = some bytes.length) :
      Wf (.packed t.toChar ⟨t.toChar, bytes⟩)
  | str {block : List UInt8} (terminated : 0 ∈ block) : Wf (.str block)
  | sizedbuf {block : List UInt8} : Wf (.sizedbuf block)
  | dstruct {d : DStruct Element} (wf : d.Wf) (fields : ∀ key e, (key, e) ∈ d.hashtable.bindings → Wf e) :
      Wf (.dstruct d)
  | queue {q : DQueue} (full : none ∉ q) (items : ∀ e, some e ∈ q → Wf e) : Wf (.queue q)
  | array {a : DArray Element} (wf : a.Wf) (items : ∀ e, .elem e ∈ a.lookupTable → Wf e) : Wf (.array a)

/-- Every array in the element has its occupied indices exactly `0..n-1`. -/
inductive Element.Dense : Element → Prop
  | packed {type : UInt8} {data : DrpcType} : Dense (.packed type data)
  | str {block : List UInt8} : Dense (.str block)
  | sizedbuf {block : List UInt8} : Dense (.sizedbuf block)
  | dstruct {d : DStruct Element} (fields : ∀ key e, (key, e) ∈ d.hashtable.bindings → Dense e) :
      Dense (.dstruct d)
  | queue {q : DQueue} (items : ∀ e, some e ∈ q → Dense e) : Dense (.queue q)
  | array {a : DArray Element} (dense : a.Dense) (items : ∀ e, .elem e ∈ a.lookupTable → Dense e) :
      Dense (.array a)

/-- The element is as a decoder builds it: every table is free of tombstones
and every array counts its elements and nothing else. -/
inductive Element.Compact : Element → Prop
  | packed {type : UInt8} {data : DrpcType} : Compact (.packed type data)
  | str {block : List UInt8} : Compact (.str block)
  | sizedbuf {block : List UInt8} : Compact (.sizedbuf block)
  | dstruct {d : DStruct Element} (noDead : d.hashtable.deadCount = 0)
      (fields : ∀ key e, (key, e) ∈ d.hashtable.bindings → Compact e) : Compact (.dstruct d)
  | queue {q : DQueue} (items : ∀ e, some e ∈ q → Compact e) : Compact (.queue q)
  | array {a : DArray Element} (counted : a.realSize = a.elements.length)
      (items : ∀ e, .elem e ∈ a.lookupTable → Compact e) : Compact (.array a)

theorem DStruct.value_eq (d : DStruct Element) (key : CString) :
    d.value key = (d.hashtable.lookup key).map Element.value := by
  unfold DStruct.value Hashtable.lookup Hashtable.bindings
  induction d.hashtable.body with
  | nil => rfl
  | cons entry body ih =>
    cases entry with
    | null => exact ih
    | dead => exact ih
    | live other e =>
      have split : (HashtableEntry.live other e :: body).filterMap HashtableEntry.binding =
          (other, e) :: body.filterMap HashtableEntry.binding := rfl
      rw [fieldsValue, split, List.lookup_cons]
      by_cases same : key = other
      · simp [same]
      · rw [if_neg same, beq_false_of_ne same, ih]

theorem queueValue_eq (q : DQueue) : queueValue q = q.map (Option.map Element.value) := by
  induction q with
  | nil => rfl
  | cons item q ih => cases item <;> simp [queueValue, ih]

theorem cellsValue_eq (cells : List (Cell Element)) (i : Nat) :
    cellsValue cells i = (cells[i]?.bind Cell.element).map Element.value := by
  induction cells generalizing i with
  | nil => rfl
  | cons cell cells ih =>
    cases i with
    | zero => cases cell <;> rfl
    | succ i => cases cell <;> simp [cellsValue, ih]

theorem DArray.value_eq (a : DArray Element) (i : Nat) : a.value i = (a.lookup i).map Element.value :=
  cellsValue_eq a.lookupTable i

/-- Induction on an element through the containers it holds. -/
theorem Element.induct {P : Element → Prop} (packed : ∀ type data, P (.packed type data))
    (str : ∀ block, P (.str block)) (sizedbuf : ∀ block, P (.sizedbuf block))
    (dstruct : ∀ d : DStruct Element, (∀ key e, (key, e) ∈ d.hashtable.bindings → P e) → P (.dstruct d))
    (queue : ∀ q : DQueue, (∀ e, some e ∈ q → P e) → P (.queue q))
    (array : ∀ a : DArray Element, (∀ e, .elem e ∈ a.lookupTable → P e) → P (.array a)) (e : Element) : P e := by
  induction size : sizeOf e using Nat.strong_induction_on generalizing e with
  | _ n ih =>
    subst size
    cases e with
    | packed type data => exact packed type data
    | str block => exact str block
    | sizedbuf block => exact sizedbuf block
    | dstruct d =>
      refine dstruct d fun key e member => ih _ ?_ e rfl
      obtain ⟨⟨size, body⟩, len⟩ := d
      obtain ⟨i, at_i⟩ := mem_bindings_iff.mp member
      have smaller := List.sizeOf_lt_of_mem (List.mem_of_getElem? at_i)
      simp only [HashtableEntry.live.sizeOf_spec] at smaller
      simp only [Element.dstruct.sizeOf_spec, DStruct.mk.sizeOf_spec, Hashtable.mk.sizeOf_spec]
      omega
    | queue q =>
      refine queue q fun e member => ih _ ?_ e rfl
      have smaller := List.sizeOf_lt_of_mem member
      simp only [Option.some.sizeOf_spec] at smaller
      simp only [Element.queue.sizeOf_spec]
      omega
    | array a =>
      refine array a fun e member => ih _ ?_ e rfl
      obtain ⟨size, cells⟩ := a
      have smaller := List.sizeOf_lt_of_mem member
      simp only [Cell.elem.sizeOf_spec] at smaller
      simp only [Element.array.sizeOf_spec, DArray.mk.sizeOf_spec]
      omega

end DynamicRPC
