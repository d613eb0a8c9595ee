import DynamicRPC.MessageMemory
import DynamicRPC.Tcp

namespace DynamicRPC
open Outcome

def Value.type : Value → UInt8
  | .scalar type _ => type
  | .str _ => DrpcTypes.dStr.toChar
  | .sizedbuf _ => DrpcTypes.dSizedbuf.toChar
  | .struct _ => DrpcTypes.dStruct.toChar
  | .queue _ => DrpcTypes.dQueue.toChar
  | .array _ => DrpcTypes.dArray.toChar

theorem Element.value_type (e : Element) : e.value.type = e.type := by
  cases e <;> rfl

/-- What can be seen of an element, an argument or a passed pointer: its type
and its content, if it can be read. -/
def Element.view (e : Element) : UInt8 × Outcome Value := (e.type, .ok e.value)

def Argument.view (memory : Memory Element) (argument : Argument) : UInt8 × Outcome Value :=
  (argument.type, (argument.resolve memory).map Element.value)

def DrpcTypeUpdate.view (memory : Memory Element) (update : DrpcTypeUpdate) : UInt8 × Outcome Value :=
  (update.type.toChar, (readArgument memory update.type update.ptr update.len).map Element.value)

def Argument.address : Argument → Option Nat
  | .packed _ _ _ => none
  | .pointer _ address _ _ => some address

/-- The pointer arguments in order. -/
def DArray.pointers (a : DArray Argument) : List Argument :=
  a.elements.filter fun argument => isPointerChar argument.type

section Read
variable {memory memory' : Memory Element} {type : DrpcTypes} {address len : Nat} {e : Element} {argument : Argument}

theorem readObject_eq_ok : readObject memory type address = .ok e ↔
    memory.cells address = some e ∧ e.type = type.toChar := by
  unfold readObject
  constructor
  · intro ran
    obtain ⟨object, read, ran⟩ := bind_eq_ok.mp ran
    split at ran
    · next same =>
      cases ran
      exact ⟨Memory.read_eq_ok.mp read, same⟩
    · cases ran
  · rintro ⟨live, same⟩
    rw [Memory.read_eq_ok.mpr live, ok_bind, if_pos same]
    rfl

/-- What a readable pointer leads to. -/
theorem readArgument_inv (ran : readArgument memory type address len = .ok e) :
    ∃ object, memory.cells address = some object ∧ object.type = type.toChar ∧ e.type = type.toChar ∧
      (object = e ∨ ∃ block, object = .sizedbuf block ∧ len ≤ block.length ∧ e = .sizedbuf (block.take len)) := by
  obtain ⟨object, read, ran⟩ := bind_eq_ok.mp ran
  obtain ⟨live, same⟩ := readObject_eq_ok.mp read
  refine ⟨object, live, same, ?_⟩
  split at ran
  · next block =>
    split at ran
    · cases ran
    · next long =>
      cases ran
      exact ⟨same, Or.inr ⟨block, rfl, by omega, rfl⟩⟩
  · cases ran
    exact ⟨same, Or.inl rfl⟩

theorem readArgument_congr (same : memory'.cells address = memory.cells address) :
    readArgument memory' type address len = readArgument memory type address len := by
  unfold readArgument readObject Memory.read
  rw [same]

/-- A whole object is read as it is. -/
theorem readArgument_whole (live : memory.cells address = some e) (same : e.type = type.toChar)
    (length : ∀ block, e = .sizedbuf block → len = block.length) : readArgument memory type address len = .ok e := by
  unfold readArgument
  rw [readObject_eq_ok.mpr ⟨live, same⟩, ok_bind]
  split
  · next block =>
    rw [length block rfl, if_neg (Nat.lt_irrefl _), List.take_length]
    rfl
  · rfl

theorem Argument.resolve_type (ran : argument.resolve memory = .ok e) : e.type = argument.type := by
  cases argument with
  | packed type data scalar =>
    cases ran
    rfl
  | pointer type address len held =>
    obtain ⟨-, -, -, same, -⟩ := readArgument_inv ran
    exact same

theorem Argument.view_of_resolve (ran : argument.resolve memory = .ok e) : argument.view memory = e.view := by
  rw [Argument.view, Element.view, ran, Argument.resolve_type ran]
  rfl

theorem Argument.view_congr (same : ∀ address, argument.address = some address →
    memory'.cells address = memory.cells address) : argument.view memory' = argument.view memory := by
  cases argument with
  | packed type data scalar => rfl
  | pointer type address len held =>
    rw [Argument.view, Argument.view, Argument.resolve, Argument.resolve, readArgument_congr (same address rfl)]

end Read

section Elements

theorem filterMap_range {α β : Type} (f : α → Option β) (list : List α) (n : Nat) :
    (List.range (list.length + n)).filterMap (fun i => list[i]?.bind f) = list.filterMap f := by
  induction list with
  | nil => simp
  | cons a list ih =>
    rw [List.length_cons, Nat.add_right_comm, List.range_succ_eq_map, List.filterMap_cons, List.filterMap_map,
      List.filterMap_cons]
    simp only [List.getElem?_cons_zero, Option.bind_some, Function.comp_def, List.getElem?_cons_succ]
    rw [ih]

/-- The elements of an array are what its lookups give in order. -/
theorem DArray.elements_eq {E : Type} {a : DArray E} {size : Nat} (bound : a.lookupSize ≤ size) :
    a.elements = (List.range size).filterMap a.lookup := by
  have whole := filterMap_range Cell.element a.lookupTable (size - a.lookupSize)
  unfold DArray.lookupSize at whole bound
  rw [Nat.add_sub_cancel' bound] at whole
  exact whole.symm

theorem DArray.elements_value {a : DArray Element} {size : Nat} (bound : a.lookupSize ≤ size) :
    a.elements.map Element.value = (List.range size).filterMap a.value := by
  rw [DArray.elements_eq bound, List.map_filterMap]
  exact List.filterMap_congr fun i _ => (DArray.value_eq a i).symm

/-- Arrays that mean the same look the same. -/
theorem DArray.views_of_value {a a' : DArray Element} (same : a'.value = a.value) :
    a'.elements.map Element.view = a.elements.map Element.view := by
  have values : a'.elements.map Element.value = a.elements.map Element.value := by
    rw [DArray.elements_value (Nat.le_max_left a'.lookupSize a.lookupSize),
      DArray.elements_value (Nat.le_max_right a'.lookupSize a.lookupSize), same]
  have seen : Element.view = (fun v : Value => (v.type, (.ok v : Outcome Value))) ∘ Element.value := by
    funext e
    rw [Function.comp_apply, Element.value_type]
    rfl
  rw [seen, ← List.map_map, values, List.map_map]

/-- The pointers of two arrays look the same when their elements do. -/
theorem DArray.pointers_views {a a' : DArray Argument} {memory memory' : Memory Element}
    (same : a'.elements.map (Argument.view memory') = a.elements.map (Argument.view memory)) :
    a'.pointers.map (Argument.view memory') = a.pointers.map (Argument.view memory) := by
  have pointers : ∀ (a : DArray Argument) (memory : Memory Element), a.pointers.map (Argument.view memory) =
      (a.elements.map (Argument.view memory)).filter fun view => isPointerChar view.1 := by
    intro a memory
    rw [List.filter_map]
    rfl
  rw [pointers, pointers, same]

theorem cells_resolved {memory : Memory Element} {cells : List (Cell Argument)}
    (each : ∀ cell ∈ cells, cell.resolve memory = .ok (cell.resolve memory).value) :
    ((cells.map fun cell => (cell.resolve memory).value).filterMap Cell.element).map Element.view =
      (cells.filterMap Cell.element).map (Argument.view memory) := by
  induction cells with
  | nil => rfl
  | cons cell cells ih =>
    obtain ⟨first, rest⟩ := List.forall_mem_cons.mp each
    have tail := ih rest
    cases cell with
    | elem argument =>
      obtain ⟨e, resolved, same⟩ := bind_eq_ok.mp first
      have here : (Cell.elem argument).resolve memory = .ok (.elem e) := by
        rw [Cell.resolve, resolved]
        rfl
      rw [List.map_cons, here, Outcome.value, List.filterMap_cons_some (f := Cell.element) (b := e) rfl,
        List.filterMap_cons_some (f := Cell.element) (b := argument) rfl, List.map_cons, List.map_cons,
        Argument.view_of_resolve resolved, tail]
    | _ => exact tail

/-- The encoder sees the arguments as a reader of the memory does. -/
theorem DArray.views_resolved {a : DArray Argument} {a' : DArray Element} {memory : Memory Element}
    (ran : a.resolve memory = .ok a') : a'.elements.map Element.view = a.elements.map (Argument.view memory) := by
  obtain ⟨cells, resolved, same⟩ := bind_eq_ok.mp ran
  cases same
  obtain ⟨each, rfl⟩ := mapM_eq_ok resolved
  exact cells_resolved each

end Elements

section Load
variable {memory memory' : Memory Element} {e : Element} {argument : Argument}

/-- An argument that stands for an element. -/
structure Loaded (memory : Memory Element) (e : Element) (argument : Argument) : Prop where
  resolve : argument.resolve memory = .ok e
  object : ∀ address, argument.address = some address → memory.cells address = some e

theorem Loaded.extends (loaded : Loaded memory e argument) (grows : memory.Extends memory') :
    Loaded memory' e argument where
  resolve := by
    cases argument with
    | packed type data scalar => exact loaded.resolve
    | pointer type address len held =>
      rw [Argument.resolve, readArgument_congr (grows.cells address (Memory.lt_of_live (loaded.object address rfl)))]
      exact loaded.resolve
  object := fun address points => grows.live (loaded.object address points)

theorem Element.load_spec (ran : e.load memory = .ok (memory', argument)) :
    memory.Extends memory' ∧ Loaded memory' e argument ∧
      ∀ address, argument.address = some address → address = memory.next ∧ memory'.next = memory.next + 1 := by
  have fresh : ∀ (object : Element) (type : DrpcTypes) (len : Nat) (held : type.isPointer = true),
      object.type = type.toChar → (∀ block, object = .sizedbuf block → len = block.length) →
      memory.Extends (memory.alloc object).2 ∧ Loaded (memory.alloc object).2 object (.pointer type memory.next len held) ∧
      ∀ address, (Argument.pointer type memory.next len held).address = some address →
        address = memory.next ∧ (memory.alloc object).2.next = memory.next + 1 := by
    intro object type len held same length
    have live := Memory.alloc_self memory object
    refine ⟨Memory.alloc_extends memory object, ⟨readArgument_whole live same length, fun address points => ?_⟩,
      fun address points => ?_⟩
    · cases points
      exact live
    · cases points
      exact ⟨rfl, rfl⟩
  cases e with
  | packed type data =>
    rw [Element.load] at ran
    split at ran
    · cases ran
      exact ⟨Memory.Extends.refl _, ⟨rfl, fun _ points => by cases points⟩, fun _ points => by cases points⟩
    · cases ran
  | str block =>
    cases ran
    exact fresh _ .dStr 0 rfl rfl fun _ same => by cases same
  | sizedbuf block =>
    cases ran
    exact fresh _ .dSizedbuf block.length rfl rfl fun _ same => by cases same; rfl
  | dstruct d =>
    cases ran
    exact fresh _ .dStruct 0 rfl rfl fun _ same => by cases same
  | queue q =>
    cases ran
    exact fresh _ .dQueue 0 rfl rfl fun _ same => by cases same
  | array a =>
    cases ran
    exact fresh _ .dArray 0 rfl rfl fun _ same => by cases same

/-- What loading a table of elements leaves: the arguments stand for the
elements, at new addresses that are all different. -/
structure CellsLoaded (memory memory' : Memory Element) (cells : List (Cell Element)) (cells' : List (Cell Argument)) :
    Prop where
  grows : memory.Extends memory'
  loaded : List.Forall₂ (Loaded memory') (cells.filterMap Cell.element) (cells'.filterMap Cell.element)
  distinct : ((cells'.filterMap Cell.element).filterMap Argument.address).Nodup
  fresh : ∀ address ∈ (cells'.filterMap Cell.element).filterMap Argument.address,
    memory.next ≤ address ∧ address < memory'.next
  length : cells'.length = cells.length
  initialised : .uninit ∈ cells' → .uninit ∈ cells
  live : .dangling ∈ cells' → .dangling ∈ cells

theorem CellsLoaded.cons_empty {cells : List (Cell Element)} {cells' : List (Cell Argument)}
    (loaded : CellsLoaded memory memory' cells cells') {cell : Cell Element} {cell' : Cell Argument}
    (empty : cell.element = none) (empty' : cell'.element = none)
    (uninit : .uninit = cell' → .uninit = cell) (dangling : .dangling = cell' → .dangling = cell) :
    CellsLoaded memory memory' (cell :: cells) (cell' :: cells') := by
  have same : (cell' :: cells').filterMap Cell.element = cells'.filterMap Cell.element :=
    List.filterMap_cons_none empty'
  refine ⟨loaded.grows, ?_, ?_, ?_, ?_, fun member => ?_, fun member => ?_⟩
  · rw [same, List.filterMap_cons_none empty]
    exact loaded.loaded
  · rw [same]
    exact loaded.distinct
  · rw [same]
    exact loaded.fresh
  · rw [List.length_cons, List.length_cons, loaded.length]
  · rcases List.mem_cons.mp member with here | later
    · exact List.mem_cons.mpr (Or.inl (uninit here))
    · exact List.mem_cons.mpr (Or.inr (loaded.initialised later))
  · rcases List.mem_cons.mp member with here | later
    · exact List.mem_cons.mpr (Or.inl (dangling here))
    · exact List.mem_cons.mpr (Or.inr (loaded.live later))

theorem loadCells_spec {cells : List (Cell Element)} {cells' : List (Cell Argument)}
    (ran : loadCells memory cells = .ok (memory', cells')) : CellsLoaded memory memory' cells cells' := by
  induction cells generalizing memory memory' cells' with
  | nil =>
    cases ran
    exact ⟨Memory.Extends.refl _, .nil, List.nodup_nil, fun _ member => absurd member List.not_mem_nil, rfl,
      fun member => absurd member List.not_mem_nil, fun member => absurd member List.not_mem_nil⟩
  | cons cell cells ih =>
    cases cell with
    | elem e =>
      obtain ⟨⟨middle, argument⟩, first, ran⟩ := bind_eq_ok.mp ran
      obtain ⟨⟨last, rest⟩, later, same⟩ := bind_eq_ok.mp ran
      cases same
      obtain ⟨grows, here, address⟩ := Element.load_spec first
      have tail := ih later
      have elements : (Cell.elem argument :: rest).filterMap Cell.element = argument :: rest.filterMap Cell.element := rfl
      refine ⟨grows.trans tail.grows, .cons (here.extends tail.grows) tail.loaded, ?_, ?_, ?_, fun member => ?_,
        fun member => ?_⟩
      · rw [elements]
        cases points : argument.address with
        | none =>
          rw [List.filterMap_cons_none points]
          exact tail.distinct
        | some a =>
          rw [List.filterMap_cons_some points, List.nodup_cons]
          refine ⟨fun member => ?_, tail.distinct⟩
          have bound := tail.fresh a member
          obtain ⟨same, next⟩ := address a points
          omega
      · intro a member
        rw [elements, List.mem_filterMap] at member
        obtain ⟨other, member, points⟩ := member
        have wider := tail.grows.next
        have wide := grows.next
        rcases List.mem_cons.mp member with rfl | inside
        · obtain ⟨same, next⟩ := address a points
          omega
        · have bound := tail.fresh a (List.mem_filterMap.mpr ⟨other, inside, points⟩)
          omega
      · rw [List.length_cons, List.length_cons, tail.length]
      · rcases List.mem_cons.mp member with here | there
        · cases here
        · exact List.mem_cons.mpr (Or.inr (tail.initialised there))
      · rcases List.mem_cons.mp member with here | there
        · cases here
        · exact List.mem_cons.mpr (Or.inr (tail.live there))
    | null =>
      obtain ⟨⟨last, rest⟩, later, same⟩ := bind_eq_ok.mp ran
      cases same
      exact (ih later).cons_empty rfl rfl (fun same => by cases same) fun same => by cases same
    | uninit =>
      obtain ⟨⟨last, rest⟩, later, same⟩ := bind_eq_ok.mp ran
      cases same
      exact (ih later).cons_empty rfl rfl (fun _ => rfl) fun same => by cases same
    | dangling =>
      obtain ⟨⟨last, rest⟩, later, same⟩ := bind_eq_ok.mp ran
      cases same
      exact (ih later).cons_empty rfl rfl (fun same => by cases same) fun _ => rfl

/-- A scalar of its type's width, or a pointer to a whole object of its type. -/
inductive Argument.Placed (memory : Memory Element) : Argument → Prop
  | packed {t : DrpcTypes} {bytes : List UInt8} (sized : t.scalarWidth = some bytes.length)
      (scalar : isPointerChar t.toChar = false) : Placed memory (.packed t.toChar ⟨t.toChar, bytes⟩ scalar)
  | pointer {type : DrpcTypes} {address len : Nat} {held : type.isPointer = true} {e : Element}
      (live : memory.cells address = some e) (same : e.type = type.toChar) (wf : e.Wf)
      (whole : ∀ block, e = .sizedbuf block → len = block.length) : Placed memory (.pointer type address len held)

theorem Loaded.placed (loaded : Loaded memory e argument) (wf : e.Wf) : argument.Placed memory := by
  cases argument with
  | packed type data scalar =>
    cases loaded.resolve
    cases wf with
    | packed sized => exact .packed sized scalar
  | pointer type address len held =>
    have live := loaded.object address rfl
    refine .pointer live (Argument.resolve_type loaded.resolve) wf fun block same => ?_
    subst same
    obtain ⟨object, read, ran⟩ := bind_eq_ok.mp loaded.resolve
    rw [(readObject_eq_ok.mp read).1] at live
    cases live
    dsimp only at ran
    split at ran
    · cases ran
    · next long =>
      have length := congrArg List.length (Element.sizedbuf.inj (Except.ok.inj ran))
      rw [List.length_take] at length
      omega

/-- A placed pointer leads to its object. -/
theorem Argument.Placed.resolve {type : DrpcTypes} {address len : Nat} {held : type.isPointer = true}
    (placed : (Argument.pointer type address len held).Placed memory) :
    ∃ e, memory.cells address = some e ∧ e.Wf ∧ e.type = type.toChar ∧
      (∀ block, e = .sizedbuf block → len = block.length) ∧ readArgument memory type address len = .ok e := by
  cases placed with
  | pointer live same wf whole => exact ⟨_, live, wf, same, whole, readArgument_whole live same whole⟩

/-- The loaded arguments look like the elements they stand for. -/
theorem CellsLoaded.views {cells : List (Cell Element)} {cells' : List (Cell Argument)}
    (loaded : CellsLoaded memory memory' cells cells') :
    (cells'.filterMap Cell.element).map (Argument.view memory') = (cells.filterMap Cell.element).map Element.view := by
  have both := loaded.loaded
  revert both
  generalize cells.filterMap Cell.element = elements
  generalize cells'.filterMap Cell.element = arguments
  intro both
  induction both with
  | nil => rfl
  | cons here _ ih => rw [List.map_cons, List.map_cons, Argument.view_of_resolve here.resolve, ih]

end Load
end DynamicRPC
