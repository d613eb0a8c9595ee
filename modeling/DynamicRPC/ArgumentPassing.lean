import DynamicRPC.ArgumentView
import DynamicRPC.CallFailure

namespace DynamicRPC
open Outcome

/-- Every live object is well formed. -/
def ObjectsWf (memory : Memory Element) : Prop := ∀ address e, memory.cells address = some e → e.Wf

/-- A packed argument is a value of its type's width. -/
def Argument.Sized : Argument → Prop
  | .packed type data _ => (Element.packed type data).Wf
  | .pointer _ _ _ _ => True

section Objects
variable {memory memory' : Memory Element} {type : DrpcTypes} {address len : Nat} {e : Element}

theorem ObjectsWf.update (objects : ObjectsWf memory) {written : Option Element} (wf : ∀ e, written = some e → e.Wf)
    (cells : memory'.cells = Function.update memory.cells address written) : ObjectsWf memory' := by
  intro other object live
  rw [cells, Function.update_apply] at live
  split at live
  · exact wf object live
  · exact objects other object live

theorem ObjectsWf.alloc (objects : ObjectsWf memory) (wf : e.Wf) : ObjectsWf (memory.alloc e).2 := by
  refine objects.update (fun object same => ?_) (Memory.alloc_cells memory e)
  cases same
  exact wf

theorem ObjectsWf.readArgument (objects : ObjectsWf memory) (ran : readArgument memory type address len = .ok e) :
    e.Wf := by
  obtain ⟨object, live, -, -, same | ⟨block, -, -, same⟩⟩ := readArgument_inv ran
  · rw [← same]
    exact objects address object live
  · rw [same]
    exact .sizedbuf

theorem ObjectsWf.argument (objects : ObjectsWf memory) {argument : Argument} (sized : argument.Sized)
    (ran : argument.resolve memory = .ok e) : e.Wf := by
  cases argument with
  | packed type data scalar =>
    cases ran
    exact sized
  | pointer type address len held => exact objects.readArgument ran

/-- The length matters for a buffer only. -/
theorem readArgument_length (other : type ≠ .dSizedbuf) (len len' : Nat) :
    readArgument memory type address len = readArgument memory type address len' := by
  unfold readArgument
  cases read : readObject memory type address with
  | error fault => rfl
  | ok object =>
    obtain ⟨-, same⟩ := readObject_eq_ok.mp read
    cases object with
    | sizedbuf block => exact absurd (DrpcTypes.toChar_injective (show DrpcTypes.dSizedbuf.toChar = _ from same)).symm other
    | _ => rfl

end Objects

/-- An argument that stands for what a pointer leads to: a copy of a string or
a buffer, or the container itself. -/
structure Passed (memory memory' : Memory Element) (type : DrpcTypes) (ptr len : Nat) (argument : Argument) : Prop where
  grows : memory.Extends memory'
  objects : ObjectsWf memory'
  view : argument.view memory' = (type.toChar, (readArgument memory type ptr len).map Element.value)
  pointer : isPointerChar argument.type = true
  source : ∀ address, argument.address = some address →
    address < memory'.next ∧ (address = ptr ∧ type ≠ .dSizedbuf ∨ memory.next ≤ address)

theorem Passed.sized {memory memory' : Memory Element} {type : DrpcTypes} {ptr len : Nat} {argument : Argument}
    (passed : Passed memory memory' type ptr len argument) : argument.Sized := by
  have pointer := passed.pointer
  cases argument with
  | packed stored data scalar =>
    rw [Argument.type, scalar] at pointer
    cases pointer
  | pointer => trivial

section Native
variable {memory memory' : Memory Element} {type : DrpcTypes} {ptr len : Nat} {native : Native Argument}

/-- A container is kept by its address. -/
theorem passed_container (objects : ObjectsWf memory) (bound : ptr < memory.next) (held : type.isPointer = true)
    (notBuffer : type ≠ .dSizedbuf) : Passed memory memory type ptr len (.pointer type ptr 0 held) := by
  refine ⟨Memory.Extends.refl memory, objects, ?_, (isPointerChar_toChar type).trans held, fun address points => ?_⟩
  · rw [Argument.view, Argument.resolve, readArgument_length notBuffer 0 len]
    rfl
  · cases points
    exact ⟨bound, .inl ⟨rfl, notBuffer⟩⟩

/-- A string is copied up to its NUL. -/
theorem passed_str (objects : ObjectsWf memory) {block : List UInt8} {content : CString}
    (live : memory.cells ptr = some (.str block)) (text : CString.read block = .ok content) :
    Passed memory (memory.alloc (.str content.block)).2 .dStr ptr len (.pointer .dStr memory.next 0 rfl) := by
  have original : readArgument memory .dStr ptr len = .ok (.str block) :=
    readArgument_whole live rfl fun _ same => by cases same
  have copied : readArgument (memory.alloc (.str content.block)).2 .dStr memory.next 0 = .ok (.str content.block) :=
    readArgument_whole (Memory.alloc_self memory _) rfl fun _ same => by cases same
  refine ⟨Memory.alloc_extends memory _, objects.alloc (.str (by simp [CString.block])), ?_, rfl, fun address points => ?_⟩
  · change (_, (readArgument (memory.alloc (.str content.block)).2 .dStr memory.next 0).map Element.value) = _
    rw [copied, original]
    have bytes : (content.bytes ++ [0]).takeWhile (· ≠ 0) = content.bytes := CString.takeWhile_append_nul content []
    rw [Except.map, Except.map, Element.value, Element.value, CString.block, bytes, CString.takeWhile_of_read text]
    rfl
  · cases points
    exact ⟨Nat.lt_succ_self _, .inr le_rfl⟩

/-- A buffer is copied in the length that comes with it. -/
theorem passed_buffer (objects : ObjectsWf memory) {block : List UInt8} (live : memory.cells ptr = some (.sizedbuf block))
    (within : len ≤ block.length) :
    Passed memory (memory.alloc (.sizedbuf (block.take len))).2 .dSizedbuf ptr len (.pointer .dSizedbuf memory.next len rfl) := by
  have original : readArgument memory .dSizedbuf ptr len = .ok (.sizedbuf (block.take len)) := by
    unfold readArgument
    rw [readObject_eq_ok.mpr ⟨live, rfl⟩, ok_bind]
    exact if_neg (not_lt.mpr within)
  have copied : readArgument (memory.alloc (.sizedbuf (block.take len))).2 .dSizedbuf memory.next len =
      .ok (.sizedbuf (block.take len)) := by
    refine readArgument_whole (Memory.alloc_self memory _) rfl fun taken same => ?_
    cases same
    rw [List.length_take]
    omega
  refine ⟨Memory.alloc_extends memory _, objects.alloc .sizedbuf, ?_, rfl, fun address points => ?_⟩
  · change (_, (readArgument (memory.alloc (.sizedbuf (block.take len))).2 .dSizedbuf memory.next len).map _) = _
    rw [copied, original]
    rfl
  · cases points
    exact ⟨Nat.lt_succ_self _, .inr le_rfl⟩

/-- What a setter makes of a pointer to a live object. -/
theorem dArrayNative_passed (objects : ObjectsWf memory) (live : (memory.cells ptr).isSome)
    (pointer : type.isPointer = true) (ran : dArrayNative memory type ptr len = .ok (memory', native)) :
    ∃ argument, native = .element argument ∧ Passed memory memory' type ptr len argument := by
  obtain ⟨object, held⟩ := Option.isSome_iff_exists.mp live
  have notNull : ptr ≠ 0 := Memory.ne_zero_of_live held
  have bound := Memory.lt_of_live held
  cases dArrayNative_eq_ok.mp ran with
  | null null => exact absurd null notNull
  | str _ live text => exact ⟨_, rfl, passed_str objects live text⟩
  | sizedbuf _ live within => exact ⟨_, rfl, passed_buffer objects live within⟩
  | container _ pointer _ notBuffer => exact ⟨_, rfl, passed_container objects bound pointer notBuffer⟩
  | unsupported _ other =>
    rw [pointer] at other
    cases other

end Native

section Push
variable {E : Type} {a a' : DArray E} {done : Nat} {e : E}

/-- With nothing from an index on, the elements are what the lookups below it give. -/
theorem DArray.elements_below (fresh : ∀ i, done ≤ i → a.lookup i = none) :
    a.elements = (List.range done).filterMap a.lookup := by
  obtain ⟨more, size⟩ : ∃ more, max a.lookupSize done = done + more := ⟨max a.lookupSize done - done, by omega⟩
  rw [DArray.elements_eq (Nat.le_max_left a.lookupSize done), size, List.range_add, List.filterMap_append]
  have rest : ((List.range more).map (done + ·)).filterMap a.lookup = [] := by
    refine List.filterMap_eq_nil_iff.mpr fun i member => ?_
    obtain ⟨n, -, rfl⟩ := List.mem_map.mp member
    exact fresh _ (Nat.le_add_right done n)
  rw [rest, List.append_nil]

theorem DArray.elements_push (fresh : ∀ i, done ≤ i → a.lookup i = none)
    (updated : a'.lookup = Function.update a.lookup done (some e)) : a'.elements = a.elements ++ [e] := by
  have later : ∀ i, done + 1 ≤ i → a'.lookup i = none := by
    intro i bound
    rw [updated, Function.update_of_ne (by omega)]
    exact fresh i (by omega)
  have before : (List.range done).filterMap a'.lookup = (List.range done).filterMap a.lookup := by
    refine List.filterMap_congr fun i member => ?_
    have bound := List.mem_range.mp member
    rw [updated, Function.update_of_ne (by omega)]
  rw [DArray.elements_below later, DArray.elements_below fresh, List.range_succ, List.filterMap_append, before]
  congr 1
  rw [List.filterMap_cons_some (by rw [updated, Function.update_self]), List.filterMap_nil]

theorem map_some_filterMap {α β : Type} {f : α → Option β} {list : List α} (each : ∀ a ∈ list, (f a).isSome) :
    (list.filterMap f).map some = list.map f := by
  induction list with
  | nil => rfl
  | cons a list ih =>
    obtain ⟨here, later⟩ := List.forall_mem_cons.mp each
    obtain ⟨b, found⟩ := Option.isSome_iff_exists.mp here
    rw [List.filterMap_cons_some found, List.map_cons, List.map_cons, ih later, found]

/-- An array without gaps is the list of its elements. -/
theorem DArray.lookup_dense {n : Nat} (dense : ∀ i, (a.lookup i).isSome ↔ i < n) :
    a.elements.length = n ∧ ∀ i, a.lookup i = a.elements[i]? := by
  have absent : ∀ i, n ≤ i → a.lookup i = none := by
    intro i beyond
    by_contra occupied
    exact absurd ((dense i).mp (Option.isSome_iff_ne_none.mpr occupied)) (not_lt.mpr beyond)
  have elements : a.elements.map some = (List.range n).map a.lookup := by
    rw [DArray.elements_below absent]
    exact map_some_filterMap fun i member => (dense i).mpr (List.mem_range.mp member)
  have length : a.elements.length = n := by
    have same := congrArg List.length elements
    rwa [List.length_map, List.length_map, List.length_range] at same
  refine ⟨length, fun i => ?_⟩
  by_cases within : i < n
  · have at_i := congrArg (·[i]?) elements
    simp only [List.getElem?_map, List.getElem?_range within, Option.map_some] at at_i
    obtain ⟨e, found, same⟩ := Option.map_eq_some_iff.mp at_i
    rw [found, ← same]
  · rw [absent i (not_lt.mp within), List.getElem?_eq_none (by omega)]

end Push

theorem Argument.view_extends {memory memory' : Memory Element} {argument : Argument} (grows : memory.Extends memory')
    (bounded : ∀ address, argument.address = some address → address < memory.next) :
    argument.view memory' = argument.view memory :=
  Argument.view_congr fun address points => grows.cells address (bounded address points)

theorem DrpcTypeUpdate.view_extends {memory memory' : Memory Element} {update : DrpcTypeUpdate}
    (grows : memory.Extends memory') (live : (memory.cells update.ptr).isSome) :
    update.view memory' = update.view memory := by
  obtain ⟨object, held⟩ := Option.isSome_iff_exists.mp live
  rw [DrpcTypeUpdate.view, DrpcTypeUpdate.view, readArgument_congr (grows.cells _ (Memory.lt_of_live held))]

section Build
variable {fromDouble : Nat → Nat} {memory : Memory Element} {s s' : ClientArguments} {size done : Nat}

/-- The array under construction holds, among its elements, what the pointers
passed so far lead to in the caller's memory. -/
structure ClientArguments.Passes (memory : Memory Element) (s : ClientArguments) : Prop where
  grows : memory.Extends s.memory
  objects : ObjectsWf s.memory
  views : s.arguments.pointers.map (Argument.view s.memory) = s.repackable.map (DrpcTypeUpdate.view memory)
  bounded : ∀ argument ∈ s.arguments.elements, ∀ address, argument.address = some address → address < s.memory.next
  sized : ∀ argument ∈ s.arguments.elements, argument.Sized

theorem pointers_append (a : DArray Argument) {a' : DArray Argument} {argument : Argument}
    (pushed : a'.elements = a.elements ++ [argument]) :
    a'.pointers = a.pointers ++ if isPointerChar argument.type then [argument] else [] := by
  rw [DArray.pointers, pushed, List.filter_append, List.filter_singleton, cond_eq_ite]
  rfl

theorem ClientArguments.Passes.step {type : DrpcTypes} (passes : s.Passes memory) (built : s.Built size done)
    (within : done < size) (ran : clientArgument fromDouble s (type, done) = .ok s')
    (owned : ∀ passed ∈ s'.repackable, (memory.cells passed.ptr).isSome) : s'.Passes memory := by
  obtain ⟨ptr, len, native, pointer, copied, set, queue⟩ | ⟨input, scalar, set, memory', queue⟩ := clientArgument_inv ran
  · have own : (memory.cells ptr).isSome :=
      owned ⟨type, len, 0, ptr⟩ (queue ▸ List.mem_append_right _ (List.mem_singleton_self _))
    obtain ⟨object, held⟩ := Option.isSome_iff_exists.mp own
    have here := passes.grows.live held
    obtain ⟨argument, rfl, passed⟩ := dArrayNative_passed passes.objects (by rw [here]; rfl) pointer copied
    obtain ⟨-, unsupported | ⟨other, same, updated⟩⟩ :=
      dArraySetWithin_ok built.holds (built.fresh done le_rfl) within set
    · cases unsupported.1
    cases same
    have pushed := DArray.elements_push built.fresh updated
    refine ⟨passes.grows.trans passed.grows, passed.objects, ?_, fun other member => ?_, fun other member => ?_⟩
    · have earlier : s.arguments.pointers.map (Argument.view s'.memory) =
          s.arguments.pointers.map (Argument.view s.memory) :=
        List.map_congr_left fun other member =>
          Argument.view_extends passed.grows (passes.bounded other (List.mem_of_mem_filter member))
      have last : argument.view s'.memory = DrpcTypeUpdate.view memory ⟨type, len, 0, ptr⟩ := by
        rw [passed.view, DrpcTypeUpdate.view, readArgument_congr (passes.grows.cells ptr (Memory.lt_of_live held))]
      rw [pointers_append _ pushed, queue, if_pos passed.pointer, List.map_append, List.map_append, earlier, passes.views]
      exact congrArg _ (congrArg (fun view => [view]) last)
    · rw [pushed] at member
      obtain before | here := List.mem_append.mp member
      · exact fun address points => (passes.bounded other before address points).trans_le passed.grows.next
      · rw [List.mem_singleton.mp here]
        exact fun address points => (passed.source address points).1
    · rw [pushed] at member
      obtain before | here := List.mem_append.mp member
      · exact passes.sized other before
      · rw [List.mem_singleton.mp here]
        exact passed.sized
  · obtain ⟨-, ⟨-, same⟩ | ⟨argument, native, updated⟩⟩ :=
      dArraySetWithin_ok built.holds (built.fresh done le_rfl) within set
    · obtain ⟨arguments, _, _, _⟩ := s'
      cases memory'
      cases queue
      cases same
      exact ⟨passes.grows, passes.objects, passes.views, passes.bounded, passes.sized⟩
    have pushed := DArray.elements_push built.fresh updated
    obtain ⟨width, sized, rfl⟩ := scalarNative_element native
    refine ⟨memory' ▸ passes.grows, memory' ▸ passes.objects, ?_, fun other member => ?_, fun other member => ?_⟩
    · rw [pointers_append _ pushed, memory', queue, Argument.type,
        if_neg (ne_true_of_eq_false ((isPointerChar_toChar type).trans scalar)), List.append_nil]
      exact passes.views
    · rw [pushed] at member
      obtain before | here := List.mem_append.mp member
      · rw [memory']
        exact passes.bounded other before
      · rw [List.mem_singleton.mp here]
        exact fun address points => by cases points
    · rw [pushed] at member
      obtain before | here := List.mem_append.mp member
      · exact passes.sized other before
      · rw [List.mem_singleton.mp here]
        exact .packed (by rw [sized, LittleEndian.encode_length])

theorem ClientArguments.Passes.run {types : List DrpcTypes} (passes : s.Passes memory) (built : s.Built size done)
    (fits : done + types.length ≤ size) (ran : (types.zipIdx done).foldlM (clientArgument fromDouble) s = .ok s')
    (owned : ∀ passed ∈ s'.repackable, (memory.cells passed.ptr).isSome) : s'.Passes memory := by
  induction types generalizing s done with
  | nil =>
    cases ran
    exact passes
  | cons type types ih =>
    rw [List.length_cons] at fits
    rw [List.zipIdx_cons, List.foldlM_cons] at ran
    obtain ⟨middle, first, rest⟩ := bind_eq_ok.mp ran
    have next := (built.step (by omega) first).1
    obtain ⟨-, -, still, -⟩ := next.run (by omega) rest
    exact ih (passes.step built (by omega) first fun passed member => owned passed (still passed member)) next
      (by omega) rest

theorem ClientArguments.Passes.start (objects : ObjectsWf memory) (varargs : List Nat) (length : Nat) :
    (⟨newDArray length, memory, varargs, []⟩ : ClientArguments).Passes memory where
  grows := Memory.Extends.refl memory
  objects := objects
  views := by
    rw [DArray.pointers, newDArray_elements]
    rfl
  bounded := fun argument member => by
    rw [newDArray_elements] at member
    cases member
  sized := fun argument member => by
    rw [newDArray_elements] at member
    cases member

/-- The call message carries an array of arguments whose pointers lead, in
order, to what the passed pointers lead to. -/
theorem drpcClientCallMessage_passes {fnName : CString} {prototype : List DrpcTypes} {varargs : List Nat}
    {call : ClientCall} (objects : ObjectsWf memory) (fits : prototype.length < 2 ^ 61)
    (owned : ∀ passed ∈ call.repackable, (memory.cells passed.ptr).isSome)
    (built : drpcClientCallMessage fromDouble memory fnName prototype varargs = .ok call) :
    ∃ arguments, call.message.Filled [(.ofString "fn_name", .element (.str fnName.block)),
        (.ofString "arguments", .arguments arguments)] ∧
      arguments.Wf ∧ memory.Extends call.memory ∧ ObjectsWf call.memory ∧
      (∀ argument ∈ arguments.elements, argument.Sized) ∧
      arguments.pointers.map (Argument.view call.memory) = call.repackable.map (DrpcTypeUpdate.view memory) := by
  obtain ⟨s, looped, memory', queue, filled⟩ := drpcClientCallMessage_inv built
  rw [queue] at owned ⊢
  rw [memory']
  have start := ClientArguments.Built.start memory varargs prototype.length
  obtain ⟨done, -⟩ := start.run (by omega) looped
  have passes := (ClientArguments.Passes.start objects varargs prototype.length).run start (by omega) looped owned
  have wf : s.arguments.Wf := by
    refine ⟨done.holds.initialised, done.holds.live, done.holds.counted, ?_⟩
    rw [done.holds.size]
    omega
  exact ⟨s.arguments, filled, wf, passes.grows, passes.objects, passes.sized, passes.views⟩

end Build

end DynamicRPC
