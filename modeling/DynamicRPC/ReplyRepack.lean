import DynamicRPC.CalleeRun

namespace DynamicRPC
open Outcome

section Loop
variable {left : Memory Element} {size nativeReturn : Nat} {past rest : List DrpcTypeUpdate} {update : DrpcTypeUpdate}
  {s s' : Repacking} {fnInfo : DrpcFunction}

/-- The repack loop between the updates it has copied and the rest: the array
holds what the callee left behind the former, apart from the objects of the latter. -/
structure Repacking.Copies (left : Memory Element) (size : Nat) (past rest : List DrpcTypeUpdate) (s : Repacking) :
    Prop where
  holds : s.repacked.Holds size s.repacked.lookup
  occupied : ∀ i, (s.repacked.lookup i).isSome ↔ i < past.length
  objects : ObjectsWf s.memory
  views : s.repacked.elements.map (Argument.view s.memory) = past.map (DrpcTypeUpdate.view left)
  sized : ∀ argument ∈ s.repacked.elements, argument.Sized
  apart : ∀ argument ∈ s.repacked.elements, ∀ address, argument.address = some address →
    address < s.memory.next ∧ address ∉ rest.map DrpcTypeUpdate.ptr
  pending : ∀ update ∈ rest, s.memory.cells update.ptr = left.cells update.ptr

/-- The updates that the loop is given: pointers to different live objects. -/
structure Repackable (left : Memory Element) (updates : List DrpcTypeUpdate) : Prop where
  live : ∀ update ∈ updates, (left.cells update.ptr).isSome
  pointer : ∀ update ∈ updates, update.type.isPointer = true
  distinct : (updates.map DrpcTypeUpdate.ptr).Nodup

theorem Repacking.Copies.fresh (copies : s.Copies left size past rest) {i : Nat} (beyond : past.length ≤ i) :
    s.repacked.lookup i = none := by
  by_contra occupied
  exact absurd ((copies.occupied i).mp (Option.isSome_iff_ne_none.mpr occupied)) (not_lt.mpr beyond)

theorem Repacking.Copies.bound (copies : s.Copies left size past rest) (repackable : Repackable left rest)
    {update : DrpcTypeUpdate} (member : update ∈ rest) : update.ptr < s.memory.next := by
  have live := repackable.live update member
  rw [← copies.pending update member] at live
  obtain ⟨object, held⟩ := Option.isSome_iff_exists.mp live
  exact Memory.lt_of_live held

/-- A round puts an argument behind the others that stands for what its update
leads to, and releases the buffer that it has copied. -/
theorem Repacking.Copies.round (copies : s.Copies left size past (update :: rest))
    (repackable : Repackable left (update :: rest)) (within : past.length < size)
    (ran : repackArgument fnInfo nativeReturn s (update, past.length) = .ok s') :
    ∃ argument memory, Passed s.memory memory update.type update.ptr update.len argument ∧
      s'.repacked.Holds size s'.repacked.lookup ∧
      s'.repacked.lookup = Function.update s.repacked.lookup past.length (some argument) ∧
      s'.memory.next = memory.next ∧ ObjectsWf s'.memory ∧ ∀ address,
        address ≠ update.ptr ∨ update.type ≠ .dSizedbuf → s'.memory.cells address = memory.cells address := by
  obtain ⟨done, memory, native, -, copied, stored, released, -⟩ := repackArgument_inv ran
  have live := repackable.live update List.mem_cons_self
  rw [← copies.pending update List.mem_cons_self] at live
  obtain ⟨argument, rfl, passed⟩ :=
    dArrayNative_passed copies.objects live (repackable.pointer update List.mem_cons_self) copied
  obtain ⟨holds, unsupported | ⟨other, same, updated⟩⟩ :=
    dArraySetWithin_ok copies.holds (copies.fresh le_rfl) within stored
  · cases unsupported.1
  cases same
  refine ⟨argument, memory, passed, holds, updated, ?_⟩
  obtain ⟨buffer, freed, -⟩ | ⟨notBuffer, same, -⟩ := released
  · obtain ⟨-, cells, next⟩ := Memory.free_eq_ok.mp freed
    refine ⟨next, passed.objects.update (fun e same => by cases same) cells, fun address either => ?_⟩
    rw [cells, Function.update_of_ne (either.resolve_right (not_not.mpr buffer))]
  · rw [same]
    exact ⟨rfl, passed.objects, fun _ _ => rfl⟩

theorem Repackable.tail (repackable : Repackable left (update :: rest)) : Repackable left rest where
  live := fun other member => repackable.live other (List.mem_cons_of_mem _ member)
  pointer := fun other member => repackable.pointer other (List.mem_cons_of_mem _ member)
  distinct := (List.nodup_cons.mp repackable.distinct).2

theorem Repacking.Copies.step (copies : s.Copies left size past (update :: rest))
    (repackable : Repackable left (update :: rest)) (within : past.length < size)
    (ran : repackArgument fnInfo nativeReturn s (update, past.length) = .ok s') :
    s'.Copies left size (past ++ [update]) rest := by
  obtain ⟨argument, memory, passed, holds, updated, next, objects, kept⟩ := copies.round repackable within ran
  have pushed := DArray.elements_push (fun i => copies.fresh) updated
  have here := copies.pending update List.mem_cons_self
  have bound := copies.bound repackable List.mem_cons_self
  obtain ⟨notLater, distinct⟩ := List.nodup_cons.mp repackable.distinct
  have earlier : ∀ other ∈ s.repacked.elements, ∀ address, other.address = some address →
      address < s.memory.next ∧ address ≠ update.ptr ∧ address ∉ rest.map DrpcTypeUpdate.ptr := by
    intro other member address points
    obtain ⟨below, outside⟩ := copies.apart other member address points
    rw [List.map_cons, List.mem_cons, not_or] at outside
    exact ⟨below, outside⟩
  have later : ∀ other ∈ rest, other.ptr ≠ update.ptr ∧ s.memory.cells other.ptr = left.cells other.ptr := by
    intro other member
    refine ⟨fun same => notLater ?_, copies.pending other (List.mem_cons_of_mem _ member)⟩
    rw [← same]
    exact List.mem_map_of_mem member
  have laterBound : ∀ other ∈ rest, other.ptr < s.memory.next := fun other member =>
    copies.bound repackable (List.mem_cons_of_mem _ member)
  refine ⟨holds, fun i => ?_, objects, ?_, fun other member => ?_, fun other member address points => ?_,
    fun other member => ?_⟩
  · rw [updated, Function.update_apply, List.length_append, List.length_singleton]
    split
    · next same => simp [same]
    · next other =>
      rw [copies.occupied]
      omega
  · have before : s.repacked.elements.map (Argument.view s'.memory) =
        s.repacked.elements.map (Argument.view s.memory) := by
      refine List.map_congr_left fun other member => Argument.view_congr fun address points => ?_
      obtain ⟨below, notHere, -⟩ := earlier other member address points
      rw [kept address (.inl notHere), passed.grows.cells address below]
    have last : argument.view s'.memory = update.view left := by
      have moved : argument.view s'.memory = argument.view memory := by
        refine Argument.view_congr fun address points => kept address ?_
        obtain ⟨-, ⟨-, notBuffer⟩ | beyond⟩ := passed.source address points
        · exact .inr notBuffer
        · exact .inl (by omega)
      rw [moved, passed.view, DrpcTypeUpdate.view, readArgument_congr here.symm]
    rw [pushed, List.map_append, List.map_append, before, copies.views]
    exact congrArg _ (congrArg (fun view => [view]) last)
  · rw [pushed] at member
    obtain before | now := List.mem_append.mp member
    · exact copies.sized other before
    · rw [List.mem_singleton.mp now]
      exact passed.sized
  · rw [next]
    rw [pushed] at member
    obtain before | now := List.mem_append.mp member
    · obtain ⟨below, -, outside⟩ := earlier other before address points
      exact ⟨below.trans_le passed.grows.next, outside⟩
    · rw [List.mem_singleton.mp now] at points
      obtain ⟨below, ⟨same, -⟩ | beyond⟩ := passed.source address points
      · exact ⟨below, by rw [same]; exact notLater⟩
      · refine ⟨below, fun inside => ?_⟩
        obtain ⟨other, member, rfl⟩ := List.mem_map.mp inside
        exact absurd (laterBound other member) (not_lt.mpr beyond)
  · obtain ⟨notHere, same⟩ := later other member
    rw [kept _ (.inl notHere), passed.grows.cells _ (laterBound other member), same]

/-- When the loop returns, the array holds what the callee left behind all of the pointers. -/
theorem Repacking.Copies.run (copies : s.Copies left size past rest) (repackable : Repackable left rest)
    (fits : past.length + rest.length ≤ size)
    (ran : (rest.zipIdx past.length).foldlM (repackArgument fnInfo nativeReturn) s = .ok s') :
    s'.Copies left size (past ++ rest) [] := by
  induction rest generalizing past s with
  | nil =>
    cases ran
    rw [List.append_nil]
    exact copies
  | cons update rest ih =>
    rw [List.length_cons] at fits
    rw [List.zipIdx_cons, List.foldlM_cons] at ran
    obtain ⟨middle, first, later⟩ := bind_eq_ok.mp ran
    have next := copies.step repackable (by omega) first
    have length : (past ++ [update]).length = past.length + 1 := List.length_append
    rw [← length] at later
    have last := ih next repackable.tail (by rw [length]; omega) later
    rwa [List.append_assoc, List.singleton_append] at last

theorem Repacking.Copies.start (objects : ObjectsWf left) (updates : List DrpcTypeUpdate) (arguments : DArray Argument) :
    (⟨arguments, newDArray updates.length, left, -1, []⟩ : Repacking).Copies left (max updates.length 1) [] updates where
  holds := { DArray.Holds.start updates.length with lookup := fun _ => rfl }
  occupied := fun i => by
    rw [newDArray_lookup]
    simp
  objects := objects
  views := by
    rw [newDArray_elements]
    rfl
  sized := fun argument member => by
    rw [newDArray_elements] at member
    cases member
  apart := fun argument member => by
    rw [newDArray_elements] at member
    cases member
  pending := fun _ _ => rfl

end Loop

section Message
variable {memory : Memory Element} {message message' : DStruct Field} {map : CString → Option Field}

/-- A message whose fields are good and whose repacked arguments are known. -/
structure ReplyHolds (memory : Memory Element) (repacked : Option (DArray Argument)) (message : DStruct Field) : Prop where
  wf : message.Wf
  good : ∀ key field, message.hashtable.lookup key = some field → field.Good memory
  repacked : message.hashtable.lookup (CString.ofString "repacked_arguments") = repacked.map Field.arguments

theorem ReplyHolds.set {repacked : Option (DArray Argument)} (holds : ReplyHolds memory repacked message) {key : CString}
    (other : CString.ofString "repacked_arguments" ≠ key) {native : Native Field}
    (good : ∀ field, native = .element field → field.Good memory) (ran : dStructSet message key native = .ok message') :
    ReplyHolds memory repacked message' := by
  have stands := DStruct.Stands.set ⟨holds.wf, rfl⟩ ran
  refine ⟨stands.wf, fun name field held => ?_, ?_⟩
  · rw [stands.lookup] at held
    cases native with
    | null => exact holds.good name field held
    | unsupported =>
      rw [StructCall.apply, Function.update_apply] at held
      split at held
      · cases held
      · exact holds.good name field held
    | element e =>
      rw [StructCall.apply, Function.update_apply] at held
      split at held
      · cases held
        exact good _ rfl
      · exact holds.good name field held
  · rw [stands.lookup]
    cases native with
    | null => exact holds.repacked
    | unsupported => exact (Function.update_of_ne other _ _).trans holds.repacked
    | element e => exact (Function.update_of_ne other _ _).trans holds.repacked

theorem setRepacked_holds {repacked : DArray Argument} {length : Nat} (good : (Field.arguments repacked).Good memory)
    (ran : setRepacked newDStruct length repacked = .ok message) :
    ReplyHolds memory (if length > 0 then some repacked else none) message := by
  have empty : (newDStruct : DStruct Field).Stands fun _ => none := .start
  rw [setRepacked] at ran
  split at ran
  · next some_there =>
    have stands := empty.set ran
    refine ⟨stands.wf, fun name field held => ?_, ?_⟩
    · rw [stands.lookup, StructCall.apply, Function.update_apply] at held
      split at held
      · cases held
        exact good
      · cases held
    · rw [stands.lookup, StructCall.apply, Function.update_self, if_pos some_there]
      rfl
  · next none_there =>
    cases ran
    refine ⟨empty.wf, fun name field held => ?_, ?_⟩
    · rw [empty.lookup] at held
      cases held
    · rw [empty.lookup, if_neg none_there]
      rfl

theorem returnNative_good {type : DrpcTypes} {nativeReturn : Nat} {native : Native Field} (objects : ObjectsWf memory)
    (ran : returnNative memory type nativeReturn = .ok native) : ∀ field, native = .element field → field.Good memory := by
  have element {e : Element} (wf : e.Wf) : (Field.element e).Good memory := by
    intro other same
    cases same
    exact wf
  have pointer (type : DrpcTypes) (address : Nat) : (Field.pointer type address).Good memory := by
    intro e resolved
    exact objects address e (readObject_eq_ok.mp resolved).1
  rintro field rfl
  unfold returnNative at ran
  split at ran
  case h_2 | h_3 | h_4 =>
    split at ran
    · cases ran
    · cases ran
      exact pointer _ _
  · split at ran
    · cases ran
    · obtain ⟨object, -, ran⟩ := bind_eq_ok.mp ran
      obtain ⟨content, -, same⟩ := bind_eq_ok.mp ran
      cases same
      exact element (.str (by simp [CString.block]))
  · cases ran
  · split at ran
    · next width sized =>
      cases ran
      exact element (.packed (by rw [sized, LittleEndian.encode_length]))
    · cases ran

theorem setReturn_holds {repacked : Option (DArray Argument)} {fnInfo : DrpcFunction} {nativeReturn : Nat} {returnIs : Int}
    (objects : ObjectsWf memory) (holds : ReplyHolds memory repacked message)
    (ran : setReturn message fnInfo memory nativeReturn returnIs = .ok message') : ReplyHolds memory repacked message' := by
  unfold setReturn at ran
  split at ran
  · split at ran
    · cases ran
      exact holds
    · obtain ⟨native, returned, set⟩ := bind_eq_ok.mp ran
      exact holds.set (by decide) (returnNative_good objects returned) set
  · refine holds.set (by decide) (fun field same => ?_) ran
    cases same
    intro e resolved
    cases resolved
    exact @Element.Wf.packed .dInt8 _ (by rw [LittleEndian.encode_length]; rfl)

end Message

/-- What a call that is carried out replies, where the callee keeps to its
contract: as many repacked arguments as pointers, in order, with what the
callee left behind each. -/
theorem drpcServerInvokeFn_reply {memory : Memory Element} {fnInfo : DrpcFunction} {arguments : DArray Argument}
    {slots : List FfiSlot} {toRepack : List DrpcTypeUpdate} {result : CallResult} {left : Memory Element}
    {nativeReturn : Nat} (called : fnInfo.fn slots memory = .ok (left, nativeReturn)) (objects : ObjectsWf left)
    (repackable : Repackable left toRepack) (fits : toRepack.length < 2 ^ 61)
    (ran : drpcServerInvokeFn memory fnInfo arguments slots toRepack newDStruct = .ok result) :
    ∃ repacked, ReplyHolds result.memory (if toRepack.length > 0 then some repacked else none) result.returnMsg ∧
      (∀ i, (repacked.lookup i).isSome ↔ i < toRepack.length) ∧
      repacked.elements.map (Argument.view result.memory) = toRepack.map (DrpcTypeUpdate.view left) := by
  rw [drpcServerInvokeFn, called, ok_bind] at ran
  obtain ⟨s, looped, ran⟩ := bind_eq_ok.mp ran
  obtain ⟨first, repacked, ran⟩ := bind_eq_ok.mp ran
  obtain ⟨last, returned, same⟩ := bind_eq_ok.mp ran
  cases same
  have copies := (Repacking.Copies.start objects toRepack arguments).run repackable (by simp) looped
  rw [List.nil_append] at copies
  have wf : s.repacked.Wf := by
    refine ⟨copies.holds.initialised, copies.holds.live, copies.holds.counted, ?_⟩
    rw [copies.holds.size]
    omega
  have good : (Field.arguments s.repacked).Good s.memory := by
    intro e resolved
    obtain ⟨a, resolve, same⟩ := bind_eq_ok.mp resolved
    cases same
    exact DArray.resolve_wf wf (fun argument member e ran => copies.objects.argument (copies.sized argument member) ran)
      resolve
  exact ⟨s.repacked, setReturn_holds copies.objects (setRepacked_holds good repacked) returned, copies.occupied,
    copies.views⟩

end DynamicRPC
