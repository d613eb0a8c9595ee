import DynamicRPC.CallRepack

namespace DynamicRPC
open Outcome

/-- No server-only type and no sized buffer stands before a pointer type. -/
def Aligned (prototype : List DrpcTypes) : Prop :=
  prototype.Pairwise fun before after => after.isPointer = true → before.isServerOnly = false ∧ before ≠ .dSizedbuf

instance (prototype : List DrpcTypes) : Decidable (Aligned prototype) :=
  inferInstanceAs (Decidable (List.Pairwise _ _))

/-- An argument index of `d_str`, `d_sizedbuf`, `d_struct`, `d_array` or `d_queue` type. -/
def DrpcFunction.PointerIndex (fnInfo : DrpcFunction) (i : Nat) : Prop :=
  ∃ type, (drpcCreateClientPrototype (fnInfo.prototype.getD []))[i]? = some type ∧ type.isPointer = true

/-- The array still refers to an object. -/
def DArray.Linked (a : DArray Argument) (address : Nat) : Prop :=
  ∃ i type len held, a.lookup i = some (.pointer type address len held)

section Slots
variable {prototype : List DrpcTypes} {j k : Nat}

theorem pointerSlots_eq_nil_iff : pointerSlots prototype j k = [] ↔ ∀ type ∈ prototype, type.isPointer = false := by
  induction prototype generalizing j k with
  | nil => simp [pointerSlots]
  | cons type prototype ih =>
    rw [pointerSlots]
    cases type <;> simp [DrpcTypes.isServerOnly, DrpcTypes.isPointer, ih]

/-- Once the slots have drifted off the arguments they stay behind. -/
theorem pointerSlots_drift (drifted : j < k) : ∀ slot ∈ pointerSlots prototype j k, slot.1 < slot.2 := by
  induction prototype generalizing j k with
  | nil => simp [pointerSlots]
  | cons type prototype ih =>
    rw [pointerSlots]
    split
    · exact ih (by omega)
    · split
      · intro slot member
        rcases List.mem_cons.mp member with rfl | later
        · exact drifted
        · exact ih (by split <;> omega) slot later
      · exact ih (by omega)

theorem pointerSlots_drift_iff (drifted : j < k) :
    (∀ slot ∈ pointerSlots prototype j k, slot.1 = slot.2) ↔ ∀ type ∈ prototype, type.isPointer = false := by
  rw [← pointerSlots_eq_nil_iff (j := j) (k := k), List.eq_nil_iff_forall_not_mem]
  constructor
  · intro equal slot member
    have behind := pointerSlots_drift drifted slot member
    have same := equal slot member
    omega
  · intro none_left slot member
    exact absurd member (none_left slot)

theorem aligned_of_noPointer (scalars : ∀ type ∈ prototype, type.isPointer = false) : Aligned prototype := by
  refine List.pairwise_iff_forall_sublist.mpr fun {before after} both pointer => ?_
  have member : after ∈ prototype := both.subset (by simp)
  rw [scalars after member] at pointer
  cases pointer

/-- The slots of the pointer arguments are their argument indices exactly when the prototype is aligned. -/
theorem pointerSlots_equal_iff (j : Nat) : (∀ slot ∈ pointerSlots prototype j j, slot.1 = slot.2) ↔ Aligned prototype := by
  induction prototype generalizing j with
  | nil => simp [pointerSlots, Aligned]
  | cons type prototype ih =>
    have drifts : ∀ {i k : Nat}, i < k → (type.isServerOnly = true ∨ type = .dSizedbuf) →
        ((∀ slot ∈ pointerSlots prototype i k, slot.1 = slot.2) ↔ Aligned (type :: prototype)) := by
      intro i k behind bad
      rw [pointerSlots_drift_iff behind, Aligned, List.pairwise_cons]
      constructor
      · intro scalars
        refine ⟨fun after member pointer => ?_, aligned_of_noPointer scalars⟩
        rw [scalars after member] at pointer
        cases pointer
      · rintro ⟨head, -⟩ after member
        cases pointer : after.isPointer with
        | false => rfl
        | true =>
          obtain ⟨client, notBuffer⟩ := head after member pointer
          rcases bad with server | buffer
          · rw [client] at server
            cases server
          · exact absurd buffer notBuffer
    rw [pointerSlots]
    by_cases server : type.isServerOnly = true
    · rw [if_pos server]
      exact drifts (Nat.lt_succ_self j) (Or.inl server)
    · rw [if_neg server]
      by_cases buffer : type = .dSizedbuf
      · subst buffer
        rw [if_pos (show DrpcTypes.isPointer .dSizedbuf = true from rfl), if_pos rfl, List.forall_mem_cons]
        have rest := drifts (show j + 1 < j + 2 by omega) (Or.inr rfl)
        exact ⟨fun both => rest.mp both.2, fun aligned => ⟨rfl, rest.mpr aligned⟩⟩
      · have cons : Aligned (type :: prototype) ↔ Aligned prototype := by
          rw [Aligned, List.pairwise_cons]
          exact ⟨fun both => both.2, fun aligned => ⟨fun _ _ _ => ⟨by simpa using server, buffer⟩, aligned⟩⟩
        rw [if_neg buffer, cons]
        split
        · rw [List.forall_mem_cons]
          exact ⟨fun both => (ih (j + 1)).mp both.2, fun aligned => ⟨rfl, (ih (j + 1)).mpr aligned⟩⟩
        · exact ih (j + 1)

theorem mem_pointerSlots_fst {i : Nat} : i ∈ (pointerSlots prototype j k).map Prod.fst ↔
    ∃ n type, i = j + n ∧ (drpcCreateClientPrototype prototype)[n]? = some type ∧ type.isPointer = true := by
  induction prototype generalizing j k with
  | nil => simp [pointerSlots, drpcCreateClientPrototype]
  | cons type prototype ih =>
    rw [pointerSlots]
    by_cases server : type.isServerOnly = true
    · rw [if_pos server, ih, drpcCreateClientPrototype_cons_server server]
    · rw [if_neg server, drpcCreateClientPrototype_cons (by simpa using server)]
      have later : ∀ {k : Nat}, i ∈ (pointerSlots prototype (j + 1) k).map Prod.fst ↔ ∃ n other, i = j + (n + 1) ∧
          (type :: drpcCreateClientPrototype prototype)[n + 1]? = some other ∧ other.isPointer = true := by
        intro k
        rw [ih]
        simp only [List.getElem?_cons_succ, show ∀ n, j + 1 + n = j + (n + 1) by omega]
      constructor
      · intro member
        split at member
        · next pointer =>
          rw [List.map_cons, List.mem_cons] at member
          rcases member with rfl | member
          · exact ⟨0, type, rfl, rfl, pointer⟩
          · obtain ⟨n, other, at_i, held, pointer⟩ := later.mp member
            exact ⟨n + 1, other, at_i, held, pointer⟩
        · obtain ⟨n, other, at_i, held, pointer⟩ := later.mp member
          exact ⟨n + 1, other, at_i, held, pointer⟩
      · rintro ⟨n, other, at_i, held, pointer⟩
        cases n with
        | zero =>
          cases held
          rw [if_pos pointer, List.map_cons, at_i]
          exact List.mem_cons_self ..
        | succ n =>
          have member := fun k => later (k := k) |>.mpr ⟨n, other, at_i, held, pointer⟩
          split
          · exact List.mem_cons_of_mem _ (member _)
          · exact member _

theorem pointerSlots_le : ∀ slot ∈ pointerSlots prototype j k, j ≤ slot.1 ∧ k ≤ slot.2 := by
  induction prototype generalizing j k with
  | nil => simp [pointerSlots]
  | cons type prototype ih =>
    have later : ∀ {j' k'}, j ≤ j' → k ≤ k' → ∀ slot ∈ pointerSlots prototype j' k', j ≤ slot.1 ∧ k ≤ slot.2 := by
      intro j' k' left right slot member
      have bound := ih slot member
      omega
    rw [pointerSlots]
    split
    · exact later (by omega) (by omega)
    · split
      · rw [List.forall_mem_cons]
        exact ⟨⟨le_rfl, le_rfl⟩, later (by omega) (by split <;> omega)⟩
      · exact later (by omega) (by omega)

theorem pointerSlots_increasing :
    (pointerSlots prototype j k).Pairwise fun before after => before.1 < after.1 ∧ before.2 < after.2 := by
  induction prototype generalizing j k with
  | nil => exact List.Pairwise.nil
  | cons type prototype ih =>
    rw [pointerSlots]
    split
    · exact ih
    · split
      · refine List.Pairwise.cons (fun slot member => ?_) ih
        have bound := pointerSlots_le slot member
        split at bound <;> omega
      · exact ih

/-- When every argument index is a slot index, the two are equal throughout. -/
theorem pointerSlots_equal_of_subset
    (inside : (pointerSlots prototype j k).map Prod.fst ⊆ (pointerSlots prototype j k).map Prod.snd) :
    ∀ slot ∈ pointerSlots prototype j k, slot.1 = slot.2 := by
  have firsts : ((pointerSlots prototype j k).map Prod.fst).Pairwise (· < ·) :=
    List.pairwise_map.mpr (pointerSlots_increasing.imp fun both => both.1)
  have seconds : ((pointerSlots prototype j k).map Prod.snd).Pairwise (· < ·) :=
    List.pairwise_map.mpr (pointerSlots_increasing.imp fun both => both.2)
  have perm := (List.subperm_of_subset (firsts.imp Nat.ne_of_lt) inside).perm_of_length_le (by simp)
  have same := perm.eq_of_pairwise (fun a b _ _ before after => by omega) firsts seconds
  exact List.map_inj_left.mp same

end Slots

/-- With an element at each of the counted indices there is none behind them. -/
theorem DArray.lt_realSize_of_full {a : DArray Argument} (counted : a.elements.length ≤ a.realSize)
    (full : ∀ i < a.realSize, (a.lookup i).isSome) {i : Nat} (occupied : (a.lookup i).isSome) : i < a.realSize := by
  by_contra beyond
  have distinct : (i :: List.range a.realSize).Nodup :=
    List.nodup_cons.mpr ⟨fun member => beyond (List.mem_range.mp member), List.nodup_range⟩
  have inside : i :: List.range a.realSize ⊆ a.fields.map Prod.fst := by
    intro n member
    rcases List.mem_cons.mp member with rfl | below
    · exact DArray.occupied_iff.mp occupied
    · exact DArray.occupied_iff.mp (full n (List.mem_range.mp below))
  have length := (List.subperm_of_subset distinct inside).length_le
  have fields := congrArg List.length a.fields_elements
  rw [List.length_map] at fields
  rw [List.length_cons, List.length_range, List.length_map] at length
  omega

section Call
variable {memory : Memory Element} {arguments : DArray Argument} {fnInfo : DrpcFunction} {returnMsg : DStruct Field}
  {result : CallResult}

theorem updates_index {map : Nat → Option Argument} {slots : List (Nat × Nat)} {repackQue : List DrpcTypeUpdate}
    (updates : Updates map slots repackQue) : repackQue.zipIdx.map (·.1.index) = slots.map Prod.snd := by
  have same : repackQue.zipIdx.map (·.1.index) = repackQue.map (·.index) := by
    rw [← List.zipIdx_map_fst 0 repackQue, List.map_map]
    simp
  rw [same]
  clear same
  induction updates with
  | nil => rfl
  | cons head _ ih => rw [List.map_cons, List.map_cons, head.1, ih]

/-- The pointers of the arguments stand at the argument indices of the
prototype, and a call unlinks those that stand at the slot indices. -/
theorem drpcServerCallFn_arguments (wf : arguments.Wf)
    (called : drpcServerCallFn memory (some arguments) fnInfo returnMsg = .ok (some result)) :
    (∀ i, (∃ argument, arguments.lookup i = some argument ∧ argument.isPacked = false) ↔
        i ∈ (pointerSlots (fnInfo.prototype.getD []) 0 0).map Prod.fst) ∧
      ∀ i, result.arguments.lookup i = if i ∈ (pointerSlots (fnInfo.prototype.getD []) 0 0).map Prod.snd then
        (arguments.lookup i).filter Argument.isPacked else arguments.lookup i := by
  obtain ⟨⟨_, slots, toRepack⟩, left, nativeReturn, s, ready, -, looped, same, -, -, -⟩ := drpcServerCallFn_inv called
  obtain ⟨rfl, length, accepts, walked⟩ := drpcServerPrepareFn_spec ready
  obtain ⟨present, updates⟩ := ffiFromDrpc_spec accepts walked
  have after := repack_arguments wf.holds looped
  rw [updates_index updates, ← same] at after
  refine ⟨fun i => ⟨?_, ?_⟩, after.lookup⟩
  · rintro ⟨argument, held, pointer⟩
    rw [mem_pointerSlots_fst]
    have bound : i < _ := DArray.lt_realSize_of_full wf.counted
      (fun n below => by simpa using present n (by rw [← length]; exact below)) (by rw [held]; rfl)
    rw [length] at bound
    have at_i := List.getElem?_eq_getElem bound
    have type := accepts i _ at_i
    rw [Nat.zero_add, typeAt, held] at type
    cases argument with
    | packed _ _ _ => cases pointer
    | pointer stored ptr len isPointer =>
      refine ⟨i, _, (Nat.zero_add i).symm, at_i, ?_⟩
      rw [← DrpcTypes.toChar_injective (show stored.toChar = _ from type)]
      exact isPointer
  · intro member
    obtain ⟨slot, inside, rfl⟩ := List.mem_map.mp member
    obtain ⟨update, len, held, found⟩ := updates.of_mem inside
    exact ⟨_, found, rfl⟩

end Call

section Idle

/-- A function whose body does nothing. -/
def idleFunction (prototype : List DrpcTypes) : DrpcFunction where
  prototype := some prototype
  returnType := .dVoid
  minimalPermissionLevel := 0
  fn := fun _ memory => pure (memory, 0)

/-- A memory with one struct, and the array of arguments that refers to it. -/
def structMemory : Memory Element := (Memory.empty.alloc (.dstruct newDStruct)).2

def structArguments : DArray Argument := ⟨1, [.elem (.pointer .dStruct 1 0 (Eq.refl true))]⟩

theorem structArguments_wf : structArguments.Wf where
  initialised := by simp [structArguments]
  live := by simp [structArguments]
  counted := le_rfl
  allocated := by decide

theorem idleFunction_called (prototype : List DrpcTypes) {slots : List FfiSlot} {k : Nat} {after : DArray Argument} {done : Bool}
    (ready : drpcServerPrepareFn (some structArguments) (idleFunction prototype) =
      .ok (some (structArguments, slots, [⟨.dStruct, 0, k, 1⟩])))
    (unlinked : dArrayUnlink structArguments k = .ok (after, done)) :
    ∃ result, drpcServerCallFn structMemory (some structArguments) (idleFunction prototype) newDStruct = .ok (some result) ∧
      result.arguments = after ∧ result.repacked = some structArguments := by
  obtain ⟨returnMsg, set, -⟩ := DStruct.Filled.start.set (.ofString "repacked_arguments") (Field.arguments structArguments)
    List.not_mem_nil
  have looped : [((⟨.dStruct, 0, k, 1⟩ : DrpcTypeUpdate), 0)].foldlM (repackArgument (idleFunction prototype) 0)
      ⟨structArguments, newDArray 1, structMemory, -1, []⟩ = .ok ⟨after, structArguments, structMemory, -1, []⟩ := by
    rw [List.foldlM_cons]
    simp only [repackArgument, unlinked, ok_bind]
    rfl
  refine ⟨⟨after, some structArguments, returnMsg, structMemory, [],
    { idleFunction prototype with prototype := (some prototype).map drpcProtoToFfi }⟩, ?_, rfl, rfl⟩
  rw [drpcServerCallFn, ready, ok_bind]
  dsimp only
  rw [drpcServerInvokeFn]
  dsimp only [idleFunction, List.zipIdx_cons, List.zipIdx_nil, pure_eq_ok] at looped ⊢
  rw [ok_bind]
  dsimp only
  rw [List.length_singleton, looped, ok_bind]
  dsimp only
  rw [setRepacked, if_pos Nat.one_pos, set]
  rfl

end Idle

section Main
variable {memory : Memory Element} {arguments : DArray Argument} {fnInfo : DrpcFunction} {returnMsg : DStruct Field}
  {result : CallResult}

/-- A call unlinks exactly the pointer arguments, so that the arguments share
no object with the reply and keep no released buffer, if and only if no
server-only type and no sized buffer of the prototype precedes a pointer type. -/
theorem serverCall_unlinks_iff (wf : arguments.Wf)
    (called : drpcServerCallFn memory (some arguments) fnInfo returnMsg = .ok (some result)) :
    ((∀ i, (arguments.lookup i).isSome ∧ result.arguments.lookup i = none ↔ fnInfo.PointerIndex i) ∧
      (∀ repacked, result.repacked = some repacked → ∀ address,
        ¬ (result.arguments.Linked address ∧ repacked.Linked address)) ∧
      ∀ address ∈ result.freed, ¬ result.arguments.Linked address) ↔ Aligned (fnInfo.prototype.getD []) := by
  obtain ⟨pointers, after⟩ := drpcServerCallFn_arguments wf called
  have indices : ∀ i, fnInfo.PointerIndex i ↔ i ∈ (pointerSlots (fnInfo.prototype.getD []) 0 0).map Prod.fst := by
    intro i
    rw [mem_pointerSlots_fst]
    constructor
    · rintro ⟨type, at_i, pointer⟩
      exact ⟨i, type, (Nat.zero_add i).symm, at_i, pointer⟩
    · rintro ⟨n, type, rfl, at_n, pointer⟩
      exact ⟨type, by rwa [Nat.zero_add], pointer⟩
  rw [← pointerSlots_equal_iff 0]
  constructor
  · rintro ⟨unlinked, -, -⟩
    refine pointerSlots_equal_of_subset fun i member => ?_
    obtain ⟨occupied, gone⟩ := (unlinked i).mpr ((indices i).mpr member)
    by_contra kept
    rw [after, if_neg kept] at gone
    rw [gone] at occupied
    cases occupied
  · intro equal
    have same : (pointerSlots (fnInfo.prototype.getD []) 0 0).map Prod.fst =
        (pointerSlots (fnInfo.prototype.getD []) 0 0).map Prod.snd := List.map_inj_left.mpr equal
    have nothing : ∀ address, ¬ result.arguments.Linked address := by
      rintro address ⟨i, type, len, held, linked⟩
      rw [after] at linked
      split at linked
      · have packed := (Option.filter_eq_some_iff.mp linked).2
        cases packed
      · next outside =>
        rw [← same] at outside
        exact outside ((pointers i).mp ⟨_, linked, rfl⟩)
    refine ⟨fun i => ?_, fun _ _ address both => nothing address both.1, fun address _ => nothing address⟩
    rw [indices]
    constructor
    · rintro ⟨occupied, gone⟩
      rw [after] at gone
      split at gone
      · next inside =>
        rw [same]
        exact inside
      · rw [gone] at occupied
        cases occupied
    · intro member
      obtain ⟨argument, held, pointer⟩ := (pointers i).mpr member
      refine ⟨by rw [held]; rfl, ?_⟩
      rw [after, if_pos (same ▸ member), held]
      simp [Option.filter, pointer]

end Main

theorem serverCall_unlinks_iff_struct :
    ∃ result, drpcServerCallFn structMemory (some structArguments) (idleFunction [.dStruct, .dFnstorage]) newDStruct =
        .ok (some result) ∧ ∀ i, (structArguments.lookup i).isSome ∧ result.arguments.lookup i = none ↔
          (idleFunction [.dStruct, .dFnstorage]).PointerIndex i := by
  obtain ⟨result, called, -⟩ := idleFunction_called [.dStruct, .dFnstorage] (k := 0) rfl rfl
  have aligned : Aligned [.dStruct, .dFnstorage] := by decide
  exact ⟨result, called, ((serverCall_unlinks_iff structArguments_wf called).mpr aligned).1⟩

/-- A server-only type ahead of a struct: the struct stays linked in the
arguments and is in the reply too. -/
theorem serverCall_keepsStruct :
    ∃ result, drpcServerCallFn structMemory (some structArguments) (idleFunction [.dFnstorage, .dStruct]) newDStruct =
        .ok (some result) ∧ (idleFunction [.dFnstorage, .dStruct]).PointerIndex 0 ∧ result.arguments.Linked 1 ∧
      ∃ repacked, result.repacked = some repacked ∧ repacked.Linked 1 := by
  obtain ⟨result, called, after, repacked⟩ := idleFunction_called [.dFnstorage, .dStruct] (k := 1) rfl rfl
  refine ⟨result, called, ⟨.dStruct, rfl, rfl⟩, ?_, structArguments, repacked, 0, .dStruct, 0, rfl, rfl⟩
  rw [after]
  exact ⟨0, .dStruct, 0, rfl, rfl⟩

end DynamicRPC
