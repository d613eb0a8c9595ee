import DynamicRPC.FfiSlots
import DynamicRPC.ScalarPassing

namespace DynamicRPC
open Outcome

/-- The number that the callee reads in a slot. -/
def FfiSlot.scalarValue : FfiSlot → Option Int
  | .scalar type bytes => some (⟨type, bytes⟩ : DrpcType).value
  | _ => none

/-- At every scalar position the array has an element of its type, and what
`d_array_get` stores of it reads as the number passed. -/
def ScalarsHeld (prototype : List DrpcTypes) (args : List CallerArg) (a : DArray Argument) : Prop :=
  ∀ i type v, prototype[i]? = some type → args[i]? = some (.number v) →
    dArrayGetType a i = .ok type.toChar ∧ ∃ data scalar bytes,
      dArrayGet a i type.toChar = .ok (some (.packed type.toChar data scalar)) ∧
      packedSlot type.toChar data = .ok (.scalar type.toChar bytes) ∧ (⟨type.toChar, bytes⟩ : DrpcType).value = v

/-- A server whose function has that prototype for its clients accepts the
array, unless the prototype names a type that no array holds, and the numbers
in the callee's slots are the numbers passed. -/
def SlotsFilled (prototype : List DrpcTypes) (args : List CallerArg) (a : DArray Argument) : Prop :=
  ∀ serv, drpcCreateClientPrototype serv = prototype → ∃ types, extractPrototype a = .ok types ∧
    (isArgumentsEqualPrototype (some serv) (some types) = 0 ↔ ∀ type ∈ prototype, type.isCarried = true) ∧
    (isArgumentsEqualPrototype (some serv) (some types) = 0 → ∃ slots toRepack,
      ffiFromDrpc a serv 0 0 = .ok (slots, toRepack) ∧
      slots.filterMap FfiSlot.scalarValue = args.filterMap CallerArg.number?)

/-- The numbers are in the array that the client builds, and the message with it
reaches the server, where they are in the array that `drpc_handle_call` takes
out of it and in the slots of the callee. -/
structure CallArrives (prototype : List DrpcTypes) (args : List CallerArg) (call : ClientCall) : Prop where
  built : ∃ arguments, call.message.hashtable.lookup (.ofString "arguments") = some (.arguments arguments) ∧
    ScalarsHeld prototype args arguments
  received : ∀ aes before, ∃ recv after message loaded,
    drpcTcpSend aes call.memory ⟨.call, some call.message⟩ = .ok (some recv) ∧
    drpcTcpLoad (.ofString "arguments") before recv = .ok (after, ⟨.call, some message⟩) ∧
    dStructGet message (.ofString "arguments") .dArray = .ok (some (.arguments loaded)) ∧
    ScalarsHeld prototype args loaded ∧ SlotsFilled prototype args loaded

/-- Every float and double is a positive zero, every array inside an object
that is passed has its occupied indices exactly `0..n-1`, and no type without a
value comes before one that has values. -/
structure Carriable (prototype : List DrpcTypes) (args : List CallerArg) : Prop where
  zero : ∀ (i : Nat) (type : DrpcTypes) (v : Int), prototype[i]? = some type → args[i]? = some (.number v) →
    type.isFloating = true → v = 0
  dense : ∀ e, .object e ∈ args → e.Dense
  noGap : ∀ (i j : Nat) (arg : CallerArg), i < j → args[i]? = some .nothing → args[j]? = some arg → arg = .nothing

section Arrive
variable {convert : Nat → Nat} {memory : Memory Element} {type : DrpcTypes} {arg : CallerArg} {found : Option Argument}

/-- The element that carries what a caller passes. -/
inductive Carried : DrpcTypes → CallerArg → Option Argument → Prop
  | object {type : DrpcTypes} {argument : Argument} {e : Element} (same : argument.type = type.toChar)
      (pointer : type.isPointer = true) : Carried type (.object e) (some argument)
  | number {type : DrpcTypes} {bytes : List UInt8} (sized : type.scalarWidth = some bytes.length)
      (scalar : isPointerChar type.toChar = false) : Carried type (.number (⟨type.toChar, bytes⟩ : DrpcType).value)
        (some (.packed type.toChar ⟨type.toChar, bytes⟩ scalar))
  | nothing {type : DrpcTypes} (uncarried : type.isCarried = false) : Carried type .nothing none

theorem Taken.carries (taken : Taken convert memory type arg found) (conforms : Ieee.Conforms convert)
    (zero : ∀ v, arg = .number v → type.isFloating = true → v = 0) : Carried type arg found := by
  cases taken with
  | object same pointer => exact .object same pointer
  | number sized valid held scalar =>
    have kept := held.kept conforms (zero _ rfl)
    rw [← (value_encode valid).mpr kept]
    exact .number (by rw [sized, LittleEndian.encode_length]) scalar
  | nothing uncarried => exact .nothing uncarried

theorem filledSlot_scalar {bytes : List UInt8} (sized : type.scalarWidth = some bytes.length) :
    filledSlot type.toChar ⟨type.toChar, bytes⟩ = .scalar type.toChar bytes := by
  simp only [filledSlot, charWidth_toChar, sized, List.take_length]

theorem Carried.full {argument : Argument} (carries : Carried type arg (some argument)) : argument.Full := by
  cases carries with
  | object same pointer =>
    cases argument with
    | packed stored data scalar =>
      rw [show stored = type.toChar from same, isPointerChar_toChar, pointer] at scalar
      cases scalar
    | pointer => trivial
  | number sized scalar =>
    intro width known
    rw [charWidth_toChar, sized] at known
    cases known
    exact le_rfl

theorem Carried.isCarried {argument : Argument} (carries : Carried type arg (some argument)) :
    type.isCarried = true ∧ argument.type = type.toChar := by
  cases carries with
  | object same pointer => exact ⟨by rw [DrpcTypes.isCarried, pointer, Bool.true_or], same⟩
  | number sized scalar => exact ⟨by rw [DrpcTypes.isCarried, sized, Option.isSome_some, Bool.or_true], rfl⟩

variable {prototype : List DrpcTypes} {args : List CallerArg} {a : DArray Argument} {size : Nat}

/-- From index `j` on the array carries what is passed. -/
def CarriesAll (prototype : List DrpcTypes) (args : List CallerArg) (a : DArray Argument) (j : Nat) : Prop :=
  List.Forall₂ (fun entry arg => Carried entry.1 arg (a.lookup entry.2)) (prototype.zipIdx j) args

theorem CarriesAll.carries (carried : CarriesAll prototype args a 0) {i : Nat} (at_i : prototype[i]? = some type) :
    ∃ arg, args[i]? = some arg ∧ Carried type arg (a.lookup i) := by
  obtain ⟨length, each⟩ := forall₂_iff_getElem?.mp carried
  have entry : (prototype.zipIdx 0)[i]? = some (type, i) := by
    rw [List.getElem?_zipIdx, at_i, Nat.zero_add]
    rfl
  have bound := (List.getElem?_eq_some_iff.mp entry).choose
  have passed : args[i]? = some args[i] := List.getElem?_eq_getElem (by omega)
  exact ⟨_, passed, each i _ _ entry passed⟩

theorem scalarsHeld_of_carries (holds : a.Holds size a.lookup) (carried : CarriesAll prototype args a 0) :
    ScalarsHeld prototype args a := by
  intro i type v at_i passed
  obtain ⟨arg, passed', here⟩ := carried.carries at_i
  rw [passed] at passed'
  cases passed'
  obtain ⟨getType, get⟩ := holds.reads i
  generalize found : a.lookup i = element at here getType get
  cases here with
  | number sized scalar =>
    refine ⟨getType, _, scalar, _, (get type.toChar).trans (congrArg Except.ok (if_pos (beq_self_eq_true type.toChar))),
      (packedSlot_eq_ok scalar).mpr ⟨(Carried.number sized scalar).full, (filledSlot_scalar sized).symm⟩, rfl⟩

/-- The slots of the callee that hold numbers, in order. The induction is on
the prototype of the server, with the arguments from `j` on. -/
theorem ffiFromDrpc_scalars {serv : List DrpcTypes} {j k : Nat} {slots : List FfiSlot}
    {toRepack : List DrpcTypeUpdate} (carried : CarriesAll (drpcCreateClientPrototype serv) args a j)
    (ran : ffiFromDrpc a serv j k = .ok (slots, toRepack)) :
    slots.filterMap FfiSlot.scalarValue = args.filterMap CallerArg.number? := by
  induction serv generalizing j k slots toRepack args with
  | nil =>
    cases ran
    cases carried
    rfl
  | cons type serv ih =>
    obtain ⟨server, rest, run, rfl⟩ | ⟨client, stored, data, scalar, rest, held, run, rfl⟩ |
      ⟨client, stored, ptr, len, pointer, rest, tail, held, run, rfl, rfl⟩ := ffiFromDrpc_cons_inv ran
    · rw [drpcCreateClientPrototype_cons_server server] at carried
      exact (List.filterMap_cons_none rfl).trans (ih carried run)
    · rw [drpcCreateClientPrototype_cons client, CarriesAll, List.zipIdx_cons] at carried
      cases carried with
      | cons here others =>
        have later := ih others run
        rw [held] at here
        cases here with
        | object same pointer =>
          rw [show stored = type.toChar from same, isPointerChar_toChar, pointer] at scalar
          cases scalar
        | number sized =>
          rw [filledSlot_scalar sized]
          exact congrArg (List.cons _) later
    · rw [drpcCreateClientPrototype_cons client, CarriesAll, List.zipIdx_cons] at carried
      cases carried with
      | cons here others =>
        have later := ih others run
        rw [held] at here
        cases here with
        | object =>
          rw [List.filterMap_cons_none rfl, List.filterMap_cons_none rfl, ← later]
          split
          · exact List.filterMap_cons_none rfl
          · rfl

/-- The array carries a value at every index of the prototype when it has as
many elements as the prototype has types, and only then. -/
theorem CarriesAll.full_iff (carried : CarriesAll prototype args a 0) (dense : a.Dense)
    (absent : ∀ i, prototype.length ≤ i → a.lookup i = none) :
    a.elements.length = prototype.length ↔ ∀ type ∈ prototype, type.isCarried = true := by
  obtain ⟨n, indices⟩ := dense
  obtain ⟨length, -⟩ := DArray.lookup_dense indices
  rw [length]
  constructor
  · rintro rfl type member
    obtain ⟨i, at_i⟩ := List.mem_iff_getElem?.mp member
    obtain ⟨arg, -, here⟩ := carried.carries at_i
    have within := (List.getElem?_eq_some_iff.mp at_i).choose
    obtain ⟨argument, found⟩ := Option.isSome_iff_exists.mp ((indices i).mpr within)
    rw [found] at here
    exact here.isCarried.1
  · intro all
    have beyond : ¬ prototype.length < n := by
      intro more
      have occupied := (indices prototype.length).mpr more
      rw [absent _ le_rfl] at occupied
      cases occupied
    refine Nat.le_antisymm (Nat.not_lt.mp beyond) (Nat.not_lt.mp fun fewer => ?_)
    have at_n : prototype[n]? = some prototype[n] := List.getElem?_eq_getElem fewer
    obtain ⟨arg, -, here⟩ := carried.carries at_n
    cases found : a.lookup n with
    | none =>
      rw [found] at here
      cases here with
      | nothing uncarried =>
        rw [all _ (List.getElem_mem fewer)] at uncarried
        cases uncarried
    | some argument =>
      have occupied := (indices n).mp (by rw [found]; rfl)
      omega

theorem slotsFilled_of_carries (holds : a.Holds size a.lookup) (counted : a.realSize = a.elements.length)
    (dense : a.Dense) (absent : ∀ i, prototype.length ≤ i → a.lookup i = none)
    (carried : CarriesAll prototype args a 0) : SlotsFilled prototype args a := by
  have full := carried.full_iff dense absent
  rw [← counted] at full
  have there : a.realSize = prototype.length → ∀ i < prototype.length, ∃ argument, a.lookup i = some argument := by
    intro all i within
    obtain ⟨n, indices⟩ := dense
    obtain ⟨length, -⟩ := DArray.lookup_dense indices
    exact Option.isSome_iff_exists.mp ((indices i).mpr (by omega))
  intro serv same
  subst same
  refine ⟨_, extractPrototype_eq holds, ?_⟩
  rw [isArgumentsEqualPrototype_eq_zero, Option.getD_some]
  refine ⟨⟨fun accepted => full.mp (accepts_of_types accepted).1, fun all => ?_⟩, fun accepted => ?_⟩
  · have length := full.mpr all
    rw [length]
    refine List.ext_getElem (by rw [List.length_map, List.length_map, List.length_range]) fun i bound bound' => ?_
    rw [List.length_map] at bound'
    obtain ⟨argument, found⟩ := there length i bound'
    obtain ⟨arg, -, here⟩ := carried.carries (List.getElem?_eq_getElem bound')
    rw [found] at here
    rw [List.getElem_map, List.getElem_map, List.getElem_range, typeAt, found]
    exact here.isCarried.2
  · have length := (accepts_of_types accepted).1
    obtain ⟨⟨slots, toRepack⟩, ran⟩ : Returns (ffiFromDrpc a serv 0 0) := by
      refine ffiFromDrpc_returns_iff.mpr fun i within => ?_
      rw [Nat.zero_add]
      obtain ⟨argument, found⟩ := there length i within
      obtain ⟨arg, -, here⟩ := carried.carries (List.getElem?_eq_getElem within)
      rw [found] at here
      exact ⟨argument, holds.get.trans (congrArg Except.ok found), here.full⟩
    exact ⟨slots, toRepack, ran, ffiFromDrpc_scalars carried ran⟩

/-- Lists of what two partial maps with one domain hold agree at every index. -/
theorem filterMap_range_inj {α : Type} {f g : Nat → Option α} (domain : ∀ i, (f i).isSome = (g i).isSome) {n : Nat}
    (same : (List.range n).filterMap f = (List.range n).filterMap g) : ∀ i < n, f i = g i := by
  induction n with
  | zero => exact fun i bound => absurd bound (Nat.not_lt_zero i)
  | succ n ih =>
    rw [List.range_succ, List.filterMap_append, List.filterMap_append] at same
    have here := domain n
    obtain ⟨before, last⟩ : (List.range n).filterMap f = (List.range n).filterMap g ∧ f n = g n := by
      cases at_f : f n with
      | none =>
        rw [at_f, Option.isSome_none, eq_comm, Option.isSome_eq_false_iff, Option.isNone_iff_eq_none] at here
        rw [List.filterMap_cons_none at_f, List.filterMap_cons_none here] at same
        exact ⟨(List.append_inj' same rfl).1, here.symm⟩
      | some x =>
        rw [at_f, Option.isSome_some, eq_comm, Option.isSome_iff_exists] at here
        obtain ⟨y, at_g⟩ := here
        rw [List.filterMap_cons_some at_f, List.filterMap_cons_some at_g] at same
        obtain ⟨before, tail⟩ := List.append_inj' same rfl
        cases tail
        exact ⟨before, at_g.symm⟩
    intro i bound
    obtain earlier | rfl := Nat.lt_succ_iff_lt_or_eq.mp bound
    · exact ih before i earlier
    · exact last

/-- At every index an arrived array looks as at the sender. -/
theorem Arrived.view_at {key : CString} {sender before after : Memory Element} {arguments loaded : DArray Argument}
    {message : DStruct Field} (arrived : Arrived key sender arguments before after message loaded) (i : Nat) :
    (loaded.lookup i).map (Argument.view after) = (arguments.lookup i).map (Argument.view sender) := by
  have views := arrived.views
  rw [DArray.elements_eq (Nat.le_max_left loaded.lookupSize (max arguments.lookupSize (i + 1))),
    DArray.elements_eq (show arguments.lookupSize ≤ max loaded.lookupSize (max arguments.lookupSize (i + 1)) by omega),
    List.map_filterMap, List.map_filterMap] at views
  refine filterMap_range_inj (fun j => ?_) views i (by omega)
  rw [Option.isSome_map, Option.isSome_map, arrived.occupied j]

theorem Argument.view_packed {memory memory' : Memory Element} {argument argument' : Argument}
    (looks : argument'.view memory' = argument.view memory) : argument'.isPacked = argument.isPacked := by
  have types : argument'.type = argument.type := (Prod.mk.inj looks).1
  have char : ∀ argument : Argument, isPointerChar argument.type = !argument.isPacked := by
    intro argument
    cases argument with
    | packed type data scalar => exact scalar
    | pointer type address len held => exact (isPointerChar_toChar type).trans held
  have same := (char argument').symm.trans ((congrArg isPointerChar types).trans (char argument))
  exact Bool.not_inj same

section Arrived
variable {key : CString} {sender before after : Memory Element} {arguments loaded : DArray Argument}
  {message : DStruct Field}

theorem Arrived.carries (arrived : Arrived key sender arguments before after message loaded) {i : Nat}
    (carries : Carried type arg (arguments.lookup i)) : Carried type arg (loaded.lookup i) := by
  have looks := arrived.view_at i
  generalize arguments.lookup i = sent at carries looks
  cases carries with
  | object same pointer =>
    obtain ⟨argument, found, looks⟩ := Option.map_eq_some_iff.mp looks
    rw [found]
    exact .object ((Prod.mk.inj looks).1.trans same) pointer
  | number sized scalar =>
    obtain ⟨argument, found, same⟩ := Option.map_eq_some_iff.mp looks
    rw [found]
    have packed := Argument.view_packed same
    cases argument with
    | packed stored data' scalar' =>
      cases same
      exact .number sized scalar
    | pointer => cases packed
  | nothing uncarried =>
    rw [Option.map_none, Option.map_eq_none_iff] at looks
    rw [looks]
    exact .nothing uncarried

theorem Arrived.dense_iff (arrived : Arrived key sender arguments before after message loaded) :
    loaded.Dense ↔ arguments.Dense := by
  unfold DArray.Dense
  simp only [arrived.occupied]

theorem Arrived.absent (arrived : Arrived key sender arguments before after message loaded) {i : Nat}
    (absent : arguments.lookup i = none) : loaded.lookup i = none := by
  have occupied := arrived.occupied i
  rwa [absent, Option.isSome_none, Option.isSome_eq_false_iff, Option.isNone_iff_eq_none] at occupied

end Arrived
end Arrive

/-- A call message as `drpc_client_call_internal` builds it, with its array. -/
structure BuildsCall (convert : Nat → Nat) (memory : Memory Element) (fnName : CString) (prototype : List DrpcTypes)
    (args : List CallerArg) (varargs : List Nat) (call : ClientCall) (arguments : DArray Argument) : Prop where
  built : drpcClientCallMessage convert memory fnName prototype varargs = .ok call
  filled : call.message.Filled [(.ofString "fn_name", .element (.str fnName.block)),
    (.ofString "arguments", .arguments arguments)]
  holds : arguments.Holds (max prototype.length 1) arguments.lookup
  absent : ∀ i, prototype.length ≤ i → arguments.lookup i = none
  found : List.Forall₂ (fun entry arg => Taken convert call.memory entry.1 arg (arguments.lookup entry.2))
    (prototype.zipIdx 0) args
  owned : ∀ passed ∈ call.repackable, (memory.cells passed.ptr).isSome

section Call
variable {convert : Nat → Nat} {memory : Memory Element} {fnName : CString} {prototype : List DrpcTypes}
  {args : List CallerArg} {varargs : List Nat} {call : ClientCall} {arguments : DArray Argument}

theorem CallerArgs.builds (passed : CallerArgs memory prototype args varargs) (fnName : CString) (convert : Nat → Nat)
    (objects : ObjectsWf memory) : ∃ call arguments,
      BuildsCall convert memory fnName prototype args varargs call arguments := by
  have start := ClientArguments.Built.start memory varargs prototype.length
  obtain ⟨s, all⟩ := passed.run convert start (ClientArguments.Passes.start objects varargs prototype.length)
    (fun _ member => absurd member List.not_mem_nil) (by omega) rfl
  obtain ⟨done, -⟩ := start.run (by omega) all.ran
  obtain ⟨named, set, one⟩ := DStruct.Filled.start.set (.ofString "fn_name")
    (Field.element (.str fnName.block)) List.not_mem_nil
  obtain ⟨message, put, two⟩ := one.set (.ofString "arguments") (Field.arguments s.arguments) (by simp; decide)
  refine ⟨⟨message, s.memory, s.repackable⟩, s.arguments, ?_, two, done.holds, fun i beyond => ?_, all.found, all.owned⟩
  · rw [drpcClientCallMessage, all.ran, ok_bind, set, ok_bind, put]
    rfl
  · exact done.fresh i (by omega)

namespace BuildsCall

theorem taken (built : BuildsCall convert memory fnName prototype args varargs call arguments) {i : Nat} {arg : CallerArg}
    (passed : args[i]? = some arg) :
    ∃ type, prototype[i]? = some type ∧ Taken convert call.memory type arg (arguments.lookup i) := by
  obtain ⟨length, each⟩ := forall₂_iff_getElem?.mp built.found
  have within := (List.getElem?_eq_some_iff.mp passed).choose
  rw [← length, List.length_zipIdx] at within
  have at_i : prototype[i]? = some prototype[i] := List.getElem?_eq_getElem within
  refine ⟨_, at_i, each i (prototype[i], i) arg ?_ passed⟩
  rw [List.getElem?_zipIdx, at_i, Nat.zero_add]
  rfl

theorem passed_of_lookup (built : BuildsCall convert memory fnName prototype args varargs call arguments) {i : Nat}
    {argument : Argument} (found : arguments.lookup i = some argument) : ∃ arg, args[i]? = some arg := by
  have within : i < prototype.length := by
    by_contra beyond
    rw [built.absent i (Nat.not_lt.mp beyond)] at found
    cases found
  have length := (forall₂_iff_getElem?.mp built.found).1
  rw [List.length_zipIdx] at length
  exact ⟨_, List.getElem?_eq_getElem (by omega)⟩

/-- The array and what it leads to are dense when what is passed is. -/
theorem dense_iff (built : BuildsCall convert memory fnName prototype args varargs call arguments) :
    (arguments.Dense ∧ ∀ argument ∈ arguments.elements, ∀ e, argument.resolve call.memory = .ok e → e.Dense) ↔
      (∀ e, .object e ∈ args → e.Dense) ∧
        ∀ (i j : Nat) (arg : CallerArg), i < j → args[i]? = some .nothing → args[j]? = some arg → arg = .nothing := by
  constructor
  · rintro ⟨⟨n, indices⟩, items⟩
    refine ⟨fun e member => ?_, fun i j arg before nothing passed => ?_⟩
    · obtain ⟨i, passed⟩ := List.mem_iff_getElem?.mp member
      obtain ⟨type, -, taken⟩ := built.taken passed
      generalize found : arguments.lookup i = element at taken
      cases taken with
      | object same pointer leads dense => exact dense.mp (items _ (DArray.mem_of_lookup found) _ leads)
    · obtain ⟨_, -, vacant⟩ := built.taken nothing
      obtain ⟨_, -, taken⟩ := built.taken passed
      generalize found : arguments.lookup i = first at vacant
      generalize later : arguments.lookup j = second at taken
      cases vacant with
      | nothing =>
        cases taken with
        | nothing => rfl
        | _ =>
          have inside := (indices j).mp (by rw [later]; rfl)
          have occupied := (indices i).mpr (before.trans inside)
          rw [found] at occupied
          cases occupied
  · rintro ⟨objects, noGap⟩
    refine ⟨?_, fun argument member e leads => ?_⟩
    · refine DArray.dense_iff_noGap.mpr fun i j before occupied => ?_
      obtain ⟨argument, found⟩ := Option.isSome_iff_exists.mp occupied
      obtain ⟨arg, passed⟩ := built.passed_of_lookup found
      obtain ⟨type, -, here⟩ := built.taken passed
      have within := (List.getElem?_eq_some_iff.mp passed).choose
      obtain ⟨_, -, first⟩ := built.taken (List.getElem?_eq_getElem (before.trans within))
      generalize earlier : args[i] = arg' at first
      generalize arguments.lookup i = element at first ⊢
      cases first with
      | nothing =>
        have nothing : args[i]? = some .nothing := by rw [List.getElem?_eq_getElem (before.trans within), earlier]
        rw [noGap i j arg before nothing passed, found] at here
        cases here
      | _ => rfl
    · obtain ⟨i, found⟩ := DArray.lookup_of_mem member
      obtain ⟨arg, passed⟩ := built.passed_of_lookup found
      obtain ⟨type, -, taken⟩ := built.taken passed
      rw [found] at taken
      cases taken with
      | object same pointer resolved dense =>
        rw [resolved] at leads
        cases leads
        exact dense.mpr (objects _ (List.mem_of_getElem? passed))
      | number sized valid held scalar =>
        cases leads
        exact .packed

/-- The encoder finds the call message, and it is dense when what is passed is. -/
theorem resolves (built : BuildsCall convert memory fnName prototype args varargs call arguments) :
    ∃ d, call.message.resolve call.memory = .ok d ∧ ((Element.dstruct d).Dense ↔
      (∀ e, .object e ∈ args → e.Dense) ∧
        ∀ (i j : Nat) (arg : CallerArg), i < j → args[i]? = some .nothing → args[j]? = some arg → arg = .nothing) := by
  rw [← built.dense_iff]
  refine DStruct.Filled.resolve_call built.filled fun argument member => ?_
  obtain ⟨i, found⟩ := DArray.lookup_of_mem member
  obtain ⟨arg, passed⟩ := built.passed_of_lookup found
  obtain ⟨type, -, taken⟩ := built.taken passed
  rw [found] at taken
  cases taken with
  | object same pointer leads dense => exact ⟨_, leads⟩
  | number => exact returns_ok _

theorem carried (built : BuildsCall convert memory fnName prototype args varargs call arguments) :
    call.message.hashtable.lookup (.ofString "arguments") = some (.arguments arguments) := by
  rw [built.filled.lookup]
  rfl

/-- With zeros for the floats and doubles the array carries what is passed. -/
theorem carriesAll (built : BuildsCall convert memory fnName prototype args varargs call arguments)
    (conforms : Ieee.Conforms convert) (zero : ∀ (i : Nat) (type : DrpcTypes) (v : Int), prototype[i]? = some type →
      args[i]? = some (.number v) → type.isFloating = true → v = 0) : CarriesAll prototype args arguments 0 := by
  obtain ⟨length, each⟩ := forall₂_iff_getElem?.mp built.found
  refine forall₂_iff_getElem?.mpr ⟨length, fun i entry arg at_entry at_arg => ?_⟩
  refine (each i entry arg at_entry at_arg).carries conforms fun v same floating => ?_
  subst same
  rw [List.getElem?_zipIdx] at at_entry
  obtain ⟨type, at_i, rfl⟩ := Option.map_eq_some_iff.mp at_entry
  exact zero i type v at_i at_arg floating

/-- A number that is read back out of the array was kept by the conversion. -/
theorem zero_of_held (built : BuildsCall Ieee.toUInt64 memory fnName prototype args varargs call arguments)
    (held : ScalarsHeld prototype args arguments) {i : Nat} {type : DrpcTypes} {v : Int} (at_i : prototype[i]? = some type)
    (passed : args[i]? = some (.number v)) (floating : type.isFloating = true) : v = 0 := by
  obtain ⟨-, data, scalar, bytes, get, slot, same⟩ := held i type v at_i passed
  obtain ⟨type', at_i', taken⟩ := built.taken passed
  rw [at_i] at at_i'
  cases at_i'
  have found := (built.holds.reads i).2 type.toChar
  rw [get] at found
  generalize arguments.lookup i = element at taken found
  cases taken with
  | number sized valid input =>
    have stored := found.trans (congrArg Except.ok (if_pos (beq_self_eq_true type.toChar)))
    cases stored
    have filled := ((packedSlot_eq_ok scalar).mp slot).2
    rw [filledSlot_scalar (by rw [sized, LittleEndian.encode_length])] at filled
    cases filled
    exact input.zero sized valid floating ((value_encode valid).mp same)

end BuildsCall

/-- The numbers of a call arrive, whatever the conversion of doubles to integers
does with those that have no integral part, if and only if every float and
double is a positive zero and nothing in the call has a gap. -/
theorem callArrives_iff (fnName : CString) (objects : ObjectsWf memory) (fits : prototype.length < 2 ^ 61)
    (passed : CallerArgs memory prototype args varargs)
    (small : ∀ convert call d, Ieee.Conforms convert →
      drpcClientCallMessage convert memory fnName prototype varargs = .ok call →
      call.message.resolve call.memory = .ok d → (fieldsBuf d.hashtable.bindings).length < 2 ^ 63) :
    (∀ convert, Ieee.Conforms convert → ∃ call,
        drpcClientCallMessage convert memory fnName prototype varargs = .ok call ∧ CallArrives prototype args call) ↔
      Carriable prototype args := by
  constructor
  · intro arrives
    obtain ⟨call, ran, ⟨arguments, carried, held⟩, received⟩ := arrives Ieee.toUInt64 Ieee.toUInt64_conforms
    obtain ⟨call', arguments', built⟩ := passed.builds fnName Ieee.toUInt64 objects
    cases ran.symm.trans built.built
    cases carried.symm.trans built.carried
    obtain ⟨d, resolved, dense⟩ := built.resolves
    obtain ⟨recv, after, message, loaded, sent, load, -⟩ := received none Memory.empty
    have good := drpcClientCallMessage_good objects fits built.owned ran
    have bound := small _ _ _ Ieee.toUInt64_conforms ran resolved
    obtain ⟨objects, noGap⟩ := dense.mp ((drpcTcpSend_arrives_iff built.filled.wf good resolved bound none _ _).mp
      ⟨recv, after, _, sent, load⟩)
    exact ⟨fun i type v at_i passed floating => built.zero_of_held held at_i passed floating, objects, noGap⟩
  · rintro ⟨zero, objectsDense, noGap⟩ convert conforms
    obtain ⟨call, arguments, built⟩ := passed.builds fnName convert objects
    have carries := built.carriesAll conforms zero
    refine ⟨call, built.built, ⟨arguments, built.carried, scalarsHeld_of_carries built.holds carries⟩, fun aes before => ?_⟩
    obtain ⟨d, resolved, dense⟩ := built.resolves
    have good := drpcClientCallMessage_good objects fits built.owned built.built
    obtain ⟨recv, after, received, sent, load⟩ := (drpcTcpSend_arrives_iff built.filled.wf good resolved
      (small _ _ _ conforms built.built resolved) aes (.ofString "arguments") before).mpr (dense.mpr ⟨objectsDense, noGap⟩)
    obtain ⟨message, loaded, rfl, arrived⟩ := drpcTcpSend_arrives built.filled.wf good built.carried sent load
    have loadedCarries : CarriesAll prototype args loaded 0 := carries.imp fun _ _ here => arrived.carries here
    have loadedDense := arrived.dense_iff.mpr (built.dense_iff.mpr ⟨objectsDense, noGap⟩).1
    exact ⟨recv, after, message, loaded, sent, load, arrived.get, scalarsHeld_of_carries arrived.wf.holds loadedCarries,
      slotsFilled_of_carries arrived.wf.holds arrived.counted loadedDense (fun i beyond => arrived.absent (built.absent i beyond))
        loadedCarries⟩

end Call

theorem callArrives_iff_mixed : ∃ call,
    drpcClientCallMessage Ieee.toUInt64 structMemory (.ofString "f") [.dInt16, .dStruct, .dUint64, .dFloat]
      [4294967293, 1, 7, 0] = .ok call ∧
    CallArrives [.dInt16, .dStruct, .dUint64, .dFloat] [.number (-3), .object (.dstruct newDStruct), .number 7, .number 0]
      call := by
  have objects : ObjectsWf structMemory := by
    refine ObjectsWf.alloc (fun address e live => by cases live) (.dstruct newDStruct_wf fun key e member => ?_)
    exact absurd member List.not_mem_nil
  have short : DrpcTypes.dInt16.IsValue 2 (-3) := by
    unfold DrpcTypes.IsValue
    decide
  have promoted : DrpcTypes.dInt16.Passes (-3) 4294967293 := rfl
  have long : DrpcTypes.dUint64.IsValue 8 7 := by
    unfold DrpcTypes.IsValue
    decide
  have float : DrpcTypes.dFloat.IsValue 4 0 := by
    unfold DrpcTypes.IsValue
    decide
  have passed : CallerArgs structMemory [.dInt16, .dStruct, .dUint64, .dFloat]
      [.number (-3), .object (.dstruct newDStruct), .number 7, .number 0] [4294967293, 1, 7, 0] :=
    .scalar rfl short promoted (.pointer rfl (by decide) rfl rfl (.scalar rfl long rfl (.scalar rfl float rfl (.nil []))))
  refine (callArrives_iff (.ofString "f") objects (by decide) passed fun convert call d _ built resolved => ?_).mpr
    ⟨fun i type v at_i number floating => ?_, fun e member => ?_, fun i j arg _ nothing _ => ?_⟩ Ieee.toUInt64
    Ieee.toUInt64_conforms
  · cases built
    cases resolved
    exact lt_of_eq_of_lt (show _ = 174 from rfl) (by norm_num)
  · rcases i with _ | _ | _ | _ | i
    · cases at_i
      cases floating
    · cases number
    · cases at_i
      cases floating
    · cases number
      rfl
    · cases number
  · have same : CallerArg.object e = .object (.dstruct newDStruct) := by simpa using member
    cases same
    exact .dstruct fun key e member => absurd member List.not_mem_nil
  · have absent : CallerArg.nothing ∉ [CallerArg.number (-3), .object (.dstruct newDStruct), .number 7, .number 0] := by
      simp
    exact absurd (List.mem_of_getElem? nothing) absent

/-- What a reader of the call message finds at the index of a scalar argument. -/
def ClientCall.scalar (call : ClientCall) (i : Nat) (type : DrpcTypes) : Outcome (Option Int) := do
  let found ← dStructGet call.message (.ofString "arguments") .dArray
  match found with
  | none => pure none
  | some field => do
    let arguments ← field.asArguments
    let argument ← dArrayGet arguments i type.toChar
    match argument with
    | some (.packed _ data _) => pure (some data.value)
    | _ => pure none

/-- The bits of the double 1.0 arrive as the bits of the smallest double. -/
theorem doubleArgument_converted : Ieee.Conforms Ieee.toUInt64 ∧
    CallerArgs Memory.empty [.dDouble] [.number 0x3FF0000000000000] [0x3FF0000000000000] ∧
    (drpcClientCallMessage Ieee.toUInt64 Memory.empty (.ofString "f") [.dDouble] [0x3FF0000000000000] >>= fun call =>
      call.scalar 0 .dDouble) = .ok (some 1) := by
  refine ⟨Ieee.toUInt64_conforms, .scalar rfl ?_ rfl (.nil []), by decide +kernel⟩
  unfold DrpcTypes.IsValue
  decide

end DynamicRPC
