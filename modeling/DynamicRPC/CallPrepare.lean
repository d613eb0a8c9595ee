import DynamicRPC.ArrayMap
import DynamicRPC.Call

namespace DynamicRPC
open Outcome

theorem isPointerChar_toChar (type : DrpcTypes) : isPointerChar type.toChar = type.isPointer := by
  cases type <;> rfl

theorem DArray.Wf.holds {E : Type} {a : DArray E} (wf : a.Wf) : a.Holds a.lookupSize a.lookup where
  size := rfl
  initialised := wf.initialised
  live := wf.live
  counted := wf.counted
  lookup := fun _ => rfl

theorem ArrayCall.apply_unlink {E : Type} [DStructElement E] (map : Nat → Option E) (index n : Nat) :
    ArrayCall.apply map (.unlink index) n = if n = index then (map n).filter DStructElement.isPacked else map n := by
  rw [ArrayCall.apply]
  by_cases same : n = index
  · subst same
    rw [if_pos rfl]
    cases held : map n with
    | none => simp
    | some e => cases packed : DStructElement.isPacked e <;> simp [held, packed, Option.filter]
  · rw [if_neg same]
    split
    · rfl
    · rw [Function.update_of_ne same]

theorem DArray.Holds.unlink {E : Type} [DStructElement E] {a : DArray E} {size : Nat} {map : Nat → Option E}
    (holds : a.Holds size map) (index : Nat) :
    ∃ a' done, dArrayUnlink a index = .ok (a', done) ∧
      a'.Holds size fun n => if n = index then (map n).filter DStructElement.isPacked else map n := by
  obtain ⟨a', run, held⟩ := holds.step (.unlink index) fun _ _ same => by cases same
  obtain ⟨⟨other, done⟩, unlinked, same⟩ := bind_eq_ok.mp run
  cases same
  exact ⟨_, done, unlinked, { held with lookup := fun n => (held.lookup n).trans (ArrayCall.apply_unlink map index n) }⟩

/-- `is_arguments_equal_prototype` accepts the types of the client-visible prototype and no others. -/
theorem isArgumentsEqualPrototype_eq_zero {serv : Option (List DrpcTypes)} {client : List UInt8} :
    isArgumentsEqualPrototype serv (some client) = 0 ↔
      client = (drpcCreateClientPrototype (serv.getD [])).map DrpcTypes.toChar := by
  cases serv with
  | none =>
    rw [isArgumentsEqualPrototype]
    simp [drpcCreateClientPrototype]
  | some serv =>
    rw [isArgumentsEqualPrototype, Option.getD_some]
    by_cases length : (drpcCreateClientPrototype serv).length = client.length
    · by_cases same : (drpcCreateClientPrototype serv).map DrpcTypes.toChar = client
      · simp [same, length]
      · simp [same, length, eq_comm (a := client)]
    · have differs : client ≠ (drpcCreateClientPrototype serv).map DrpcTypes.toChar := by
        rintro rfl
        exact length (List.length_map _).symm
      simp [length, differs]

/-- The argument index and the slot index of each pointer argument of a prototype. -/
def pointerSlots : List DrpcTypes → Nat → Nat → List (Nat × Nat)
  | [], _, _ => []
  | type :: prototype, j, k =>
    if type.isServerOnly then pointerSlots prototype j (k + 1)
    else if type.isPointer then
      (j, k) :: pointerSlots prototype (j + 1) (if type = .dSizedbuf then k + 2 else k + 1)
    else pointerSlots prototype (j + 1) (k + 1)

/-- The slot of a packed element whose record holds the bytes of its type. -/
def filledSlot (type : UInt8) (data : DrpcType) : FfiSlot :=
  match charWidth type with
  | some width => .scalar type (data.packedData.take width)
  | none => .record data

/-- The record of a scalar holds at least the bytes of its type. -/
def Argument.Full : Argument → Prop
  | .packed type data _ => ∀ width, charWidth type = some width → width ≤ data.packedData.length
  | .pointer _ _ _ _ => True

theorem packedSlot_eq_ok {type : UInt8} {data : DrpcType} (scalar : isPointerChar type = false) {slot : FfiSlot} :
    packedSlot type data = .ok slot ↔ (Argument.packed type data scalar).Full ∧ slot = filledSlot type data := by
  unfold packedSlot filledSlot Argument.Full
  cases known : charWidth type with
  | none => simp [known, eq_comm]
  | some width =>
    simp only [known, Option.some.injEq, forall_eq', bind_eq_ok, drpcDeconvert_eq_ok]
    constructor
    · rintro ⟨bytes, ⟨whole, rfl⟩, same⟩
      exact ⟨whole, (Except.ok.inj same).symm⟩
    · rintro ⟨whole, rfl⟩
      exact ⟨_, ⟨whole, rfl⟩, rfl⟩

/-- The slots of an argument from a slot on, with its update to repack. -/
def Argument.slots (k : Nat) : Argument → Outcome (List FfiSlot × List DrpcTypeUpdate)
  | .packed type data _ => do
    let slot ← packedSlot type data
    pure ([slot], [])
  | .pointer type ptr len _ =>
    if type = .dSizedbuf then pure ([.pointer ptr, .length len], [⟨type, len, k, ptr⟩])
    else pure ([.pointer ptr], [⟨type, 0, k, ptr⟩])

theorem Argument.slots_returns_iff {k : Nat} (argument : Argument) : Returns (argument.slots k) ↔ argument.Full := by
  cases argument with
  | packed type data scalar =>
    rw [slots, returns_bind]
    constructor
    · rintro ⟨slot, filled, -⟩
      exact ((packedSlot_eq_ok scalar).mp filled).1
    · exact fun full => ⟨_, (packedSlot_eq_ok scalar).mpr ⟨full, rfl⟩, returns_ok _⟩
  | pointer type ptr len held =>
    refine ⟨fun _ => trivial, fun _ => ?_⟩
    rw [slots]
    split <;> exact returns_ok _

section Read
variable {arguments : DArray Argument} {argument : Argument} {i : Nat}

theorem dArrayGetInternal_lookup {found : Option Argument} (get : dArrayGetInternal arguments i = .ok found) :
    arguments.lookup i = found := by
  unfold dArrayGetInternal at get
  unfold DArray.lookup
  split at get
  · next same =>
    cases get
    rw [same]
    rfl
  · next same =>
    cases get
    rw [same]
    rfl
  · next same =>
    cases get
    rw [same]
    rfl
  · cases get
  · cases get

theorem dArrayGetType_of_get {found : Option Argument} (get : dArrayGetInternal arguments i = .ok found) :
    dArrayGetType arguments i = .ok ((found.map Argument.type).getD DrpcTypes.dVoid.toChar) := by
  rw [dArrayGetType, get]
  rfl

theorem dArrayGet_of_get (get : dArrayGetInternal arguments i = .ok (some argument)) :
    dArrayGet arguments i argument.type = .ok (some argument) := by
  rw [dArrayGet, get, ok_bind]
  exact congrArg Except.ok (if_pos (beq_self_eq_true argument.type))

end Read

/-- The type that a reader finds at an index. -/
def typeAt (map : Nat → Option Argument) (i : Nat) : UInt8 := ((map i).map Argument.type).getD DrpcTypes.dVoid.toChar

/-- The type at every index from `j` on is the one that the prototype names. -/
def Accepts (map : Nat → Option Argument) (prototype : List DrpcTypes) (j : Nat) : Prop :=
  ∀ i type, (drpcCreateClientPrototype prototype)[i]? = some type → typeAt map (j + i) = type.toChar

/-- Each update of the queue is the pointer argument at its argument index,
with its slot index. -/
def Updates (map : Nat → Option Argument) (slots : List (Nat × Nat)) (repackQue : List DrpcTypeUpdate) : Prop :=
  List.Forall₂ (fun slot update => update.index = slot.2 ∧
    ∃ len held, map slot.1 = some (.pointer update.type update.ptr len held)) slots repackQue

/-- An argument that `ffi_from_drpc` can read. -/
def ReadableArgument (arguments : DArray Argument) (i : Nat) : Prop :=
  ∃ argument, dArrayGetInternal arguments i = .ok (some argument) ∧ argument.Full

theorem drpcCreateClientPrototype_cons_server {type : DrpcTypes} {prototype : List DrpcTypes}
    (server : type.isServerOnly = true) : drpcCreateClientPrototype (type :: prototype) = drpcCreateClientPrototype prototype := by
  simp [drpcCreateClientPrototype, server]

theorem drpcCreateClientPrototype_cons {type : DrpcTypes} {prototype : List DrpcTypes}
    (client : type.isServerOnly = false) :
    drpcCreateClientPrototype (type :: prototype) = type :: drpcCreateClientPrototype prototype := by
  simp [drpcCreateClientPrototype, client]

section Prototype
variable {map : Nat → Option Argument} {type : DrpcTypes} {prototype : List DrpcTypes} {j : Nat}

theorem Updates.of_mem {slots : List (Nat × Nat)} {repackQue : List DrpcTypeUpdate} (updates : Updates map slots repackQue)
    {slot : Nat × Nat} (member : slot ∈ slots) :
    ∃ update : DrpcTypeUpdate, ∃ len held, map slot.1 = some (.pointer update.type update.ptr len held) := by
  induction updates with
  | nil => cases member
  | cons head _ ih =>
    rcases List.mem_cons.mp member with rfl | later
    · exact ⟨_, head.2⟩
    · exact ih later

theorem Accepts.tail (accepts : Accepts map (type :: prototype) j) (client : type.isServerOnly = false) :
    Accepts map prototype (j + 1) := by
  intro i other at_i
  have next := accepts (i + 1) other
  rw [drpcCreateClientPrototype_cons client, List.getElem?_cons_succ] at next
  rw [show j + 1 + i = j + (i + 1) by omega]
  exact next at_i

theorem Accepts.tail_server (accepts : Accepts map (type :: prototype) j) (server : type.isServerOnly = true) :
    Accepts map prototype j := by
  intro i other at_i
  refine accepts i other ?_
  rw [drpcCreateClientPrototype_cons_server server]
  exact at_i

theorem Accepts.head {argument : Argument} (accepts : Accepts map (type :: prototype) j)
    (client : type.isServerOnly = false) (held : map j = some argument) : argument.type = type.toChar := by
  have here := accepts 0 type (by rw [drpcCreateClientPrototype_cons client]; rfl)
  rw [Nat.add_zero, typeAt, held] at here
  exact here

end Prototype

section Prepare
variable {arguments : DArray Argument} {prototype : List DrpcTypes} {j k : Nat}

theorem extractPrototype_eq {size : Nat} {map : Nat → Option Argument} (holds : arguments.Holds size map) :
    extractPrototype arguments = .ok ((List.range arguments.realSize).map (typeAt map)) :=
  mapM_ok fun i _ => (holds.reads i).1

/-- Types that were extracted are those of the elements that a reader finds. -/
theorem extractPrototype_types {types : List UInt8} (ran : extractPrototype arguments = .ok types) :
    types = (List.range arguments.realSize).map (typeAt arguments.lookup) := by
  obtain ⟨each, rfl⟩ := mapM_eq_ok ran
  refine List.map_congr_left fun i member => ?_
  obtain ⟨found, get, typed⟩ := bind_eq_ok.mp (each i member)
  rw [typeAt, dArrayGetInternal_lookup get]
  exact (Except.ok.inj typed).symm

/-- The step of the walk for a type that a client sees: the argument there and then the rest. -/
theorem ffiFromDrpc_client {type : DrpcTypes} {argument : Argument} (k : Nat) (client : type.isServerOnly = false)
    (found : dArrayGetInternal arguments j = .ok (some argument)) :
    ffiFromDrpc arguments (type :: prototype) j k = (do
      let here ← argument.slots k
      let rest ← ffiFromDrpc arguments prototype (j + 1) (k + here.1.length)
      pure (here.1 ++ rest.1, here.2 ++ rest.2)) := by
  rw [ffiFromDrpc, if_neg (by simp [client]), dArrayGetType_of_get found, ok_bind, Option.map_some, Option.getD_some,
    dArrayGet_of_get found, ok_bind]
  cases argument with
  | packed stored data scalar =>
    rw [Argument.slots, bind_assoc]
    rfl
  | pointer stored ptr len held =>
    dsimp only
    rw [Argument.slots]
    split <;> rfl

/-- Where there is no argument the assertion on it fails. -/
theorem ffiFromDrpc_missing {type : DrpcTypes} (k : Nat) (client : type.isServerOnly = false)
    (found : dArrayGetInternal arguments j = .ok none) :
    ffiFromDrpc arguments (type :: prototype) j k = .error .assertion := by
  rw [ffiFromDrpc, if_neg (by simp [client]), dArrayGetType_of_get found, ok_bind, dArrayGet, found]
  rfl

theorem ffiFromDrpc_fault {type : DrpcTypes} {fault : Fault} (k : Nat) (client : type.isServerOnly = false)
    (found : dArrayGetInternal arguments j = .error fault) :
    ffiFromDrpc arguments (type :: prototype) j k = .error fault := by
  rw [ffiFromDrpc, if_neg (by simp [client]), dArrayGetType, found]
  rfl

theorem ffiFromDrpc_server {type : DrpcTypes} (k : Nat) (server : type.isServerOnly = true) :
    ffiFromDrpc arguments (type :: prototype) j k = (do
      let rest ← ffiFromDrpc arguments prototype j (k + 1)
      pure (.server type :: rest.1, rest.2)) := by
  rw [ffiFromDrpc, if_pos server]

/-- What one step of the walk over the prototype does: a type that only the
server has fills a slot of its own, and any other takes the next argument. -/
theorem ffiFromDrpc_cons_inv {type : DrpcTypes} {slots : List FfiSlot} {repackQue : List DrpcTypeUpdate}
    (ran : ffiFromDrpc arguments (type :: prototype) j k = .ok (slots, repackQue)) :
    (type.isServerOnly = true ∧ ∃ rest, ffiFromDrpc arguments prototype j (k + 1) = .ok (rest, repackQue) ∧
        slots = .server type :: rest) ∨
      (type.isServerOnly = false ∧ ∃ stored data scalar rest, arguments.lookup j = some (.packed stored data scalar) ∧
        ffiFromDrpc arguments prototype (j + 1) (k + 1) = .ok (rest, repackQue) ∧ slots = filledSlot stored data :: rest) ∨
      (type.isServerOnly = false ∧ ∃ stored ptr len held rest tail, arguments.lookup j = some (.pointer stored ptr len held) ∧
        ffiFromDrpc arguments prototype (j + 1) (if stored = .dSizedbuf then k + 2 else k + 1) = .ok (rest, tail) ∧
        slots = .pointer ptr :: (if stored = .dSizedbuf then .length len :: rest else rest) ∧
        repackQue = ⟨stored, if stored = .dSizedbuf then len else 0, k, ptr⟩ :: tail) := by
  by_cases server : type.isServerOnly = true
  · rw [ffiFromDrpc_server k server] at ran
    obtain ⟨⟨rest, tail⟩, run, same⟩ := bind_eq_ok.mp ran
    cases same
    exact .inl ⟨server, rest, run, rfl⟩
  have client : type.isServerOnly = false := by simpa using server
  cases get : dArrayGetInternal arguments j with
  | error fault =>
    rw [ffiFromDrpc_fault k client get] at ran
    cases ran
  | ok found =>
    cases found with
    | none =>
      rw [ffiFromDrpc_missing k client get] at ran
      cases ran
    | some argument =>
      have held := dArrayGetInternal_lookup get
      rw [ffiFromDrpc_client k client get] at ran
      obtain ⟨here, slotted, ran⟩ := bind_eq_ok.mp ran
      obtain ⟨⟨rest, tail⟩, run, same⟩ := bind_eq_ok.mp ran
      cases same
      cases argument with
      | packed stored data scalar =>
        obtain ⟨slot, filled, same⟩ := bind_eq_ok.mp slotted
        cases same
        obtain ⟨-, rfl⟩ := (packedSlot_eq_ok scalar).mp filled
        exact .inr (.inl ⟨client, stored, data, scalar, rest, held, run, rfl⟩)
      | pointer stored ptr len pointer =>
        refine .inr (.inr ⟨client, stored, ptr, len, pointer, rest, tail, held, ?_⟩)
        rw [Argument.slots] at slotted
        split at slotted
        · next buffer =>
          cases slotted
          simp only [if_pos buffer]
          exact ⟨run, rfl, rfl⟩
        · next other =>
          cases slotted
          simp only [if_neg other]
          exact ⟨run, rfl, rfl⟩

/-- What holds of `n + 1` indices from `j` on holds of the first and of the others. -/
theorem forall_shift_succ {P : Nat → Prop} {n j : Nat} :
    (∀ i < n + 1, P (j + i)) ↔ P j ∧ ∀ i < n, P (j + 1 + i) := by
  simp only [Nat.forall_lt_succ_left, Nat.add_zero, Nat.add_assoc, Nat.add_comm 1]

/-- The walk ends when every argument of the prototype can be read, and only then. -/
theorem ffiFromDrpc_returns_iff : Returns (ffiFromDrpc arguments prototype j k) ↔
    ∀ i < (drpcCreateClientPrototype prototype).length, ReadableArgument arguments (j + i) := by
  induction prototype generalizing j k with
  | nil => exact ⟨fun _ i bound => absurd bound (Nat.not_lt_zero i), fun _ => returns_ok _⟩
  | cons type prototype ih =>
    by_cases server : type.isServerOnly = true
    · rw [ffiFromDrpc_server k server, drpcCreateClientPrototype_cons_server server, ← ih (k := k + 1), returns_bind]
      exact ⟨fun ⟨rest, run, _⟩ => ⟨rest, run⟩, fun ⟨rest, run⟩ => ⟨rest, run, returns_ok _⟩⟩
    have client : type.isServerOnly = false := by simpa using server
    rw [drpcCreateClientPrototype_cons client, List.length_cons, forall_shift_succ]
    cases get : dArrayGetInternal arguments j with
    | error fault =>
      rw [ffiFromDrpc_fault k client get]
      refine iff_of_false (not_returns_error _) ?_
      rintro ⟨⟨argument, found, -⟩, -⟩
      rw [get] at found
      cases found
    | ok found =>
      cases found with
      | none =>
        rw [ffiFromDrpc_missing k client get]
        refine iff_of_false (not_returns_error _) ?_
        rintro ⟨⟨argument, found, -⟩, -⟩
        rw [get] at found
        cases found
      | some argument =>
        rw [ffiFromDrpc_client k client get, returns_bind]
        constructor
        · rintro ⟨here, slotted, later⟩
          obtain ⟨rest, run, -⟩ := returns_bind.mp later
          exact ⟨⟨argument, get, argument.slots_returns_iff.mp ⟨here, slotted⟩⟩, ih.mp ⟨rest, run⟩⟩
        · rintro ⟨⟨_, found, full⟩, readable⟩
          rw [get] at found
          cases found
          obtain ⟨here, slotted⟩ := argument.slots_returns_iff.mpr full
          obtain ⟨rest, run⟩ := ih.mpr readable
          exact ⟨here, slotted, returns_bind.mpr ⟨rest, run, returns_ok _⟩⟩

/-- The walk over the prototype finds every argument, and leaves the pointer
arguments in the queue in their order. -/
theorem ffiFromDrpc_spec {slots : List FfiSlot} {repackQue : List DrpcTypeUpdate}
    (accepts : Accepts arguments.lookup prototype j)
    (ran : ffiFromDrpc arguments prototype j k = .ok (slots, repackQue)) :
    (∀ i < (drpcCreateClientPrototype prototype).length, (arguments.lookup (j + i)).isSome) ∧
      Updates arguments.lookup (pointerSlots prototype j k) repackQue := by
  refine ⟨fun i bound => ?_, ?_⟩
  · obtain ⟨argument, get, -⟩ := ffiFromDrpc_returns_iff.mp ⟨_, ran⟩ i bound
    rw [dArrayGetInternal_lookup get]
    rfl
  induction prototype generalizing j k slots repackQue with
  | nil =>
    cases ran
    exact List.Forall₂.nil
  | cons type prototype ih =>
    rw [pointerSlots]
    obtain ⟨server, rest, run, rfl⟩ | ⟨client, stored, data, scalar, rest, held, run, rfl⟩ |
      ⟨client, stored, ptr, len, pointer, rest, tail, held, run, rfl, rfl⟩ := ffiFromDrpc_cons_inv ran
    · rw [if_pos server]
      exact ih (accepts.tail_server server) run
    · have same := accepts.head client held
      rw [Argument.type] at same
      rw [same, isPointerChar_toChar] at scalar
      rw [client, if_neg Bool.false_ne_true, scalar, if_neg Bool.false_ne_true]
      exact ih (accepts.tail client) run
    · have same : stored = type := DrpcTypes.toChar_injective (accepts.head client held)
      subst same
      rw [client, if_neg Bool.false_ne_true, if_pos pointer]
      exact List.Forall₂.cons ⟨rfl, len, pointer, held⟩ (ih (accepts.tail client) run)

/-- Arguments of the types of the prototype are as many as it names. -/
theorem accepts_of_types {map : Nat → Option Argument}
    (types : (List.range arguments.realSize).map (typeAt map) = (drpcCreateClientPrototype prototype).map DrpcTypes.toChar) :
    arguments.realSize = (drpcCreateClientPrototype prototype).length ∧ Accepts map prototype 0 := by
  have length := congrArg List.length types
  rw [List.length_map, List.length_map, List.length_range] at length
  refine ⟨length, fun i type at_i => ?_⟩
  have entry := congrArg (·[i]?) types
  have bound := (List.getElem?_eq_some_iff.mp at_i).choose
  simp only [List.getElem?_map, at_i, Option.map_some, List.getElem?_range (show i < arguments.realSize by omega)] at entry
  rw [Nat.zero_add]
  exact Option.some.inj entry

/-- `drpc_server_call_fn` goes on exactly with as many arguments as the
client-visible prototype has, of its types. -/
theorem drpcServerPrepareFn_spec {fnInfo : DrpcFunction} {prepared : DArray Argument × List FfiSlot × List DrpcTypeUpdate}
    (ran : drpcServerPrepareFn (some arguments) fnInfo = .ok (some prepared)) :
    prepared.1 = arguments ∧ arguments.realSize = (drpcCreateClientPrototype (fnInfo.prototype.getD [])).length ∧
      Accepts arguments.lookup (fnInfo.prototype.getD []) 0 ∧
      ffiFromDrpc arguments (fnInfo.prototype.getD []) 0 0 = .ok prepared.2 := by
  obtain ⟨types, extracted, ran⟩ := bind_eq_ok.mp ran
  split at ran
  · cases ran
  · next accepted =>
    obtain ⟨⟨slots, toRepack⟩, walked, same⟩ := bind_eq_ok.mp ran
    cases same
    have equal := isArgumentsEqualPrototype_eq_zero.mp (not_not.mp accepted)
    rw [extractPrototype_types extracted] at equal
    obtain ⟨length, accepts⟩ := accepts_of_types equal
    exact ⟨rfl, length, accepts, walked⟩

end Prepare
end DynamicRPC
