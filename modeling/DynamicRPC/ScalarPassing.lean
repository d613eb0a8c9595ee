import DynamicRPC.CallDelivery
import DynamicRPC.Library.Ieee

namespace DynamicRPC
open Outcome

/-- The integer types whose low bytes are a two's complement number. -/
def isSignedChar (type : UInt8) : Bool :=
  type = DrpcTypes.dInt8.toChar || type = DrpcTypes.dInt16.toChar || type = DrpcTypes.dInt32.toChar ||
    type = DrpcTypes.dInt64.toChar

/-- What a reader of the bytes gets: an integer, or the bits of a float or a double. -/
def DrpcType.value (t : DrpcType) : Int :=
  let n := LittleEndian.decode t.packedData
  if isSignedChar t.type then Int.bmod n (256 ^ t.packedData.length) else n

/-- The numbers of a type of that width. -/
def DrpcTypes.IsValue (type : DrpcTypes) (width : Nat) (v : Int) : Prop :=
  if isSignedChar type.toChar then -256 ^ width ≤ 2 * v ∧ 2 * v < 256 ^ width else 0 ≤ v ∧ v < 256 ^ width

/-- How a caller passes a number: a small integer as an `int`, a float as a double. -/
def DrpcTypes.Passes (type : DrpcTypes) (v : Int) (word : Nat) : Prop :=
  match type with
  | .dFloat => word = Ieee.floatToDouble v.toNat
  | .dDouble => word = v.toNat
  | .dInt64 | .dUint64 => (word : Int) % 2 ^ 64 = v % 2 ^ 64
  | _ => (word : Int) % 2 ^ 32 = v % 2 ^ 32

def DrpcTypes.isFloating : DrpcTypes → Bool
  | dFloat | dDouble => true
  | _ => false

/-- A type whose values an array of arguments can hold. -/
def DrpcTypes.isCarried (type : DrpcTypes) : Bool := type.isPointer || type.scalarWidth.isSome

/-- What a caller passes at a position: an object, a number, or nothing for a
type that has no value. -/
inductive CallerArg
  | object (e : Element)
  | number (v : Int)
  | nothing

def CallerArg.number? : CallerArg → Option Int
  | number v => some v
  | _ => none

/-- The variadic arguments for a prototype, with what is passed at each position. -/
inductive CallerArgs (memory : Memory Element) : List DrpcTypes → List CallerArg → List Nat → Prop
  | nil (varargs : List Nat) : CallerArgs memory [] [] varargs
  | pointer {type : DrpcTypes} {ptr : Nat} {e : Element} {prototype : List DrpcTypes} {args : List CallerArg}
      {varargs : List Nat} (held : type.isPointer = true) (notBuffer : type ≠ .dSizedbuf)
      (live : memory.cells ptr = some e) (same : e.type = type.toChar)
      (rest : CallerArgs memory prototype args varargs) :
      CallerArgs memory (type :: prototype) (.object e :: args) (ptr :: varargs)
  | buffer {ptr len : Nat} {block : List UInt8} {prototype : List DrpcTypes} {args : List CallerArg}
      {varargs : List Nat} (live : memory.cells ptr = some (.sizedbuf block)) (within : len ≤ block.length)
      (rest : CallerArgs memory prototype args varargs) :
      CallerArgs memory (.dSizedbuf :: prototype) (.object (.sizedbuf block) :: args) (ptr :: len :: varargs)
  | scalar {type : DrpcTypes} {width word : Nat} {v : Int} {prototype : List DrpcTypes} {args : List CallerArg}
      {varargs : List Nat} (sized : type.scalarWidth = some width) (valid : type.IsValue width v)
      (passes : type.Passes v word) (rest : CallerArgs memory prototype args varargs) :
      CallerArgs memory (type :: prototype) (.number v :: args) (word :: varargs)
  | other {type : DrpcTypes} {prototype : List DrpcTypes} {args : List CallerArg} {varargs : List Nat}
      (uncarried : type.isCarried = false) (rest : CallerArgs memory prototype args varargs) :
      CallerArgs memory (type :: prototype) (.nothing :: args) varargs

section Read

/-- The low bytes of a register read as the number that it is modulo their width. -/
theorem value_encode {type : DrpcTypes} {width input : Nat} {v : Int} (valid : type.IsValue width v) :
    (⟨type.toChar, LittleEndian.encode width input⟩ : DrpcType).value = v ↔
      (input : Int) % 256 ^ width = v % 256 ^ width := by
  have low : ((LittleEndian.decode (LittleEndian.encode width input) : Nat) : Int) = (input : Int) % 256 ^ width := by
    rw [LittleEndian.decode_encode]
    norm_cast
  unfold DrpcTypes.IsValue at valid
  unfold DrpcType.value
  dsimp only
  rw [LittleEndian.encode_length, low]
  split
  · next signed =>
    rw [if_pos signed] at valid
    have power : ((256 ^ width : Nat) : Int) = 256 ^ width := by norm_cast
    rw [← power, Int.emod_bmod]
    constructor
    · intro same
      rw [← same, Int.bmod_emod]
    · intro same
      have exact : Int.bmod v (256 ^ width) = v := Int.bmod_eq_of_le_mul_two (by omega) (by omega)
      rw [← exact, ← Int.emod_bmod, same, Int.emod_bmod]
  · next unsigned =>
    rw [if_neg unsigned] at valid
    rw [Int.emod_eq_of_lt valid.1 valid.2]

/-- What `generic_input` holds of a number. -/
def DrpcTypes.Input (convert : Nat → Nat) (type : DrpcTypes) (width : Nat) (v : Int) (input : Nat) : Prop :=
  match type with
  | .dFloat => input = convert (Ieee.floatToDouble v.toNat) % 2 ^ 64
  | .dDouble => input = convert v.toNat % 2 ^ 64
  | _ => (input : Int) % 256 ^ width = v % 256 ^ width

theorem signExtend_low (word : Nat) : signExtend word % 2 ^ 32 = word % 2 ^ 32 := by
  unfold signExtend
  split <;> omega

section Input
variable {convert : Nat → Nat} {type : DrpcTypes} {width word input : Nat} {v : Int}

theorem genericInput_passes (convert : Nat → Nat) (varargs : List Nat) (sized : type.scalarWidth = some width)
    (passes : type.Passes v word) :
    ∃ input, genericInput convert type (word :: varargs) = .ok (input, varargs) ∧ type.Input convert width v input := by
  have low := signExtend_low word
  unfold DrpcTypes.Passes at passes
  cases type <;> cases sized
  case dFloat | dDouble => exact ⟨_, rfl, by rw [passes]; rfl⟩
  all_goals
    refine ⟨_, rfl, ?_⟩
    simp only [DrpcTypes.Input]
    norm_num at passes ⊢
    omega

/-- An integer goes through, and a zero of any type. -/
theorem DrpcTypes.Input.kept (held : type.Input convert width v input) (conforms : Ieee.Conforms convert)
    (zero : type.isFloating = true → v = 0) : (input : Int) % 256 ^ width = v % 256 ^ width := by
  unfold DrpcTypes.Input at held
  split at held
  · rw [zero rfl] at held ⊢
    rw [held, show Ieee.floatToDouble (0 : Int).toNat = 0 from rfl, conforms.zero]
    rfl
  · rw [zero rfl] at held ⊢
    rw [held, Int.toNat_zero, conforms.zero]
    rfl
  · exact held

/-- What the conversion by value makes of a float or a double is another number. -/
theorem DrpcTypes.Input.zero (held : type.Input Ieee.toUInt64 width v input) (sized : type.scalarWidth = some width)
    (valid : type.IsValue width v) (floating : type.isFloating = true)
    (kept : (input : Int) % 256 ^ width = v % 256 ^ width) : v = 0 := by
  cases type <;> cases floating <;> cases sized
  case dFloat =>
    obtain ⟨positive, bound⟩ : 0 ≤ v ∧ v < 256 ^ 4 := valid
    obtain ⟨bits, rfl⟩ := Int.eq_ofNat_of_zero_le positive
    have word : input = Ieee.toUInt64 (Ieee.floatToDouble bits) % 2 ^ 64 := held
    have zero := Ieee.float_kept (show bits < 2 ^ 32 by omega) (by omega)
    rw [zero]
    rfl
  case dDouble =>
    obtain ⟨positive, bound⟩ : 0 ≤ v ∧ v < 256 ^ 8 := valid
    obtain ⟨bits, rfl⟩ := Int.eq_ofNat_of_zero_le positive
    have word : input = Ieee.toUInt64 bits % 2 ^ 64 := held
    have zero := Ieee.double_kept (show bits < 2 ^ 64 by omega) (by omega)
    rw [zero]
    rfl

end Input

theorem carried_cases {type : DrpcTypes} (uncarried : type.isCarried = false) :
    type.isPointer = false ∧ type.scalarWidth = none := by
  rwa [DrpcTypes.isCarried, Bool.or_eq_false_iff, Option.isSome_eq_false_iff, Option.isNone_iff_eq_none] at uncarried

/-- What the array holds at the position of an argument. -/
inductive Taken (convert : Nat → Nat) (memory : Memory Element) : DrpcTypes → CallerArg → Option Argument → Prop
  | object {type : DrpcTypes} {argument : Argument} {e e' : Element} (same : argument.type = type.toChar)
      (pointer : type.isPointer = true) (leads : argument.resolve memory = .ok e') (dense : e'.Dense ↔ e.Dense) :
      Taken convert memory type (.object e) (some argument)
  | number {type : DrpcTypes} {width input : Nat} {v : Int} (sized : type.scalarWidth = some width)
      (valid : type.IsValue width v) (held : type.Input convert width v input)
      (scalar : isPointerChar type.toChar = false) : Taken convert memory type (.number v)
        (some (.packed type.toChar ⟨type.toChar, LittleEndian.encode width input⟩ scalar))
  | nothing {type : DrpcTypes} (uncarried : type.isCarried = false) : Taken convert memory type .nothing none

theorem Taken.extends {convert : Nat → Nat} {memory memory' : Memory Element} {type : DrpcTypes} {arg : CallerArg}
    {found : Option Argument} (grows : memory.Extends memory') (taken : Taken convert memory type arg found) :
    Taken convert memory' type arg found := by
  cases taken with
  | object same pointer leads dense => exact .object same pointer (Argument.resolve_extends grows leads) dense
  | number sized valid held scalar => exact .number sized valid held scalar
  | nothing uncarried => exact .nothing uncarried

end Read

section Set
variable {E : Type} {a : DArray E} {size i : Nat}

theorem dArraySetWithin_element [DStructElement E] (holds : a.Holds size a.lookup) (within : i < size) (e : E) :
    ∃ a', dArraySetWithin a i (.element e) = .ok a' ∧ a'.lookup = Function.update a.lookup i (some e) := by
  obtain ⟨a', set, held⟩ := holds.step (.set i e) fun _ _ same => by cases same; exact within
  refine ⟨a', ?_, funext held.lookup⟩
  rw [ArrayCall.run] at set
  rw [dArraySetWithin, set]
  rfl

theorem dArraySetWithin_unsupported (holds : a.Holds size a.lookup) (vacant : a.lookup i = none) :
    dArraySetWithin a i .unsupported = .ok a := by
  rw [dArraySetWithin, dArraySet, holds.get, ok_bind, vacant]
  rfl

end Set

theorem Element.Wf.str_of_type {e : Element} (wf : e.Wf) (same : e.type = DrpcTypes.dStr.toChar) :
    ∃ block, e = .str block ∧ 0 ∈ block := by
  cases wf with
  | packed sized =>
    cases DrpcTypes.toChar_injective same
    cases sized
  | str terminated => exact ⟨_, rfl, terminated⟩
  | _ =>
    have chars : DrpcTypes.dStr.toChar = 11 := rfl
    rw [chars] at same
    cases same

/-- A setter takes every pointer to an object of its type. -/
theorem dArrayNative_takes {memory : Memory Element} {type : DrpcTypes} {ptr len : Nat} {e : Element}
    (objects : ObjectsWf memory) (pointer : type.isPointer = true) (live : memory.cells ptr = some e)
    (same : e.type = type.toChar) (within : type = .dSizedbuf → ∃ block, e = .sizedbuf block ∧ len ≤ block.length) :
    ∃ memory' argument e', dArrayNative memory type ptr len = .ok (memory', .element argument) ∧
      memory.Extends memory' ∧ argument.type = type.toChar ∧ argument.resolve memory' = .ok e' ∧
      (e'.Dense ↔ e.Dense) := by
  have notNull : ptr ≠ 0 := Memory.ne_zero_of_live live
  by_cases str : type = .dStr
  · subst str
    obtain ⟨block, rfl, terminated⟩ := (objects ptr e live).str_of_type same
    obtain ⟨content, text, -⟩ := CString.read_terminated terminated
    refine ⟨_, _, _, dArrayNative_eq_ok.mpr (.str notNull live text), Memory.alloc_extends _ _, rfl,
      readArgument_whole (Memory.alloc_self _ _) rfl fun _ same => (by cases same), ?_⟩
    exact iff_of_true .str .str
  by_cases buffer : type = .dSizedbuf
  · subst buffer
    obtain ⟨block, rfl, bound⟩ := within rfl
    refine ⟨_, _, _, dArrayNative_eq_ok.mpr (.sizedbuf notNull live bound), Memory.alloc_extends _ _, rfl,
      readArgument_whole (Memory.alloc_self _ _) rfl fun taken same => ?_, iff_of_true .sizedbuf .sizedbuf⟩
    cases same
    rw [List.length_take]
    omega
  refine ⟨_, _, e, dArrayNative_eq_ok.mpr (.container notNull pointer str buffer), Memory.Extends.refl _, rfl,
    readArgument_whole live same fun block sized => ?_, Iff.rfl⟩
  rw [sized] at same
  exact absurd (DrpcTypes.toChar_injective (show DrpcTypes.dSizedbuf.toChar = _ from same)).symm buffer

section Build
variable {convert : Nat → Nat} {memory : Memory Element} {s : ClientArguments} {size done : Nat}
  {type : DrpcTypes} {arg : CallerArg} {rest : List Nat}

/-- One round of the loop over the prototype, with what it leaves at its index. -/
structure ClientArguments.Takes (convert : Nat → Nat) (memory : Memory Element) (s : ClientArguments) (done : Nat)
    (type : DrpcTypes) (arg : CallerArg) (rest : List Nat) (s' : ClientArguments) : Prop where
  ran : clientArgument convert s (type, done) = .ok s'
  rest : s'.varargs = rest
  grows : s.memory.Extends s'.memory
  found : Taken convert s'.memory type arg (s'.arguments.lookup done)
  others : ∀ i, i ≠ done → s'.arguments.lookup i = s.arguments.lookup i
  owned : ∀ passed ∈ s'.repackable, passed ∈ s.repackable ∨ (memory.cells passed.ptr).isSome

theorem ClientArguments.Built.takes_pointer {ptr len : Nat} {words : List Nat} {e : Element} (convert : Nat → Nat)
    (built : s.Built size done) (passes : s.Passes memory) (within : done < size) (pointer : type.isPointer = true)
    (live : memory.cells ptr = some e) (same : e.type = type.toChar)
    (bound : type = .dSizedbuf → ∃ block, e = .sizedbuf block ∧ len ≤ block.length)
    (varargs : s.varargs = ptr :: words) (last : vaLen type words = .ok (len, rest)) :
    ∃ s', s.Takes convert memory done type (.object e) rest s' := by
  obtain ⟨memory', argument, e', native, grows, typed, leads, dense⟩ :=
    dArrayNative_takes passes.objects pointer (passes.grows.live live) same bound
  obtain ⟨a', set, lookup⟩ := dArraySetWithin_element built.holds within argument
  refine ⟨⟨a', memory', rest, s.repackable ++ [⟨type, len, 0, ptr⟩]⟩, ?_, rfl, grows, ?_, fun i other => ?_,
    fun passed member => ?_⟩
  · have first : vaArg s.varargs = .ok (ptr, words) := by
      rw [varargs]
      rfl
    rw [clientArgument, dif_pos pointer, first, ok_bind]
    dsimp only
    rw [last, ok_bind]
    dsimp only
    rw [native, ok_bind]
    dsimp only
    rw [set]
    rfl
  · rw [lookup, Function.update_self]
    exact .object typed pointer leads dense
  · rw [lookup, Function.update_of_ne other]
  · obtain old | new := List.mem_append.mp member
    · exact .inl old
    · rw [List.mem_singleton.mp new, live]
      exact .inr rfl

theorem ClientArguments.Built.takes_scalar {width word : Nat} {v : Int} (convert : Nat → Nat) (memory : Memory Element)
    (built : s.Built size done) (within : done < size) (sized : type.scalarWidth = some width)
    (valid : type.IsValue width v) (passes : type.Passes v word)
    (varargs : s.varargs = word :: rest) : ∃ s', s.Takes convert memory done type (.number v) rest s' := by
  have scalar : type.isPointer = false := (isPointerChar_toChar type).symm.trans (isPointerChar_scalar sized)
  obtain ⟨input, taken, held⟩ := genericInput_passes convert rest sized passes
  have native : scalarNative type scalar input = .element (.packed type.toChar
      ⟨type.toChar, LittleEndian.encode width input⟩ ((isPointerChar_toChar type).trans scalar)) := by
    unfold scalarNative
    split
    · next other same =>
      rw [sized] at same
      cases same
      rfl
    · next same =>
      rw [sized] at same
      cases same
  obtain ⟨a', set, lookup⟩ := dArraySetWithin_element built.holds within (Argument.packed type.toChar
    ⟨type.toChar, LittleEndian.encode width input⟩ ((isPointerChar_toChar type).trans scalar))
  refine ⟨⟨a', s.memory, rest, s.repackable⟩, ?_, rfl, Memory.Extends.refl _, ?_, fun i other => ?_,
    fun passed member => .inl member⟩
  · rw [clientArgument, dif_neg (by simp [scalar]), varargs]
    dsimp only
    rw [taken, ok_bind]
    dsimp only
    rw [native, set]
    rfl
  · rw [lookup, Function.update_self]
    exact .number sized valid held _
  · rw [lookup, Function.update_of_ne other]

theorem ClientArguments.Built.takes_other (convert : Nat → Nat) (memory : Memory Element)
    (built : s.Built size done) (uncarried : type.isCarried = false) :
    ∃ s', s.Takes convert memory done type .nothing s.varargs s' := by
  obtain ⟨scalar, unsized⟩ := carried_cases uncarried
  have native : scalarNative type scalar 0 = .unsupported := by
    unfold scalarNative
    split
    · next width sized =>
      rw [unsized] at sized
      cases sized
    · rfl
  have nothing : genericInput convert type s.varargs = .ok (0, s.varargs) := by
    cases type <;> first | rfl | cases unsized
  have vacant := built.fresh done le_rfl
  refine ⟨s, ?_, rfl, Memory.Extends.refl _, ?_, fun _ _ => rfl, fun passed member => .inl member⟩
  · rw [clientArgument, dif_neg (by simp [scalar])]
    dsimp only
    rw [nothing, ok_bind]
    dsimp only
    rw [native, dArraySetWithin_unsupported built.holds vacant]
    rfl
  · rw [vacant]
    exact .nothing uncarried

/-- The rounds from an index on. -/
structure ClientArguments.TakesAll (convert : Nat → Nat) (memory : Memory Element) (s : ClientArguments) (done : Nat)
    (types : List DrpcTypes) (args : List CallerArg) (s' : ClientArguments) : Prop where
  ran : (types.zipIdx done).foldlM (clientArgument convert) s = .ok s'
  grows : s.memory.Extends s'.memory
  found : List.Forall₂ (fun entry arg => Taken convert s'.memory entry.1 arg (s'.arguments.lookup entry.2))
    (types.zipIdx done) args
  before : ∀ i < done, s'.arguments.lookup i = s.arguments.lookup i
  owned : ∀ passed ∈ s'.repackable, (memory.cells passed.ptr).isSome

theorem below_of_cons {α : Type} {a : α} {list : List α} (fits : done + (a :: list).length ≤ size) : done < size := by
  rw [List.length_cons] at fits
  omega

/-- A round and the ones after it. -/
theorem ClientArguments.Takes.run {types : List DrpcTypes} {args : List CallerArg} {middle : ClientArguments}
    (takes : s.Takes convert memory done type arg rest middle) (built : s.Built size done) (passes : s.Passes memory)
    (owned : ∀ passed ∈ s.repackable, (memory.cells passed.ptr).isSome) (fits : done + (type :: types).length ≤ size)
    (later : middle.Built size (done + 1) → middle.Passes memory →
      (∀ passed ∈ middle.repackable, (memory.cells passed.ptr).isSome) → done + 1 + types.length ≤ size →
      ∃ s', middle.TakesAll convert memory (done + 1) types args s') :
    ∃ s', s.TakesAll convert memory done (type :: types) (arg :: args) s' := by
  have within := below_of_cons fits
  rw [List.length_cons] at fits
  have live : ∀ passed ∈ middle.repackable, (memory.cells passed.ptr).isSome := fun passed member =>
    (takes.owned passed member).elim (owned passed) id
  obtain ⟨s', all⟩ := later (built.step within takes.ran).1 (passes.step built within takes.ran live) live (by omega)
  refine ⟨s', ⟨?_, takes.grows.trans all.grows, ?_, fun i bound => ?_, all.owned⟩⟩
  · rw [List.zipIdx_cons, List.foldlM_cons, takes.ran, ok_bind]
    exact all.ran
  · rw [List.zipIdx_cons]
    refine .cons ?_ all.found
    have kept := all.before done (Nat.lt_succ_self done)
    rw [kept]
    exact takes.found.extends all.grows
  · have kept := all.before i (by omega)
    rw [kept]
    exact takes.others i (by omega)

theorem CallerArgs.run {types : List DrpcTypes} {args : List CallerArg} {varargs : List Nat}
    (passed : CallerArgs memory types args varargs) (convert : Nat → Nat) (built : s.Built size done)
    (passes : s.Passes memory) (owned : ∀ passed ∈ s.repackable, (memory.cells passed.ptr).isSome)
    (fits : done + types.length ≤ size) (words : s.varargs = varargs) : ∃ s', s.TakesAll convert memory done types args s' := by
  induction passed generalizing s done with
  | nil => exact ⟨s, ⟨rfl, Memory.Extends.refl _, .nil, fun _ _ => rfl, owned⟩⟩
  | pointer held notBuffer live same _ ih =>
    have within := below_of_cons fits
    obtain ⟨middle, takes⟩ := built.takes_pointer convert passes within held live same
      (fun buffer => absurd buffer notBuffer) words (if_neg notBuffer)
    exact takes.run built passes owned fits fun built passes owned fits => ih built passes owned fits takes.rest
  | buffer live bound _ ih =>
    have within := below_of_cons fits
    have pointer : DrpcTypes.dSizedbuf.isPointer = true := rfl
    obtain ⟨middle, takes⟩ := built.takes_pointer convert passes within pointer live rfl
      (fun _ => ⟨_, rfl, bound⟩) words rfl
    exact takes.run built passes owned fits fun built passes owned fits => ih built passes owned fits takes.rest
  | scalar sized valid register _ ih =>
    have within := below_of_cons fits
    obtain ⟨middle, takes⟩ := built.takes_scalar convert memory within sized valid register words
    exact takes.run built passes owned fits fun built passes owned fits => ih built passes owned fits takes.rest
  | other uncarried _ ih =>
    obtain ⟨middle, takes⟩ := built.takes_other convert memory uncarried
    exact takes.run built passes owned fits fun built passes owned fits =>
      ih built passes owned fits (takes.rest.trans words)

end Build

end DynamicRPC
