import DynamicRPC.CallSync

namespace DynamicRPC
open Outcome

/-- The types of the pointers that a function may return. -/
def DrpcTypes.isReturned (type : DrpcTypes) : Bool := type.isContainer || type = .dStr

/-- The last of the pointers that is the given one. -/
def LastAt (pointers : List DrpcTypeUpdate) (address i : Nat) : Prop :=
  (∃ update, pointers[i]? = some update ∧ update.ptr = address) ∧
    ∀ j other, pointers[j]? = some other → other.ptr = address → j ≤ i

/-- What the client stores through `native_return` for a position that the
reply names: its own pointer there, if it is of a type that can be returned. -/
def identified (passed : List DrpcTypeUpdate) (returnIs : Int) : Option Field :=
  if 0 ≤ returnIs then
    (passed[returnIs.toNat]?.filter fun update => update.type.isReturned).map fun update => .pointer update.type update.ptr
  else none

/-- The position that a number stands for in an `int8_t`. -/
theorem bmod_byte (n : Nat) :
    Int.bmod n 256 = if n % 256 < 128 then ((n % 256 : Nat) : Int) else ((n % 256 : Nat) : Int) - 256 := by
  rw [Int.bmod_def]
  split <;> split <;> omega

section Server
variable {fnInfo : DrpcFunction} {nativeReturn n : Nat} {updates : List DrpcTypeUpdate} {s s' : Repacking}

/-- The repack loop keeps the last position of the returned pointer, as an
`int8_t`, and meets its type there. -/
theorem repack_returnIs (ran : (updates.zipIdx n).foldlM (repackArgument fnInfo nativeReturn) s = .ok s') :
    (∀ update ∈ updates, update.ptr ≠ nativeReturn) ∧ s'.returnIs = s.returnIs ∨
      ∃ i, LastAt updates nativeReturn i ∧ s'.returnIs = Int.bmod (n + i : Nat) 256 := by
  induction updates generalizing s n with
  | nil =>
    cases ran
    exact .inl ⟨fun update member => absurd member List.not_mem_nil, rfl⟩
  | cons update updates ih =>
    rw [List.zipIdx_cons, List.foldlM_cons] at ran
    obtain ⟨middle, first, rest⟩ := bind_eq_ok.mp ran
    obtain ⟨-, -, -, -, -, -, -, here⟩ := repackArgument_inv first
    obtain ⟨absent, kept⟩ | ⟨i, ⟨⟨found, at_i, same⟩, last⟩, set⟩ := ih rest
    · obtain ⟨same, -, now⟩ | ⟨other, before⟩ := here
      · refine .inr ⟨0, ⟨⟨update, rfl, same⟩, fun j found at_j equal => ?_⟩, kept.trans now⟩
        cases j with
        | zero => exact le_rfl
        | succ j => exact absurd equal (absent found (List.mem_of_getElem? at_j))
      · exact .inl ⟨List.forall_mem_cons.mpr ⟨other, absent⟩, kept.trans before⟩
    · refine .inr ⟨i + 1, ⟨⟨found, at_i, same⟩, fun j other at_j equal => ?_⟩, ?_⟩
      · cases j with
        | zero => exact Nat.zero_le _
        | succ j => exact Nat.succ_le_succ (last j other at_j equal)
      · rw [set, show n + 1 + i = n + (i + 1) by omega]

theorem dArrayNative_extends {memory memory' : Memory Element} {type : DrpcTypes} {ptr len : Nat}
    {native : Native Argument} (ran : dArrayNative memory type ptr len = .ok (memory', native)) :
    memory.Extends memory' := by
  cases dArrayNative_eq_ok.mp ran with
  | str | sizedbuf => exact Memory.alloc_extends memory _
  | null | container | unsupported => exact Memory.Extends.refl memory

/-- An object that is none of the repacked ones stays as it is. -/
theorem repack_keeps {address : Nat} (bound : address < s.memory.next)
    (apart : ∀ update ∈ updates, update.ptr ≠ address)
    (ran : (updates.zipIdx n).foldlM (repackArgument fnInfo nativeReturn) s = .ok s') :
    s'.memory.cells address = s.memory.cells address := by
  induction updates generalizing s n with
  | nil =>
    cases ran
    rfl
  | cons update updates ih =>
    rw [List.zipIdx_cons, List.foldlM_cons] at ran
    obtain ⟨middle, first, rest⟩ := bind_eq_ok.mp ran
    obtain ⟨-, memory, native, -, copied, -, released, -⟩ := repackArgument_inv first
    obtain ⟨here, later⟩ := List.forall_mem_cons.mp apart
    have grows := dArrayNative_extends copied
    have kept : middle.memory.next = memory.next ∧ middle.memory.cells address = memory.cells address := by
      obtain ⟨-, freed, -⟩ | ⟨-, same, -⟩ := released
      · obtain ⟨-, cells, next⟩ := Memory.free_eq_ok.mp freed
        exact ⟨next, by rw [cells, Function.update_of_ne (Ne.symm here)]⟩
      · exact ⟨congrArg Memory.next same, by rw [same]⟩
    have wider := grows.next
    rw [ih (by omega) later rest, kept.2, grows.cells address bound]

end Server

/-- The field that `d_struct_set` makes of a returned pointer: a copy of a
string, or the container itself. -/
inductive ReturnField (memory : Memory Element) : DrpcTypes → Nat → Field → Prop
  | str {address : Nat} {object : Element} {content : CString} (live : memory.cells address = some object)
      (text : object.asStr = .ok content) : ReturnField memory .dStr address (.element (.str content.block))
  | container {type : DrpcTypes} {address : Nat} (container : type.isContainer = true) :
      ReturnField memory type address (.pointer type address)

/-- The field of the position. -/
def returnIsField (returnIs : Int) : Field :=
  .element (.packed DrpcTypes.dInt8.toChar
    ⟨DrpcTypes.dInt8.toChar, LittleEndian.encode 1 (returnIs % 256).toNat⟩)

section Message
variable {memory : Memory Element} {type : DrpcTypes} {address nativeReturn : Nat} {field : Field}

theorem returnNative_returned {native : Native Field} (returned : type.isReturned = true) (nonNull : address ≠ 0)
    (ran : returnNative memory type address = .ok native) :
    ∃ field, native = .element field ∧ ReturnField memory type address field := by
  cases type <;> cases returned
  · rw [returnNative, if_neg nonNull] at ran
    obtain ⟨object, read, ran⟩ := bind_eq_ok.mp ran
    obtain ⟨content, text, same⟩ := bind_eq_ok.mp ran
    cases same
    exact ⟨_, rfl, .str (Memory.read_eq_ok.mp read) text⟩
  all_goals
    rw [returnNative, if_neg nonNull] at ran
    cases ran
    exact ⟨_, rfl, .container rfl⟩

/-- The field has the content that the pointer leads to. -/
theorem ReturnField.content {e e' : Element} (made : ReturnField memory type address field)
    (live : memory.cells address = some e) (resolved : field.resolve memory = .ok e') : e'.value = e.value := by
  cases made with
  | @str _ _ content held text =>
    rw [live] at held
    cases held
    cases resolved
    cases e with
    | str block =>
      have whole : content.block.takeWhile (· ≠ 0) = content.bytes := CString.takeWhile_append_nul content []
      rw [Element.value, Element.value, whole, CString.takeWhile_of_read text]
    | _ => cases text
  | container _ =>
    obtain ⟨held, -⟩ := readObject_eq_ok.mp resolved
    rw [live] at held
    rw [Option.some.inj held]

theorem ReturnField.cases (made : ReturnField memory type address field) :
    type.isContainer = false ∧ (∃ content : CString, field = .element (.str content.block)) ∨
      type.isContainer = true ∧ field = .pointer type address := by
  cases made with
  | @str _ _ content _ _ => exact .inl ⟨rfl, content, rfl⟩
  | container container => exact .inr ⟨container, rfl⟩

theorem ReturnField.field_type (made : ReturnField memory type address field) : field.type = type.toChar := by
  cases made <;> rfl

theorem ReturnField.resolve_type {e : Element} (made : ReturnField memory type address field)
    (resolved : field.resolve memory = .ok e) : e.type = type.toChar := by
  cases made with
  | str _ _ =>
    cases resolved
    rfl
  | container _ => exact (readObject_eq_ok.mp resolved).2

variable {message message' : DStruct Field} {map : CString → Option Field} {fnInfo : DrpcFunction} {returnIs : Int}

/-- The reply names the position or, with none, carries the returned pointer. -/
theorem setReturn_stands (stands : message.Stands map) (returned : fnInfo.returnType.isReturned = true)
    (nonNull : nativeReturn ≠ 0) (ran : setReturn message fnInfo memory nativeReturn returnIs = .ok message') :
    returnIs = -1 ∧ (∃ field, ReturnField memory fnInfo.returnType nativeReturn field ∧
        message'.Stands (Function.update map (.ofString "return") (some field))) ∨
      returnIs ≠ -1 ∧ message'.Stands (Function.update map (.ofString "return_is") (some (returnIsField returnIs))) := by
  unfold setReturn at ran
  split at ran
  · next marker =>
    have notVoid : fnInfo.returnType ≠ .dVoid := by
      intro void
      rw [void] at returned
      cases returned
    rw [if_neg notVoid] at ran
    obtain ⟨native, made, set⟩ := bind_eq_ok.mp ran
    obtain ⟨field, rfl, field_made⟩ := returnNative_returned returned nonNull made
    exact .inl ⟨marker, field, field_made, stands.set set⟩
  · next position => exact .inr ⟨position, stands.set ran⟩

theorem setRepacked_stands {length : Nat} {repacked : DArray Argument}
    (ran : setRepacked newDStruct length repacked = .ok message) :
    message.Stands fun key =>
      if key = .ofString "repacked_arguments" ∧ length > 0 then some (.arguments repacked) else none := by
  have empty : (newDStruct : DStruct Field).Stands fun _ => none := .start
  unfold setRepacked at ran
  split at ran
  · next some_there =>
    have stands := empty.set ran
    refine ⟨stands.wf, stands.lookup.trans (funext fun key => ?_)⟩
    simp only [StructCall.apply, Function.update_apply, some_there, and_true]
  · next none_there =>
    cases ran
    refine ⟨empty.wf, empty.lookup.trans (funext fun key => ?_)⟩
    rw [if_neg fun both => none_there both.2]

theorem asInt8_encode {byte : Nat} (fits : byte < 256) : (Field.element (.packed DrpcTypes.dInt8.toChar
    ⟨DrpcTypes.dInt8.toChar, LittleEndian.encode 1 byte⟩)).asInt8 = .ok (Int.bmod byte 256) := by
  have read : LittleEndian.decode ((LittleEndian.encode 1 byte).take 1) = byte := by
    rw [List.take_of_length_le (LittleEndian.encode_length 1 byte).le, LittleEndian.decode_encode]
    omega
  have copied : drpcDeconvert ⟨DrpcTypes.dInt8.toChar, LittleEndian.encode 1 byte⟩ 1 =
      .ok ((LittleEndian.encode 1 byte).take 1) :=
    drpcDeconvert_eq_ok.mpr ⟨(LittleEndian.encode_length 1 byte).ge, rfl⟩
  rw [Field.asInt8, copied, ok_bind, read]
  rfl

/-- The number arrives as it was sent. -/
theorem returnIsField_asInt8 (small : -128 ≤ returnIs) (fits : returnIs < 128) :
    (returnIsField returnIs).asInt8 = .ok returnIs := by
  have byte : (returnIs % 256).toNat < 256 := by omega
  have back : Int.bmod ((returnIs % 256).toNat : Nat) 256 = returnIs := by
    rw [bmod_byte]
    split <;> omega
  exact (asInt8_encode byte).trans (congrArg Except.ok back)

/-- The marker -1 is what a position leaves in an `int8_t` if it is 255 modulo 256. -/
theorem bmod_byte_marker (n : Nat) : Int.bmod n 256 = -1 ↔ n % 256 = 255 := by
  rw [bmod_byte]
  split <;> omega

theorem returnIsField_position (n : Nat) : (returnIsField (Int.bmod n 256)).asInt8 = .ok (Int.bmod n 256) := by
  have small : -128 ≤ Int.bmod n 256 ∧ Int.bmod n 256 < 128 := by
    rw [bmod_byte]
    split <;> omega
  exact returnIsField_asInt8 small.1 small.2

end Message

theorem LastAt.unique {pointers : List DrpcTypeUpdate} {address i j : Nat} (first : LastAt pointers address i)
    (second : LastAt pointers address j) : i = j := by
  obtain ⟨⟨update, at_i, same⟩, last⟩ := first
  obtain ⟨⟨other, at_j, equal⟩, final⟩ := second
  exact Nat.le_antisymm (final i update at_i same) (last j other at_j equal)

/-- The reply to a call that returned a pointer: the repacked arguments and
either the last position of the pointer or, for the marker -1, what it leads to. -/
theorem drpcServerInvokeFn_return {memory : Memory Element} {fnInfo : DrpcFunction} {arguments : DArray Argument}
    {slots : List FfiSlot} {toRepack : List DrpcTypeUpdate} {result : CallResult} {left : Memory Element}
    {nativeReturn : Nat} (called : fnInfo.fn slots memory = .ok (left, nativeReturn))
    (returned : fnInfo.returnType.isReturned = true) (nonNull : nativeReturn ≠ 0)
    (ran : drpcServerInvokeFn memory fnInfo arguments slots toRepack newDStruct = .ok result) :
    ∃ s map, toRepack.zipIdx.foldlM (repackArgument fnInfo nativeReturn)
        ⟨arguments, newDArray toRepack.length, left, -1, []⟩ = .ok s ∧
      result.memory = s.memory ∧ result.arguments = s.arguments ∧
      (map = fun key => if key = .ofString "repacked_arguments" ∧ toRepack.length > 0 then some (.arguments s.repacked)
        else none) ∧
      (s.returnIs = -1 ∧ (∃ field, ReturnField s.memory fnInfo.returnType nativeReturn field ∧
          result.returnMsg.Stands (Function.update map (.ofString "return") (some field))) ∨
        s.returnIs ≠ -1 ∧
          result.returnMsg.Stands (Function.update map (.ofString "return_is") (some (returnIsField s.returnIs)))) := by
  rw [drpcServerInvokeFn, called, ok_bind] at ran
  obtain ⟨s, looped, ran⟩ := bind_eq_ok.mp ran
  obtain ⟨first, repacked, ran⟩ := bind_eq_ok.mp ran
  obtain ⟨last, set, same⟩ := bind_eq_ok.mp ran
  cases same
  have stands := setRepacked_stands repacked
  have reply := setReturn_stands stands returned nonNull set
  exact ⟨s, _, looped, rfl, rfl, rfl, reply⟩

section Client
variable {arrival : Memory Element} {passed : List DrpcTypeUpdate} {returnIs : Int} {s s' : ClientRepack}
  {message message' : DStruct Field} {map : CString → Option Field} {done i : Nat}

/-- A round takes one of the caller's pointers and returns it if it is at the position. -/
theorem clientRepack_return (ran : clientRepack returnIs s i = .ok s') :
    ∃ repack, s.repackable = repack :: s'.repackable ∧
      s'.nativeReturn = if returnIs = i ∧ repack.type.isReturned = true then some (.pointer repack.type repack.ptr)
        else s.nativeReturn := by
  obtain ⟨type, -, ran⟩ := bind_eq_ok.mp ran
  split at ran
  · cases ran
  · next repack rest queue =>
    refine ⟨repack, ?_⟩
    obtain ⟨stored, len, index, ptr⟩ := repack
    dsimp only at ran
    split at ran
    · cases ran
    cases stored with
    | dStr | dStruct | dArray | dQueue =>
      obtain ⟨⟨address, len'⟩, -, ran⟩ := bind_eq_ok.mp ran
      obtain ⟨repacked, -, ran⟩ := bind_eq_ok.mp ran
      obtain ⟨moved, -, same⟩ := bind_eq_ok.mp ran
      cases same
      exact ⟨queue, by simp [DrpcTypes.isReturned, DrpcTypes.isContainer]⟩
    | dSizedbuf =>
      obtain ⟨⟨address, len'⟩, -, ran⟩ := bind_eq_ok.mp ran
      obtain ⟨memory, -, same⟩ := bind_eq_ok.mp ran
      cases same
      exact ⟨queue, by simp [DrpcTypes.isReturned, DrpcTypes.isContainer]⟩
    | _ =>
      cases ran
      exact ⟨queue, by simp [DrpcTypes.isReturned, DrpcTypes.isContainer]⟩

/-- One more pointer to look the position up in. -/
theorem identified_take {repack : DrpcTypeUpdate} (here : passed[done]? = some repack) :
    identified (passed.take (done + 1)) returnIs =
      if returnIs = done ∧ repack.type.isReturned = true then some (.pointer repack.type repack.ptr)
      else identified (passed.take done) returnIs := by
  unfold identified
  by_cases position : returnIs = done
  · have nonneg : 0 ≤ returnIs := by omega
    have index : returnIs.toNat = done := by omega
    rw [if_pos nonneg, if_pos nonneg, index, List.getElem?_take_of_succ, here, List.getElem?_take_eq_none le_rfl]
    by_cases returned : repack.type.isReturned = true
    · rw [if_pos ⟨position, returned⟩, Option.filter_some, if_pos returned, Option.map_some]
    · rw [if_neg fun both => returned both.2, Option.filter_some, if_neg returned]
      rfl
  · have elsewhere : ¬ (returnIs = done ∧ repack.type.isReturned = true) := fun both => position both.1
    rw [if_neg elsewhere]
    split
    · next nonneg =>
      rw [List.getElem?_take, List.getElem?_take]
      by_cases before : returnIs.toNat < done
      · rw [if_pos before, if_pos (by omega)]
      · rw [if_neg before, if_neg (by omega)]
    · rfl

/-- The loop returns the caller's pointer at the position. -/
theorem clientRepack_returns {rounds : Nat} (queue : s.repackable = passed.drop done)
    (before : s.nativeReturn = identified (passed.take done) returnIs)
    (ran : (List.range' done rounds).foldlM (clientRepack returnIs) s = .ok s') :
    s'.nativeReturn = identified (passed.take (done + rounds)) returnIs := by
  induction rounds generalizing s done with
  | zero =>
    cases ran
    exact before
  | succ rounds ih =>
    rw [List.range'_succ, List.foldlM_cons] at ran
    obtain ⟨middle, first, rest⟩ := bind_eq_ok.mp ran
    obtain ⟨repack, popped, set⟩ := clientRepack_return first
    rw [queue] at popped
    have here : passed[done]? = some repack := by
      rw [← List.head?_drop, popped, List.head?_cons]
    have next : middle.repackable = passed.drop (done + 1) := by
      rw [← List.tail_drop, popped, List.tail_cons]
    have last := ih next (by rw [set, before, identified_take here]) rest
    rwa [show done + 1 + rounds = done + (rounds + 1) by omega] at last

/-- The loop over the repacked arguments, if the reply has some. -/
theorem clientRepackAll_inv (stands : message.Stands map)
    (ran : clientRepackAll contents arrival passed message returnIs = .ok (message', s)) :
    (∀ repacked, map (.ofString "repacked_arguments") ≠ some (.arguments repacked)) ∧ message' = message ∧
        s.memory = arrival ∧ s.nativeReturn = none ∨
      ∃ repacked, map (.ofString "repacked_arguments") = some (.arguments repacked) ∧
        (List.range' 0 (dArrayLen repacked)).foldlM (clientRepack returnIs) ⟨repacked, arrival, passed, none, contents⟩ = .ok s ∧
        message'.Stands (Function.update map (.ofString "repacked_arguments") (some (.arguments s.repacked))) := by
  obtain ⟨found, got, ran⟩ := bind_eq_ok.mp ran
  obtain ⟨held, get, same⟩ := bind_eq_ok.mp got
  cases same
  cases stands.get get
  cases here : (map (.ofString "repacked_arguments")).filter fun e => DStructElement.type e == DrpcTypes.dArray.toChar with
  | none =>
    rw [here] at ran
    cases ran
    refine .inl ⟨fun repacked bound => ?_, rfl, rfl, rfl⟩
    rw [bound] at here
    cases here
  | some field =>
    rw [here] at ran
    obtain ⟨repacked, array, ran⟩ := bind_eq_ok.mp ran
    obtain ⟨last, looped, ran⟩ := bind_eq_ok.mp ran
    obtain ⟨modified, written, same⟩ := bind_eq_ok.mp ran
    cases same
    rw [List.range_eq_range'] at looped
    obtain ⟨bound, -⟩ := Option.filter_eq_some_iff.mp here
    have stored := stands.modify written
    rw [bound] at stored
    cases field with
    | arguments a =>
      cases array
      exact .inr ⟨repacked, bound, looped, stored⟩
    | _ => cases array

/-- The loop sets the return value to the pointer at the position. -/
theorem clientRepackAll_return (stands : message.Stands map)
    (lines : passed = [] ∨ ∃ repacked, map (.ofString "repacked_arguments") = some (.arguments repacked) ∧
      dArrayLen repacked = passed.length)
    (ran : clientRepackAll contents arrival passed message returnIs = .ok (message', s)) :
    s.nativeReturn = identified passed returnIs ∧
      ∃ map', message'.Stands map' ∧ ∀ key, key ≠ .ofString "repacked_arguments" → map' key = map key := by
  have nothing : identified [] returnIs = none := by
    rw [identified]
    split <;> rfl
  obtain ⟨absent, rfl, -, unset⟩ | ⟨repacked, bound, looped, stands'⟩ := clientRepackAll_inv stands ran
  · obtain rfl | ⟨repacked, bound, -⟩ := lines
    · exact ⟨unset.trans nothing.symm, map, stands, fun _ _ => rfl⟩
    · exact absurd bound (absent repacked)
  · refine ⟨?_, _, stands', fun key other => Function.update_of_ne other _ _⟩
    have start : identified (passed.take 0) returnIs = none := nothing
    have set := clientRepack_returns rfl start.symm looped
    rw [set, Nat.zero_add]
    obtain rfl | ⟨other, again, length⟩ := lines
    · rw [List.take_nil]
    · rw [bound] at again
      cases again
      rw [length, List.take_length]

/-- Without a position the return value is the field of the reply. -/
theorem clientReturn_carried {nativeReturn native : Option Field} {field : Field} (stands : message.Stands map)
    (carried : map (.ofString "return") = some field) (notVoid : field.type ≠ DrpcTypes.dVoid.toChar)
    (ran : clientReturn message (-1) nativeReturn = .ok (message', native)) :
    native = some field ∧ message'.Stands ((StructCall.unlink (.ofString "return")).apply map) := by
  rw [clientReturn, if_pos rfl] at ran
  obtain ⟨type, typed, ran⟩ := bind_eq_ok.mp ran
  obtain ⟨held, get, same⟩ := bind_eq_ok.mp typed
  cases same
  cases stands.get get
  have other : DStructElement.type field ≠ DrpcTypes.dVoid.toChar := notVoid
  rw [carried, Option.map_some, Option.getD_some, if_neg other] at ran
  obtain ⟨found, again, ran⟩ := bind_eq_ok.mp ran
  obtain ⟨⟨unlinked, done⟩, removed, same⟩ := bind_eq_ok.mp ran
  cases same
  cases stands.get again
  exact ⟨carried, (stands.unlink removed).1⟩

/-- What a call that returns 0 has stored through `native_return`: the caller's
pointer at the position that the reply names, or the field that it carries. -/
theorem drpcClientCallFinish_return {finish : ClientFinish} (stands : message.Stands map)
    (lines : passed = [] ∨ ∃ repacked, map (.ofString "repacked_arguments") = some (.arguments repacked) ∧
      dArrayLen repacked = passed.length)
    (ran : drpcClientCallFinish contents arrival passed ⟨.return, some message⟩ = .ok finish) :
    (∀ field position, map (.ofString "return_is") = some field → field.type = DrpcTypes.dInt8.toChar →
        field.asInt8 = .ok position → position ≠ -1 → finish.nativeReturn = identified passed position) ∧
      (map (.ofString "return_is") = none → ∀ field, map (.ofString "return") = some field →
        field.type ≠ DrpcTypes.dVoid.toChar → finish.nativeReturn = some field) := by
  obtain ⟨found, returnIs, message', s, last, got, read, repacked, unlinked, -, -⟩ := drpcClientCallFinish_inv rfl rfl ran
  obtain ⟨held, get, same⟩ := bind_eq_ok.mp got
  cases same
  cases stands.get get
  obtain ⟨set, map', stands', others⟩ := clientRepackAll_return stands lines repacked
  refine ⟨fun field position named typed number notMarker => ?_, fun unnamed field carried notVoid => ?_⟩
  · have byte : (DStructElement.type field == DrpcTypes.dInt8.toChar) = true := beq_of_eq typed
    rw [named, Option.filter_some, if_pos byte, readReturnIs, number] at read
    cases read
    rw [clientReturn, if_neg notMarker] at unlinked
    exact (Prod.mk.inj (Except.ok.inj unlinked)).2.symm.trans set
  · rw [unnamed, Option.filter_none] at read
    cases read
    have apart : CString.ofString "return" ≠ .ofString "repacked_arguments" := by decide
    exact (clientReturn_carried stands' ((others _ apart).trans carried) notVoid unlinked).1

end Client

section Trip
variable {aes : Option Aes} {sender before after : Memory Element} {type : DrpcProtocol} {message : DStruct Field}
  {recv : DrpcMessage} {received : MemoryMessage} {key : CString}

theorem loadMessage_inv {memory memory' : Memory Element} {message : DStruct Element} {message' : DStruct Field}
    (ran : loadMessage key memory message = .ok (memory', message')) :
    ∃ f : CString → Element → Field, message' = message.mapKey f ∧ ∀ other e, other ≠ key → f other e = .element e := by
  obtain ⟨found, -, ran⟩ := bind_eq_ok.mp ran
  split at ran
  · obtain ⟨⟨memory'', cells⟩, -, same⟩ := bind_eq_ok.mp ran
    cases same
    exact ⟨_, rfl, fun other e apart => if_neg apart⟩
  · cases ran
    exact ⟨_, rfl, fun _ _ _ => rfl⟩

/-- The fields besides the arguments arrive with their content, as elements of
their own. -/
theorem drpcTcpSend_fields (wf : message.Wf)
    (good : ∀ key field, (key, field) ∈ message.hashtable.bindings → field.Good sender)
    (sent : drpcTcpSend aes sender ⟨type, some message⟩ = .ok (some recv))
    (ran : drpcTcpLoad key before recv = .ok (after, received)) :
    ∃ message' map, received = ⟨.ofUInt8 type.toUInt8, some message'⟩ ∧ message'.Stands map ∧
      ∀ other, other ≠ key → (message.hashtable.lookup other = none → map other = none) ∧
        ∀ field, message.hashtable.lookup other = some field → ∃ e e', field.resolve sender = .ok e ∧
          map other = some (.element e') ∧ e'.value = e.value := by
  obtain ⟨d, d', resolved, rfl, value, wf', -⟩ := drpcTcpSend_payload wf good sent
  cases wf' with
  | dstruct table fields =>
    obtain ⟨⟨after', message'⟩, load, done⟩ := bind_eq_ok.mp ran
    cases done
    obtain ⟨f, rfl, plain⟩ := loadMessage_inv load
    refine ⟨_, _, rfl, ⟨table.mapKey f, rfl⟩, fun other apart => ?_⟩
    have held := DStruct.resolve_lookup resolved other
    have loaded : (d'.mapKey f).hashtable.lookup other = (d'.hashtable.lookup other).map (f other) := by
      rw [Hashtable.lookup, DStruct.mapKey, Hashtable.mapKey_bindings, lookup_mapKey]
      rfl
    refine ⟨fun absent => ?_, fun field there => ?_⟩
    · rw [loaded, DStruct.lookup_none_of_value value (by rw [held, absent, Option.map_none]), Option.map_none]
    · have read := (DStruct.resolve_eq_ok resolved).2 other field (wf.table.lookup_eq_some.mp there)
      rw [there, Option.map_some] at held
      obtain ⟨e', held', same⟩ := DStruct.lookup_of_value value held
      exact ⟨_, e', read, by rw [loaded, held', Option.map_some, plain other e' apart], same⟩

end Trip

end DynamicRPC
