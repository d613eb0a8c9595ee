import DynamicRPC.CallPrepare

namespace DynamicRPC
open Outcome

/-- What a setter makes of a pointer: strings and buffers are copied to the next
free address, containers are kept by their own. -/
inductive NativeOf (memory : Memory Element) (ptr len : Nat) : DrpcTypes → Memory Element → Native Argument → Prop
  | null {type : DrpcTypes} (null : ptr = 0) : NativeOf memory ptr len type memory .null
  | str {block : List UInt8} {content : CString} (nonNull : ptr ≠ 0) (live : memory.cells ptr = some (.str block))
      (text : CString.read block = .ok content) :
      NativeOf memory ptr len .dStr (memory.alloc (.str content.block)).2 (.element (.pointer .dStr memory.next 0 rfl))
  | sizedbuf {block : List UInt8} (nonNull : ptr ≠ 0) (live : memory.cells ptr = some (.sizedbuf block))
      (within : len ≤ block.length) :
      NativeOf memory ptr len .dSizedbuf (memory.alloc (.sizedbuf (block.take len))).2
        (.element (.pointer .dSizedbuf memory.next len rfl))
  | container {type : DrpcTypes} (nonNull : ptr ≠ 0) (pointer : type.isPointer = true) (notStr : type ≠ .dStr)
      (notBuffer : type ≠ .dSizedbuf) : NativeOf memory ptr len type memory (.element (.pointer type ptr 0 pointer))
  | unsupported {type : DrpcTypes} (nonNull : ptr ≠ 0) (other : type.isPointer = false) :
      NativeOf memory ptr len type memory .unsupported

theorem dArrayNative_eq_ok {memory memory' : Memory Element} {type : DrpcTypes} {ptr len : Nat} {native : Native Argument} :
    dArrayNative memory type ptr len = .ok (memory', native) ↔ NativeOf memory ptr len type memory' native := by
  unfold dArrayNative
  constructor
  · intro ran
    split at ran
    · next null =>
      cases ran
      exact .null null
    · next nonNull =>
      cases type with
      | dStr =>
        obtain ⟨object, read, ran⟩ := bind_eq_ok.mp ran
        obtain ⟨content, text, same⟩ := bind_eq_ok.mp ran
        cases same
        cases object with
        | str block => exact .str nonNull (Memory.read_eq_ok.mp read) text
        | _ => cases text
      | dSizedbuf =>
        obtain ⟨object, read, ran⟩ := bind_eq_ok.mp ran
        cases object with
        | sizedbuf block =>
          dsimp only at ran
          split at ran
          · cases ran
          · next within =>
            cases ran
            exact .sizedbuf nonNull (Memory.read_eq_ok.mp read) (not_lt.mp within)
        | _ => cases ran
      | dStruct | dQueue | dArray =>
        cases ran
        exact .container nonNull rfl (by decide) (by decide)
      | _ =>
        cases ran
        exact .unsupported nonNull rfl
  · intro made
    cases made with
    | null null => exact if_pos null
    | str nonNull live text =>
      dsimp only
      rw [if_neg nonNull, Memory.read_eq_ok.mpr live, ok_bind, Element.asStr, text]
      rfl
    | sizedbuf nonNull live within =>
      dsimp only
      rw [if_neg nonNull, Memory.read_eq_ok.mpr live, ok_bind]
      exact if_neg (not_lt.mpr within)
    | container nonNull pointer notStr notBuffer =>
      rw [if_neg nonNull]
      cases type with
      | dStr => exact absurd rfl notStr
      | dSizedbuf => exact absurd rfl notBuffer
      | dStruct | dQueue | dArray => rfl
      | _ => cases pointer
    | unsupported nonNull other =>
      rw [if_neg nonNull]
      cases type <;> cases other <;> rfl

section Step
variable {fnInfo : DrpcFunction} {nativeReturn i : Nat} {s s' : Repacking} {repack : DrpcTypeUpdate}

/-- Everything that one round of the repack loop does. -/
theorem repackArgument_inv (ran : repackArgument fnInfo nativeReturn s (repack, i) = .ok s') :
    ∃ done memory native, dArrayUnlink s.arguments repack.index = .ok (s'.arguments, done) ∧
      dArrayNative s.memory repack.type repack.ptr repack.len = .ok (memory, native) ∧
      dArraySetWithin s.repacked i native = .ok s'.repacked ∧
      (repack.type = .dSizedbuf ∧ memory.free repack.ptr = .ok s'.memory ∧ s'.freed = repack.ptr :: s.freed ∨
        repack.type ≠ .dSizedbuf ∧ s'.memory = memory ∧ s'.freed = s.freed) ∧
      (repack.ptr = nativeReturn ∧ repack.type = fnInfo.returnType ∧ s'.returnIs = Int.bmod i 256 ∨
        repack.ptr ≠ nativeReturn ∧ s'.returnIs = s.returnIs) := by
  obtain ⟨returnIs, returned, ran⟩ := bind_eq_ok.mp ran
  have returns : repack.ptr = nativeReturn ∧ repack.type = fnInfo.returnType ∧ returnIs = Int.bmod i 256 ∨
      repack.ptr ≠ nativeReturn ∧ returnIs = s.returnIs := by
    unfold repackReturnIs at returned
    split at returned
    · next same =>
      split at returned
      · next type => exact Or.inl ⟨same, type, (Except.ok.inj returned).symm⟩
      · cases returned
    · next other => exact Or.inr ⟨other, (Except.ok.inj returned).symm⟩
  obtain ⟨⟨arguments, done⟩, unlinked, ran⟩ := bind_eq_ok.mp ran
  obtain ⟨⟨memory, native⟩, copied, ran⟩ := bind_eq_ok.mp ran
  obtain ⟨repacked, stored, ran⟩ := bind_eq_ok.mp ran
  split at ran
  · next buffer =>
    obtain ⟨memory', freed, same⟩ := bind_eq_ok.mp ran
    cases same
    exact ⟨done, memory, native, unlinked, copied, stored, Or.inl ⟨buffer, freed, rfl⟩, returns⟩
  · next other =>
    cases ran
    exact ⟨done, memory, native, unlinked, copied, stored, Or.inr ⟨other, rfl, rfl⟩, returns⟩

end Step

/-- The loop unlinks the pointers at the recorded indices and leaves the others. -/
theorem repack_arguments {fnInfo : DrpcFunction} {nativeReturn size : Nat} {entries : List (DrpcTypeUpdate × Nat)}
    {s s' : Repacking} {map : Nat → Option Argument} (holds : s.arguments.Holds size map)
    (ran : entries.foldlM (repackArgument fnInfo nativeReturn) s = .ok s') :
    s'.arguments.Holds size fun i =>
      if i ∈ entries.map (·.1.index) then (map i).filter Argument.isPacked else map i := by
  induction entries generalizing s map with
  | nil =>
    cases ran
    simpa using holds
  | cons entry entries ih =>
    obtain ⟨repack, i⟩ := entry
    rw [List.foldlM_cons] at ran
    obtain ⟨middle, first, rest⟩ := bind_eq_ok.mp ran
    obtain ⟨done, -, -, unlinked, -⟩ := repackArgument_inv first
    obtain ⟨other, flag, again, held⟩ := holds.unlink repack.index
    rw [unlinked] at again
    cases again
    have last := ih held rest
    refine { last with lookup := fun n => (last.lookup n).trans ?_ }
    rw [List.map_cons]
    by_cases same : n = repack.index
    · rw [if_pos same, if_pos (List.mem_cons.mpr (Or.inl same))]
      cases map n with
      | none => simp
      | some argument => cases packed : argument.isPacked <;> simp [Option.filter, DStructElement.isPacked, packed]
    · simp only [List.mem_cons, same, false_or, if_false]

/-- Everything that a call with the return value 0 went through. -/
theorem drpcServerCallFn_inv {memory : Memory Element} {arguments : DArray Argument} {fnInfo : DrpcFunction}
    {returnMsg : DStruct Field} {result : CallResult}
    (called : drpcServerCallFn memory (some arguments) fnInfo returnMsg = .ok (some result)) :
    ∃ prepared left nativeReturn s, drpcServerPrepareFn (some arguments) fnInfo = .ok (some prepared) ∧
      fnInfo.fn prepared.2.1 memory = .ok (left, nativeReturn) ∧
      prepared.2.2.zipIdx.foldlM (repackArgument fnInfo nativeReturn)
        ⟨prepared.1, newDArray prepared.2.2.length, left, -1, []⟩ = .ok s ∧
      result.arguments = s.arguments ∧ result.memory = s.memory ∧ result.freed = s.freed ∧
      result.repacked = if prepared.2.2.length > 0 then some s.repacked else none := by
  obtain ⟨prepared, ready, ran⟩ := bind_eq_ok.mp called
  cases prepared with
  | none => cases ran
  | some prepared =>
    obtain ⟨arguments', slots, toRepack⟩ := prepared
    obtain ⟨finished, invoked, same⟩ := bind_eq_ok.mp ran
    cases same
    obtain ⟨⟨left, nativeReturn⟩, body, ran⟩ := bind_eq_ok.mp invoked
    obtain ⟨s, repacked, ran⟩ := bind_eq_ok.mp ran
    obtain ⟨_, -, ran⟩ := bind_eq_ok.mp ran
    obtain ⟨_, -, same⟩ := bind_eq_ok.mp ran
    cases same
    exact ⟨_, left, nativeReturn, s, ready, body, repacked, rfl, rfl, rfl, rfl⟩

end DynamicRPC
