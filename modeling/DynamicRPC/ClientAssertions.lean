import DynamicRPC.AssertionFree
import DynamicRPC.CallClient

/-! The assertions of `drpc_client_call_internal`: which replies, and which words for
pointers, it survives. -/

namespace DynamicRPC
open Outcome Runs

section Message
variable {fromDouble : Nat → Nat} {s : ClientArguments} {type : DrpcTypes} {i : Nat}

end Message

section Move
variable {memory : Memory Element} {original repacked len : Nat}

theorem moveContainer_avoids {contents : Contents} :
    Avoids .assertion (moveContainer contents memory original repacked) := by
  unfold moveContainer
  split
  · exact avoids_ok _
  · refine avoids_bind.mpr ⟨foldlM_avoids (fun other _ memory => Memory.free_avoids memory other) memory, fun _ _ => ?_⟩
    refine avoids_bind.mpr ⟨Memory.read_avoids _ _, fun _ _ => avoids_bind.mpr ⟨Memory.write_avoids _ _ _, fun _ _ => ?_⟩⟩
    exact avoids_bind.mpr ⟨Memory.free_avoids _ _, fun _ _ => avoids_ok _⟩

theorem moveStr_avoids : Avoids .assertion (moveStr memory original repacked) := by
  unfold moveStr
  split
  · exact avoids_ok _
  · refine avoids_bind.mpr ⟨Memory.read_avoids _ _, fun object _ => ?_⟩
    cases object with
    | str block =>
      refine avoids_bind.mpr ⟨CString.read_avoids _, fun _ _ => avoids_bind.mpr ⟨Memory.read_avoids _ _, fun _ _ => ?_⟩⟩
      refine avoids_bind.mpr ⟨Element.asStr_avoids _, fun _ _ => avoids_bind.mpr ⟨Memory.write_avoids _ _ _, fun _ _ => ?_⟩⟩
      exact Memory.free_avoids _ _
    | _ => simp

theorem moveBuffer_avoids : Avoids .assertion (moveBuffer memory original repacked len) := by
  refine avoids_bind.mpr ⟨Memory.read_avoids _ _, fun object _ => avoids_bind.mpr ⟨Memory.read_avoids _ _,
    fun source _ => ?_⟩⟩
  split
  · split
    · simp
    · exact Memory.write_avoids _ _ _
  · simp

end Move

/-- A repacked argument answers the next pointer that was passed: there is one left, of its type. -/
def ClientRepack.Answered (s : ClientRepack) (i : Nat) : Prop :=
  ∀ type, dArrayGetType s.repacked i = .ok type → (s.repackable.head?.map fun repack => repack.type.toChar) = some type

section Repack
variable {returnIs : Int} {s : ClientRepack} {i : Nat}

end Repack

/-- A reply that the client survives: a `drpc_return` has a payload, and every argument in its
`repacked_arguments` that the loop comes to answers the next pointer that was passed. -/
def MemoryMessage.Fits (contents : Contents) (memory : Memory Element) (repackable : List DrpcTypeUpdate)
    (recv : MemoryMessage) : Prop :=
  recv.messageType = .return → ∃ message, recv.message = some message ∧ ∀ found returnIs repacked,
    dStructGet message (.ofString "return_is") .dInt8 = .ok found → readReturnIs found = .ok returnIs →
    dStructGet message (.ofString "repacked_arguments") .dArray = .ok (some (.arguments repacked)) →
    Along (clientRepack returnIs) ClientRepack.Answered ⟨repacked, memory, repackable, none, contents⟩
      (List.range (dArrayLen repacked))

section Finish
variable {contents : Contents} {memory : Memory Element} {repackable : List DrpcTypeUpdate} {message : DStruct Field}

end Finish
end DynamicRPC
