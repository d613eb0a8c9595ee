import DynamicRPC.CallRepack
import DynamicRPC.HandleCall
import DynamicRPC.StructRuns

/-! What fails no assertion, whatever memory faults it meets. -/

namespace DynamicRPC
open Outcome

section Containers
variable {E : Type}

@[simp] theorem hashtableFindSlot_avoids (t : Hashtable E) (key : CString) :
    Avoids .assertion (hashtableFindSlot t key) := by
  unfold hashtableFindSlot
  split
  · exact avoids_ok _
  · exact avoids_error.mpr nofun

@[simp] theorem dStructModify_avoids (d : DStruct E) (key : CString) (f : E → E) :
    Avoids .assertion (dStructModify d key f) := by
  refine avoids_bind.mpr ⟨hashtableFindSlot_avoids _ key, fun index _ => ?_⟩
  split <;> exact avoids_ok _

variable [DStructElement E]

end Containers

@[simp] theorem CString.read_avoids (memory : List UInt8) : Avoids .assertion (CString.read memory) := by
  unfold CString.read
  split <;> simp

@[simp] theorem Element.asStr_avoids (e : Element) : Avoids .assertion e.asStr := by
  cases e <;> simp [Element.asStr]

@[simp] theorem Memory.read_avoids {β : Type} (m : Memory β) (address : Nat) : Avoids .assertion (m.read address) := by
  unfold Memory.read
  split <;> simp

@[simp] theorem Memory.free_avoids {β : Type} (m : Memory β) (address : Nat) : Avoids .assertion (m.free address) := by
  unfold Memory.free
  split <;> simp

@[simp] theorem Memory.write_avoids {β : Type} (m : Memory β) (address : Nat) (object : β) :
    Avoids .assertion (m.write address object) := by
  unfold Memory.write
  split <;> simp

section Release
variable (memory : Memory Element)

theorem Cell.free_avoids (cell : Cell Argument) : Avoids .assertion (cell.free memory) := by
  cases cell with
  | elem argument => cases argument <;> simp [Cell.free]
  | uninit | null | dangling => simp [Cell.free]

end Release

section Setters

end Setters
end DynamicRPC
