import DynamicRPC.ContainerOwnership

namespace DynamicRPC.Heap
open Outcome Ownership Runs

/-- The memory of a program that uses containers, and the pointers that are the
program's: containers that it made and did not store away, and what it took out. -/
structure Program where
  memory : Memory Block
  roots : List (Nat × Kind)

inductive Call
  | newDStruct
  | newDQueue
  | newDArray (startCapacity : Nat)
  | dStructSet (p : Nat) (key : CString) (native : Native)
  | dStructGet (p : Nat) (key : CString) (type : DrpcTypes)
  | dStructRemove (p : Nat) (key : CString)
  | dStructUnlink (p : Nat) (key : CString)
  | dQueuePush (p : Nat) (native : Native)
  | dQueuePop (p : Nat) (wanted : Option DrpcTypes)
  | dArraySet (p index : Nat) (native : Native)
  | dArrayGet (p index : Nat) (type : DrpcTypes)
  | dArrayRemove (p index : Nat)
  | dArrayUnlink (p index : Nat)
  | free (p : Nat) (kind : Kind)

/-- What `free` or the function of a container can free as a whole. -/
def Kind.Freed : Kind → Prop
  | .record _ | .element => False
  | _ => True

/-- How a program frees what is its own. -/
def freeRoot (m : Memory Block) (p : Nat) : Kind → Outcome (Memory Block)
  | .dstruct => dStructFree m p
  | .dqueue => dQueueFree m p
  | .darray => dArrayFree m p
  | _ => m.free p

def Call.run (s : Program) : Call → Outcome Program
  | .newDStruct => pure ⟨(Heap.newDStruct s.memory).2, ((Heap.newDStruct s.memory).1, .dstruct) :: s.roots⟩
  | .newDQueue => pure ⟨(Heap.newDQueue s.memory).2, ((Heap.newDQueue s.memory).1, .dqueue) :: s.roots⟩
  | .newDArray startCapacity =>
    pure ⟨(Heap.newDArray s.memory startCapacity).2, ((Heap.newDArray s.memory startCapacity).1, .darray) :: s.roots⟩
  | .dStructSet p key native => do
    let m ← Heap.dStructSet s.memory p key native
    pure ⟨m, s.roots.diff native.offered⟩
  | .dStructGet p key type => do
    let _ ← Heap.dStructGet s.memory p key type
    pure s
  | .dStructRemove p key => do
    let m ← Heap.dStructRemove s.memory p key
    pure ⟨m, s.roots⟩
  | .dStructUnlink p key => do
    let (m, unlinked) ← Heap.dStructUnlink s.memory p key
    pure ⟨m, (unlinked.map HeapElement.handed).getD [] ++ s.roots⟩
  | .dQueuePush p native => do
    let m ← Heap.dQueuePush s.memory p native
    pure ⟨m, s.roots.diff native.offered⟩
  | .dQueuePop p wanted => do
    let (m, popped) ← dQueuePopWith s.memory wanted p
    pure ⟨m, (popped.map fun result => result.1.handed).getD [] ++ s.roots⟩
  | .dArraySet p index native => do
    let m ← Heap.dArraySet s.memory p index native
    pure ⟨m, s.roots.diff native.offered⟩
  | .dArrayGet p index type => do
    let _ ← Heap.dArrayGet s.memory p index type
    pure s
  | .dArrayRemove p index => do
    let m ← Heap.dArrayRemove s.memory p index
    pure ⟨m, s.roots⟩
  | .dArrayUnlink p index => do
    let (m, unlinked) ← Heap.dArrayUnlink s.memory p index
    pure ⟨m, (unlinked.map HeapElement.handed).getD [] ++ s.roots⟩
  | .free p kind => do
    let m ← freeRoot s.memory p kind
    pure ⟨m, s.roots.erase (p, kind)⟩

/-- A container that a setter stores is the program's, and does not lead to the
container that it is stored in. -/
def Offers (s : Program) (p : Nat) (native : Native) : Prop :=
  ∃ rest, s.roots.Perm (native.offered ++ rest) ∧ Reaches s.memory rest p

/-- What a program owes its calls: the containers that it passes are there, the
ones that it stores or frees are its own, probes end, and `d_array_set` stays
inside the table and off the elements that it could not replace. -/
def Call.Owed (s : Program) : Call → Prop
  | .newDStruct | .newDQueue | .newDArray _ => True
  | .dStructSet p key native => Offers s p native ∧
    ∃ d heapKeys, s.memory.cells p = some (.dstruct d heapKeys) ∧ Probes d key
  | .dStructGet p key _ | .dStructRemove p key | .dStructUnlink p key => Reaches s.memory s.roots p ∧
    ∃ d heapKeys, s.memory.cells p = some (.dstruct d heapKeys) ∧ Probes d key
  | .dQueuePush p native => Offers s p native ∧ native ≠ .null ∧ ∃ que, s.memory.cells p = some (.dqueue que)
  | .dQueuePop p _ => Reaches s.memory s.roots p ∧ ∃ que, s.memory.cells p = some (.dqueue que)
  | .dArraySet p index native => Offers s p native ∧ native ≠ .null ∧ ∃ a, s.memory.cells p = some (.darray a) ∧
    index < a.lookupSize ∧ (native = .unsupported → a.lookup index = none)
  | .dArrayGet p _ _ | .dArrayRemove p _ | .dArrayUnlink p _ => Reaches s.memory s.roots p ∧
    ∃ a, s.memory.cells p = some (.darray a)
  | .free p kind => (p, kind) ∈ s.roots

section Calls
variable {base : Memory Block} {s : Program}

/-- Every block that is there since `base` is the program's, through one of its pointers. -/
structure Program.Sound (base : Memory Block) (s : Program) : Prop where
  owns : Owns base s.memory none [] [] s.roots
  freed : ∀ root ∈ s.roots, root.2.Freed

theorem pointerKind_freed {type : DrpcTypes} {k : Kind} (pointer : pointerKind type = some k) : k.Freed := by
  cases type <;> cases pointer <;> trivial

theorem HeapElement.handed_freed (e : HeapElement) : ∀ root ∈ e.handed, root.2.Freed := by
  obtain ⟨data, isPacked, type⟩ := e
  intro root member
  cases isPacked with
  | true => cases member
  | false =>
    obtain ⟨k, pointer, rfl⟩ : ∃ k, pointerKind type = some k ∧ (data, k) = root := by
      simpa [HeapElement.handed, HeapElement.owned] using member
    exact pointerKind_freed pointer

/-- Storing a container takes it from the pointers of the program. -/
theorem Native.offered_diff (native : Native) {roots rest : List (Nat × Kind)}
    (same : roots.Perm (native.offered ++ rest)) : rest.Perm (roots.diff native.offered) := by
  refine List.Perm.trans ?_ (same.diff_right native.offered).symm
  cases native with
  | null => rfl
  | unsupported => rfl
  | stored s =>
    cases s with
    | container type pointer isNested =>
      cases type <;> simp [Native.offered, Stored.offered, pointerKind]
    | _ => rfl

theorem freeRoot_erases {m : Memory Block} {p : Nat} {kind : Kind} (freed : kind.Freed) {f : Multiset Nat}
    (holds : Holds m none [(p, kind)] f) (apart : f.Nodup) (small : f.card ≤ m.next) :
    ∃ m', freeRoot m p kind = .ok m' ∧ Erases f m m' := by
  have frees := containerFree_frees m.next
  cases kind with
  | dstruct => exact frees .dStruct _ rfl rfl m p f holds apart small
  | dqueue => exact frees .dQueue _ rfl rfl m p f holds apart small
  | darray => exact frees .dArray _ rfl rfl m p f holds apart small
  | key s => exact holds_free holds fun b => owned_key
  | string => exact holds_free holds fun b => owned_string
  | bytes => exact holds_free holds fun b => owned_bytes
  | packedData type => exact holds_free holds fun b => owned_packedData
  | record type => cases freed
  | element => cases freed

variable (sound : s.Sound base)
include sound

theorem Program.Sound.given {m : Memory Block} {taken : Option HeapElement}
    (owns : Owns base m none [] [] ((taken.map HeapElement.handed).getD [] ++ s.roots)) :
    Program.Sound base ⟨m, (taken.map HeapElement.handed).getD [] ++ s.roots⟩ where
  owns := owns
  freed := fun root member => by
    rcases List.mem_append.mp member with inside | inside
    · cases taken with
      | none => cases inside
      | some e => exact e.handed_freed root inside
    · exact sound.freed root inside

theorem Program.Sound.made {b : Block} {kind : Kind} (admitted : Block.admits kind b) (alone : b.owned = [])
    (freed : kind.Freed) : Program.Sound base ⟨(s.memory.alloc b).2, ((s.memory.alloc b).1, kind) :: s.roots⟩ where
  owns := by
    have loose : Owns base (s.memory.alloc b).2 none [] ([((s.memory.alloc b).1, kind)] ++ []) s.roots :=
      sound.owns.alloc_loose rfl admitted alone
    exact loose.give
  freed := fun root member => (List.mem_cons.mp member).elim (fun same => same ▸ freed) (sound.freed root)

theorem Program.Sound.stored {m : Memory Block} {native : Native} {rest : List (Nat × Kind)}
    (same : s.roots.Perm (native.offered ++ rest)) (owns : Owns base m none [] [] rest) :
    Program.Sound base ⟨m, s.roots.diff native.offered⟩ where
  owns := owns.perm (.refl _) (native.offered_diff same)
  freed := fun root member => sound.freed root (List.diff_subset _ _ member)

/-- Each call returns, if the program gives it what it owes it. -/
theorem Call.run_sound {call : Call} (owed : call.Owed s) : ∃ s', call.run s = .ok s' ∧ s'.Sound base := by
  cases call with
  | newDStruct =>
    have empty : (DynamicRPC.newDStruct : DStruct HeapField).hashtable.bindings = [] := hashtableCreate_bindings
    have admitted : Block.admits .dstruct (.dstruct DynamicRPC.newDStruct []) := ⟨newDStruct_wf.table, by simp [empty]⟩
    exact ⟨_, rfl, sound.made admitted (by simp [Block.owned, empty]) trivial⟩
  | newDQueue =>
    have admitted : Block.admits .dqueue (.dqueue []) := trivial
    exact ⟨_, rfl, sound.made admitted rfl trivial⟩
  | newDArray startCapacity =>
    have cells (cell : Cell Nat) (member : cell ∈ (DynamicRPC.newDArray startCapacity : DArray Nat).lookupTable) :
        cell = .null := List.eq_of_mem_replicate member
    have admitted : Block.admits .darray (.darray (DynamicRPC.newDArray startCapacity)) := by
      refine ⟨fun member => ?_, fun member => ?_⟩
      · cases cells _ member
      · cases cells _ member
    refine ⟨_, rfl, sound.made admitted ?_ trivial⟩
    · rw [Block.owned, DArray.elements, List.map_eq_nil_iff, List.filterMap_eq_nil_iff]
      intro cell member
      rw [cells cell member]
      rfl
  | dStructSet p key native =>
    obtain ⟨⟨rest, same, reach⟩, d, heapKeys, content, probes⟩ := owed
    obtain ⟨m, ran, owns⟩ := dStructSet_owns (sound.owns.perm (.refl _) same) reach content probes
    exact ⟨_, by rw [Call.run, ran]; rfl, sound.stored same owns⟩
  | dStructGet p key type =>
    obtain ⟨reach, d, heapKeys, content, probes⟩ := owed
    obtain ⟨got, ran⟩ := dStructGet_returns sound.owns reach content probes type
    exact ⟨s, by rw [Call.run, ran]; rfl, sound⟩
  | dStructRemove p key =>
    obtain ⟨reach, d, heapKeys, content, probes⟩ := owed
    obtain ⟨m, ran, owns⟩ := dStructRemove_owns sound.owns reach content probes
    exact ⟨⟨m, s.roots⟩, by rw [Call.run, ran]; rfl, owns, sound.freed⟩
  | dStructUnlink p key =>
    obtain ⟨reach, d, heapKeys, content, probes⟩ := owed
    obtain ⟨m, unlinked, ran, owns⟩ := dStructUnlink_owns sound.owns reach content probes
    exact ⟨_, by rw [Call.run, ran]; rfl, sound.given owns⟩
  | dQueuePush p native =>
    obtain ⟨⟨rest, same, reach⟩, nonnull, que, content⟩ := owed
    obtain ⟨m, ran, owns⟩ := dQueuePush_owns (sound.owns.perm (.refl _) same) reach content nonnull
    exact ⟨_, by rw [Call.run, ran]; rfl, sound.stored same owns⟩
  | dQueuePop p wanted =>
    obtain ⟨reach, que, content⟩ := owed
    obtain ⟨m, popped, ran, owns⟩ := dQueuePopWith_owns wanted sound.owns reach content
    refine ⟨⟨m, ((popped.map Prod.fst).map HeapElement.handed).getD [] ++ s.roots⟩, ?_, sound.given ?_⟩
    · rw [Call.run, ran, Option.map_map]
      rfl
    · rw [Option.map_map]
      exact owns
  | dArraySet p index native =>
    obtain ⟨⟨rest, same, reach⟩, nonnull, a, content, within, unoccupied⟩ := owed
    obtain ⟨m, ran, owns⟩ := dArraySet_owns (sound.owns.perm (.refl _) same) reach content nonnull within unoccupied
    exact ⟨_, by rw [Call.run, ran]; rfl, sound.stored same owns⟩
  | dArrayGet p index type =>
    obtain ⟨reach, a, content⟩ := owed
    obtain ⟨got, ran⟩ := dArrayGet_returns sound.owns reach content index type
    exact ⟨s, by rw [Call.run, ran]; rfl, sound⟩
  | dArrayRemove p index =>
    obtain ⟨reach, a, content⟩ := owed
    obtain ⟨m, ran, owns⟩ := dArrayRemove_owns sound.owns reach content index
    exact ⟨⟨m, s.roots⟩, by rw [Call.run, ran]; rfl, owns, sound.freed⟩
  | dArrayUnlink p index =>
    obtain ⟨reach, a, content⟩ := owed
    obtain ⟨m, unlinked, ran, owns⟩ := dArrayUnlink_owns sound.owns reach content index
    exact ⟨_, by rw [Call.run, ran]; rfl, sound.given owns⟩
  | free p kind =>
    have same : s.roots.Perm ([(p, kind)] ++ s.roots.erase (p, kind)) := List.perm_cons_erase owed
    obtain ⟨m, ran, owns⟩ := (sound.owns.perm (.refl _) same).take.erase fun f holds apart small =>
      freeRoot_erases (sound.freed _ owed) holds apart small
    exact ⟨⟨m, s.roots.erase (p, kind)⟩, by rw [Call.run, ran]; rfl, owns,
      fun root member => sound.freed root (List.mem_of_mem_erase member)⟩

omit sound in
/-- What a program has stored goes away with where it is stored, and nothing else
does: freeing what is the program's, in any order, leaves the memory as it was. -/
theorem free_all {order : List (Nat × Kind)} (sound : s.Sound base) (all : order.Perm s.roots) :
    ∃ last, run Call.run s (order.map fun root => .free root.1 root.2) = .ok last ∧ last.memory.cells = base.cells := by
  induction order generalizing s with
  | nil =>
    have owns := sound.owns
    rw [all.symm.eq_nil] at owns
    exact ⟨s, rfl, owns.finish⟩
  | cons root order ih =>
    have owed : (Call.free root.1 root.2).Owed s := all.mem_iff.mp List.mem_cons_self
    obtain ⟨next, ran, sound⟩ := Call.run_sound sound owed
    obtain ⟨m, freed, same⟩ := bind_eq_ok.mp ran
    cases same
    obtain ⟨last, rest, cells⟩ := ih sound (List.cons_perm_iff_perm_erase.mp all).2
    exact ⟨last, by rw [List.map_cons, run_cons, ran, ok_bind, rest], cells⟩

end Calls

section Runs
variable {base : Memory Block}

theorem start_sound (base : Memory Block) : Program.Sound base ⟨base, []⟩ where
  owns := .start base
  freed := fun _ member => absurd member List.not_mem_nil

/-- In every run of calls that get what they are owed, no call touches a block
that is not there, and each block that is there since the start hangs from the
program's pointers by one path. What was stored in a container is freed with it,
unless it was unlinked or popped, which leaves it to the program. -/
theorem containers_own {calls : List Call} (owed : Along Call.run (fun s call => call.Owed s) ⟨base, []⟩ calls) :
    ∃ s, run Call.run ⟨base, []⟩ calls = .ok s ∧
      (∃ blocks, Holds s.memory none s.roots blocks ∧ blocks.Nodup ∧ ∀ a, a ∈ blocks ↔ s.memory.cells a ≠ base.cells a) ∧
      ∀ order : List (Nat × Kind), order.Perm s.roots →
        ∃ last, run Call.run s (order.map fun root => .free root.1 root.2) = .ok last ∧
          last.memory.cells = base.cells := by
  obtain ⟨s, ran, sound⟩ := run_along (fun s call sound owed => Call.run_sound sound owed) (start_sound base) owed
  exact ⟨s, ran, sound.owns.blocks, fun order all => free_all sound all⟩

theorem reaches_root {s : Program} (sound : s.Sound base) {taken rest : List (Nat × Kind)}
    (same : s.roots.Perm (taken ++ rest)) {p : Nat} {kind : Kind} (member : (p, kind) ∈ rest) : Reaches s.memory rest p := by
  obtain ⟨blocks, holds, -, -⟩ := sound.owns.blocks
  obtain ⟨-, below, -, rest_holds, -⟩ := (holds.perm same).of_append
  refine ⟨below, rest_holds, ?_⟩
  obtain ⟨before, after, rfl⟩ := List.append_of_mem member
  obtain ⟨-, later, -, later_holds, rfl⟩ := rest_holds.of_append
  obtain ⟨b, here, beside, -, -, -, -, rfl⟩ := holds_cons_inv later_holds
  simp

theorem probes_of_room {d : DStruct HeapField} (room : 0 < d.hashtable.nullCount) (key : CString) : Probes d key :=
  (hashtableFindSlot_returns_iff (List.length_pos_of_ne_nil fun empty => by
    rw [Hashtable.nullCount, empty] at room
    cases room) key).mpr (Or.inl room)

theorem along_next {s s' : Program} {call : Call} {calls : List Call} (sound : s.Sound base) (owed : call.Owed s)
    (next : call.run s = .ok s') (rest : s'.Sound base → Along Call.run (fun s call => call.Owed s) s' calls) :
    Along Call.run (fun s call => call.Owed s) s (call :: calls) := by
  obtain ⟨other, ran, sound'⟩ := Call.run_sound sound owed
  cases next.symm.trans ran
  refine ⟨owed, fun other again => ?_⟩
  cases next.symm.trans again
  exact rest sound'

/-- A queue that is stored in a struct, unlinked from it and outlives it. -/
theorem containers_own_unlinked :
    ∃ s, run Call.run ⟨.empty, []⟩ [.newDStruct, .newDQueue,
        .dStructSet 1 (.ofString "q") (.stored (.container .dQueue 2 rfl)), .dStructUnlink 1 (.ofString "q"),
        .free 1 .dstruct] = .ok s ∧
      (∃ blocks, Holds s.memory none s.roots blocks ∧ blocks.Nodup ∧
        ∀ a, a ∈ blocks ↔ s.memory.cells a ≠ Memory.empty.cells a) ∧
      ∀ order : List (Nat × Kind), order.Perm s.roots →
        ∃ last, run Call.run s (order.map fun root => .free root.1 root.2) = .ok last ∧
          last.memory.cells = Memory.empty.cells := by
  apply containers_own
  refine along_next (start_sound .empty) trivial rfl fun sound => ?_
  refine along_next sound trivial rfl fun sound => ?_
  have owner := @reaches_root _ _ sound [(2, .dqueue)] [(1, .dstruct)] (.refl _) 1 .dstruct List.mem_cons_self
  refine along_next sound ⟨⟨_, .refl _, owner⟩, _, _, rfl, probes_of_room (by decide) _⟩ rfl fun sound => ?_
  have owner := @reaches_root _ _ sound [] [(1, .dstruct)] (.refl _) 1 .dstruct List.mem_cons_self
  refine along_next sound ⟨owner, _, _, rfl, probes_of_room (by decide) _⟩ rfl fun sound => ?_
  exact along_next sound (List.mem_cons_of_mem (2, Kind.dqueue) List.mem_cons_self) rfl fun _ => trivial

end Runs
end DynamicRPC.Heap
