import DynamicRPC.ContainerHeap
import DynamicRPC.Library.OwnedHeap

namespace DynamicRPC.Heap
open Outcome Ownership

/-- What the owner of a block relies on. -/
inductive Kind
  | key (s : CString)
  | string
  | bytes
  | packedData (type : DrpcTypes)
  | record (type : DrpcTypes)
  | element
  | dstruct
  | dqueue
  | darray
  deriving DecidableEq

/-- What is behind the `data` of an element that is not packed. -/
def pointerKind : DrpcTypes → Option Kind
  | .dStr => some .string
  | .dSizedbuf => some .bytes
  | .dStruct => some .dstruct
  | .dQueue => some .dqueue
  | .dArray => some .darray
  | _ => none

/-- The block at `data`, which is freed with the element. -/
def HeapElement.owned (e : HeapElement) : List (Nat × Kind) :=
  if e.isPacked then [(e.data, .record e.type)] else ((pointerKind e.type).map (Prod.mk e.data)).toList

/-- A packed element is a scalar. -/
def HeapElement.Ok (e : HeapElement) : Prop := e.isPacked = e.type.scalarWidth.isSome

def Block.admits : Kind → Block → Prop
  | .key s, .string t => s = t
  | .string, .string _ => True
  | .bytes, .bytes _ => True
  | .packedData type, .bytes block => type.scalarWidth = some block.length
  | .record type, .drpcType type' _ => type = type'
  | .element, .element e => e.Ok
  | .dstruct, .dstruct d heapKeys =>
    d.hashtable.Wf ∧ ∀ binding ∈ d.hashtable.bindings, (binding.2.key, binding.1) ∈ heapKeys
  | .dqueue, .dqueue _ => True
  | .darray, .darray a => .uninit ∉ a.lookupTable ∧ .dangling ∉ a.lookupTable
  | _, _ => False

def deedOfKey (heapKey : Nat × CString) : Nat × Kind := (heapKey.1, .key heapKey.2)

def deedOfField (binding : CString × HeapField) : Nat × Kind := (binding.2.element, .element)

def deedOfElement (element : Nat) : Nat × Kind := (element, .element)

def Block.owned : Block → List (Nat × Kind)
  | .drpcType type packedData => [(packedData, .packedData type)]
  | .element e => e.owned
  | .dstruct d heapKeys => d.hashtable.bindings.map deedOfField ++ heapKeys.map deedOfKey
  | .dqueue que => que.map deedOfElement
  | .darray a => a.elements.map deedOfElement
  | _ => []

instance : Ownership Kind Block where
  admits := Block.admits
  owned := Block.owned

section Inversion
variable {m m' : Memory Block} {b : Block} {ps : List (Nat × Kind)} {f : Multiset Nat} {p : Nat} {k : Kind}

theorem holds_cons_inv (holds : Holds m none ((p, k) :: ps) f) :
    ∃ b below beside, m.cells p = some b ∧ Block.admits k b ∧ Holds m none b.owned below ∧ Holds m none ps beside ∧
      f = p ::ₘ (below + beside) := by
  cases holds with
  | block elsewhere content admitted owns others => exact ⟨_, _, _, content, admitted, owns, others, rfl⟩
  | hole here => cases here

theorem holds_inv (holds : Holds m none [(p, k)] f) :
    ∃ b below, m.cells p = some b ∧ Block.admits k b ∧ Holds m none b.owned below ∧ f = p ::ₘ below := by
  obtain ⟨b, below, beside, content, admitted, owns, others, rfl⟩ := holds_cons_inv holds
  cases others
  exact ⟨b, below, content, admitted, owns, by rw [add_zero]⟩

theorem admits_key {s : CString} (admitted : Block.admits (.key s) b) : b = .string s := by
  cases b <;> cases admitted
  rfl

theorem admits_string (admitted : Block.admits .string b) : ∃ s, b = .string s := by
  cases b <;> first | exact ⟨_, rfl⟩ | cases admitted

theorem admits_bytes (admitted : Block.admits .bytes b) : ∃ block, b = .bytes block := by
  cases b <;> first | exact ⟨_, rfl⟩ | cases admitted

theorem admits_packedData {type : DrpcTypes} (admitted : Block.admits (.packedData type) b) :
    ∃ block, b = .bytes block ∧ type.scalarWidth = some block.length := by
  cases b <;> first | exact ⟨_, rfl, admitted⟩ | cases admitted

theorem admits_record {type : DrpcTypes} (admitted : Block.admits (.record type) b) :
    ∃ packedData, b = .drpcType type packedData := by
  cases b <;> cases admitted
  exact ⟨_, rfl⟩

theorem admits_element (admitted : Block.admits .element b) : ∃ e, b = .element e ∧ e.Ok := by
  cases b <;> first | exact ⟨_, rfl, admitted⟩ | cases admitted

theorem admits_dstruct (admitted : Block.admits .dstruct b) : ∃ d heapKeys, b = .dstruct d heapKeys ∧ d.hashtable.Wf ∧
    ∀ binding ∈ d.hashtable.bindings, (binding.2.key, binding.1) ∈ heapKeys := by
  cases b <;> first | exact ⟨_, _, rfl, admitted⟩ | cases admitted

theorem admits_dqueue (admitted : Block.admits .dqueue b) : ∃ que, b = .dqueue que := by
  cases b <;> first | exact ⟨_, rfl⟩ | cases admitted

theorem admits_darray (admitted : Block.admits .darray b) :
    ∃ a, b = .darray a ∧ .uninit ∉ a.lookupTable ∧ .dangling ∉ a.lookupTable := by
  cases b <;> first | exact ⟨_, rfl, admitted⟩ | cases admitted

end Inversion

section Free
variable {m : Memory Block} {f : Multiset Nat} {p bound : Nat} {free : DrpcTypes → Memory Block → Nat → Outcome (Memory Block)}

/-- `free` tears down every container that hangs together from at most `bound` blocks. -/
def Frees (bound : Nat) (free : DrpcTypes → Memory Block → Nat → Outcome (Memory Block)) : Prop :=
  ∀ type k, type.isNested = true → pointerKind type = some k → ∀ m p f, Holds m none [(p, k)] f → f.Nodup →
    f.card ≤ bound → ∃ m', free type m p = .ok m' ∧ Erases f m m'

/-- A block that owns nothing is freed by `free` alone. -/
theorem holds_free {k : Kind} (holds : Holds m none [(p, k)] f)
    (alone : ∀ b, Block.admits k b → b.owned = []) : ∃ m', m.free p = .ok m' ∧ Erases f m m' := by
  obtain ⟨b, below, content, admitted, owns, rfl⟩ := holds_inv holds
  rw [alone b admitted] at owns
  cases owns
  exact free_erases (by rw [content]; rfl)

theorem owned_key {s : CString} {b : Block} (admitted : Block.admits (.key s) b) : b.owned = [] := by
  rw [admits_key admitted]
  rfl

theorem owned_string {b : Block} (admitted : Block.admits .string b) : b.owned = [] := by
  obtain ⟨s, rfl⟩ := admits_string admitted
  rfl

theorem owned_bytes {b : Block} (admitted : Block.admits .bytes b) : b.owned = [] := by
  obtain ⟨block, rfl⟩ := admits_bytes admitted
  rfl

theorem owned_packedData {type : DrpcTypes} {b : Block} (admitted : Block.admits (.packedData type) b) :
    b.owned = [] := by
  obtain ⟨block, rfl, -⟩ := admits_packedData admitted
  rfl

/-- `drpc_type_free` and the `free` of the record after it. -/
theorem drpcTypeFree_erases {type : DrpcTypes} (holds : Holds m none [(p, .record type)] f) (apart : f.Nodup) :
    ∃ m', (do let m ← drpcTypeFree m p; m.free p) = .ok m' ∧ Erases f m m' := by
  obtain ⟨b, below, content, admitted, owns, rfl⟩ := holds_inv holds
  obtain ⟨data, rfl⟩ := admits_record admitted
  obtain ⟨middle, freed, erases⟩ := holds_free owns fun b => owned_packedData
  obtain ⟨fresh, -⟩ := Multiset.nodup_cons.mp apart
  have live : (middle.cells p).isSome := by
    rw [erases.kept p fresh, content]
    rfl
  obtain ⟨last, freed', erases'⟩ := free_erases live
  refine ⟨last, ?_, ?_⟩
  · rw [drpcTypeFree, readRecord_eq content]
    simp only [ok_bind, freed]
    exact freed'
  · rw [← Multiset.singleton_add, add_comm]
    exact erases.trans erases'

theorem elementRelease_erases (frees : Frees bound free) {e : HeapElement} (ok : e.Ok) (holds : Holds m none e.owned f)
    (apart : f.Nodup) (small : f.card ≤ bound) : ∃ m', elementRelease free m e = .ok m' ∧ Erases f m m' := by
  obtain ⟨data, isPacked, type⟩ := e
  cases isPacked with
  | true => exact drpcTypeFree_erases holds apart
  | false =>
    cases type with
    | dStr => exact holds_free holds fun b => owned_string
    | dSizedbuf => exact holds_free holds fun b => owned_bytes
    | dStruct => exact frees .dStruct _ rfl rfl m data f holds apart small
    | dQueue => exact frees .dQueue _ rfl rfl m data f holds apart small
    | dArray => exact frees .dArray _ rfl rfl m data f holds apart small
    | _ =>
      cases holds
      exact ⟨m, rfl, .refl m⟩

theorem elementFree_erases (frees : Frees bound free) (holds : Holds m none [deedOfElement p] f) (apart : f.Nodup)
    (small : f.card ≤ bound) : ∃ m', elementFree free m p = .ok m' ∧ Erases f m m' := by
  obtain ⟨b, below, content, admitted, owns, rfl⟩ := holds_inv holds
  obtain ⟨e, rfl, ok⟩ := admits_element admitted
  obtain ⟨fresh, apart⟩ := Multiset.nodup_cons.mp apart
  rw [Multiset.card_cons] at small
  obtain ⟨middle, released, erases⟩ := elementRelease_erases frees ok owns apart (by omega)
  have live : (middle.cells p).isSome := by
    rw [erases.kept p fresh, content]
    rfl
  obtain ⟨last, freed, erases'⟩ := free_erases live
  refine ⟨last, ?_, ?_⟩
  · rw [elementFree, readElement_eq content, ok_bind, released, ok_bind, freed]
  · rw [← Multiset.singleton_add, add_comm]
    exact erases.trans erases'

/-- A container that is freed after what it owns. -/
theorem container_erases {below : Multiset Nat} {b : Block} {inner : Outcome (Memory Block)}
    (content : m.cells p = some b) (fresh : p ∉ below) (owned : ∃ m', inner = .ok m' ∧ Erases below m m') :
    ∃ m', (do let m ← inner; m.free p) = .ok m' ∧ Erases (p ::ₘ below) m m' := by
  obtain ⟨middle, ran, erases⟩ := owned
  have live : (middle.cells p).isSome := by
    rw [erases.kept p fresh, content]
    rfl
  obtain ⟨last, freed, erases'⟩ := free_erases live
  refine ⟨last, by rw [ran, ok_bind, freed], ?_⟩
  rw [← Multiset.singleton_add, add_comm]
  exact erases.trans erases'

theorem dStructFreeWith_erases (frees : Frees bound free) (holds : Holds m none [(p, .dstruct)] f) (apart : f.Nodup)
    (small : f.card ≤ bound + 1) : ∃ m', dStructFreeWith free m p = .ok m' ∧ Erases f m m' := by
  obtain ⟨b, below, content, admitted, owns, rfl⟩ := holds_inv holds
  obtain ⟨d, heapKeys, rfl, -⟩ := admits_dstruct admitted
  obtain ⟨fields, keys, fields_hold, keys_hold, rfl⟩ := owns.of_append
  obtain ⟨fresh, apart⟩ := Multiset.nodup_cons.mp apart
  obtain ⟨apart_fields, apart_keys, disjoint⟩ := Multiset.nodup_add.mp apart
  rw [Multiset.card_cons, Multiset.card_add] at small
  have each_field (binding : CString × HeapField) (m : Memory Block) (f : Multiset Nat)
      (holds : Holds m none [deedOfField binding] f) (apart : f.Nodup) (small : f.card ≤ bound) :=
    elementFree_erases frees holds apart small
  have each_key (heapKey : Nat × CString) (m : Memory Block) (f : Multiset Nat)
      (holds : Holds m none [deedOfKey heapKey] f) (_ : f.Nodup) (_ : f.card ≤ keys.card) :=
    holds_free holds fun b => owned_key
  have both : ∃ m', (do
      let m ← d.hashtable.bindings.foldlM (fun m (binding : CString × HeapField) => elementFree free m binding.2.element) m
      heapKeys.foldlM (fun (m : Memory Block) (heapKey : Nat × CString) => m.free heapKey.1) m) = .ok m' ∧
      Erases (fields + keys) m m' := by
    obtain ⟨middle, ran, erases⟩ := fields_hold.dispose_all (fun binding _ => each_field binding) apart_fields (by omega)
    obtain ⟨last, freed, erases'⟩ := (keys_hold.erase erases disjoint.symm).dispose_all
      (fun heapKey _ => each_key heapKey) apart_keys (Nat.le_refl _)
    exact ⟨last, by rw [ran, ok_bind]; exact freed, erases.trans erases'⟩
  obtain ⟨last, ran, erases⟩ := container_erases content fresh both
  refine ⟨last, ?_, erases⟩
  rw [dStructFreeWith, if_neg (Memory.ne_zero_of_live content), readStruct_eq content]
  simpa only [ok_bind, bind_assoc] using ran

theorem dQueueFreeWith_erases (frees : Frees bound free) (holds : Holds m none [(p, .dqueue)] f) (apart : f.Nodup)
    (small : f.card ≤ bound + 1) : ∃ m', dQueueFreeWith free m p = .ok m' ∧ Erases f m m' := by
  obtain ⟨b, below, content, admitted, owns, rfl⟩ := holds_inv holds
  obtain ⟨que, rfl⟩ := admits_dqueue admitted
  obtain ⟨fresh, apart⟩ := Multiset.nodup_cons.mp apart
  rw [Multiset.card_cons] at small
  have each (element : Nat) (m : Memory Block) (f : Multiset Nat) (holds : Holds m none [deedOfElement element] f)
      (apart : f.Nodup) (small : f.card ≤ bound) :=
    elementFree_erases frees holds apart small
  have all : ∃ m', que.foldlM (elementFree free) m = .ok m' ∧ Erases below m m' :=
    owns.dispose_all (fun element _ => each element) apart (by omega)
  obtain ⟨last, ran, erases⟩ := container_erases content fresh all
  refine ⟨last, ?_, erases⟩
  rw [dQueueFreeWith, if_neg (Memory.ne_zero_of_live content), readQueue_eq content, ok_bind, ran]

/-- The loop of `d_array_free_internal`, from some index on. -/
theorem dArrayFree_loop (frees : Frees bound free) {a : DArray Nat} {index count : Nat}
    (content : m.cells p = some (.darray a)) (long : index + count = a.lookupSize) (initialised : .uninit ∉ a.lookupTable)
    (live : .dangling ∉ a.lookupTable)
    (holds : Holds m none (((a.lookupTable.drop index).filterMap Cell.element).map deedOfElement) f) (apart : f.Nodup)
    (fresh : p ∉ f) (small : f.card ≤ bound) :
    ∃ m', (List.range' index count).foldlM (fun m i => dArrayRemoveWith free m p i) m = .ok m' ∧ (m'.cells p).isSome ∧
      m'.next = m.next ∧ (∀ a ∈ f, m'.cells a = none) ∧ ∀ a ∉ f, a ≠ p → m'.cells a = m.cells a := by
  induction count generalizing m f a index with
  | zero =>
    rw [List.drop_eq_nil_of_le (by rw [← DArray.lookupSize]; omega)] at holds
    cases holds
    exact ⟨m, rfl, by rw [content]; rfl, rfl, by simp, fun _ _ _ => rfl⟩
  | succ count ih =>
    have within : index < a.lookupTable.length := by rw [← DArray.lookupSize]; omega
    have at_index : a.lookupTable[index]? = some a.lookupTable[index] := List.getElem?_eq_getElem within
    have member : a.lookupTable[index] ∈ a.lookupTable := List.getElem_mem within
    have read := readArray_eq content
    rw [List.drop_eq_getElem_cons within] at holds
    rw [List.range'_succ, List.foldlM_cons]
    cases cell : a.lookupTable[index] with
    | uninit => exact absurd (cell ▸ member) initialised
    | dangling => exact absurd (cell ▸ member) live
    | null =>
      rw [cell] at holds
      have skipped : dArrayRemoveWith free m p index = .ok m := by
        rw [dArrayRemoveWith, read, ok_bind, dArrayGetInternal, at_index, cell]
        rfl
      rw [skipped, ok_bind]
      exact ih content (by omega) initialised live holds apart fresh small
    | elem element =>
      rw [cell] at holds
      change Holds m none (deedOfElement element :: ((a.lookupTable.drop (index + 1)).filterMap Cell.element).map deedOfElement) f
        at holds
      obtain ⟨here, rest, here_holds, rest_holds, rfl⟩ := holds.of_cons
      rw [Multiset.mem_add, not_or] at fresh
      obtain ⟨apart_here, apart_rest, disjoint⟩ := Multiset.nodup_add.mp apart
      rw [Multiset.card_add] at small
      have found : dArrayGetInternal a index = .ok (some element) := by
        rw [dArrayGetInternal, at_index, cell]
        rfl
      have del : dArrayDelInternal a index = .ok ⟨a.realSize - 1, a.lookupTable.set index .null⟩ := by
        rw [dArrayDelInternal, found]
        rfl
      obtain ⟨written, wrote, cells, next⟩ : ∃ written, m.write p (.darray ⟨a.realSize - 1, a.lookupTable.set index .null⟩) =
          .ok written ∧ written.cells = Function.update m.cells p (some (.darray ⟨a.realSize - 1, a.lookupTable.set index .null⟩)) ∧
          written.next = m.next := by
        have isLive : (m.cells p).isSome := by rw [content]; rfl
        exact ⟨m.replace p _ isLive, by rw [Memory.write, dif_pos isLive]; rfl, rfl, rfl⟩
      have kept {g : Multiset Nat} (out : p ∉ g) (a : Nat) (member : a ∈ g) : written.cells a = m.cells a := by
        rw [cells, Function.update_of_ne]
        rintro rfl
        exact out member
      obtain ⟨freed, ran, erases⟩ := elementFree_erases frees (here_holds.frame (kept fresh.1)) apart_here (by omega)
      have content' : freed.cells p = some (.darray ⟨a.realSize - 1, a.lookupTable.set index .null⟩) := by
        rw [erases.kept p fresh.1, cells, Function.update_self]
      obtain ⟨last, loop, live_last, next_last, gone, same⟩ := @ih _ _ _ (index + 1) content'
        (by rw [DArray.lookupSize, List.length_set, ← DArray.lookupSize]; omega)
        (fun other => (List.mem_or_eq_of_mem_set other).elim initialised (fun same => by cases same))
        (fun other => (List.mem_or_eq_of_mem_set other).elim live (fun same => by cases same))
        (by
          rw [List.drop_set_of_lt (Nat.lt_succ_self index)]
          exact (rest_holds.frame (kept fresh.2)).erase erases disjoint.symm)
        apart_rest fresh.2 (by omega)
      refine ⟨last, ?_, live_last, by rw [next_last, erases.next, next], fun a member => ?_, fun a out other => ?_⟩
      · have removed : dArrayRemoveWith free m p index = .ok freed := by
          rw [dArrayRemoveWith, read, ok_bind, found]
          simp only [ok_bind, del, wrote, ran]
        rw [removed, ok_bind, loop]
      · by_cases later : a ∈ rest
        · exact gone a later
        · have first := (Multiset.mem_add.mp member).resolve_right later
          rw [same a later fun here => fresh.1 (here ▸ first), erases.erased a first]
      · rw [Multiset.mem_add, not_or] at out
        rw [same a out.2 other, erases.kept a out.1, cells, Function.update_of_ne other]

theorem dArrayFreeWith_erases (frees : Frees bound free) (holds : Holds m none [(p, .darray)] f) (apart : f.Nodup)
    (small : f.card ≤ bound + 1) : ∃ m', dArrayFreeWith free m p = .ok m' ∧ Erases f m m' := by
  obtain ⟨b, below, content, admitted, owns, rfl⟩ := holds_inv holds
  obtain ⟨a, rfl, initialised, live⟩ := admits_darray admitted
  obtain ⟨fresh, apart⟩ := Multiset.nodup_cons.mp apart
  rw [Multiset.card_cons] at small
  obtain ⟨middle, ran, isLive, next, gone, same⟩ := @dArrayFree_loop m below p bound free frees a 0 a.lookupSize content
    (Nat.zero_add _) initialised live owns apart fresh (by omega)
  obtain ⟨last, freed, erases⟩ := free_erases isLive
  refine ⟨last, ?_, erases.next.trans next, fun a member => ?_, fun a out => ?_⟩
  · rw [dArrayFreeWith, readArray_eq content, ok_bind, List.range_eq_range', ran, ok_bind, freed]
  · by_cases here : a = p
    · exact erases.erased a (Multiset.mem_singleton.mpr here)
    · rw [erases.kept a (by simpa using here)]
      exact gone a ((Multiset.mem_cons.mp member).resolve_left here)
  · rw [Multiset.mem_cons, not_or] at out
    rw [erases.kept a (by simpa using out.1), same a out.2 out.1]

/-- Containers are freed at a depth of as many calls as they have blocks. -/
theorem containerFree_frees (depth : Nat) : Frees depth (containerFree depth) := by
  induction depth with
  | zero =>
    intro type k _ _ m p f holds _ small
    obtain ⟨b, below, -, -, -, rfl⟩ := holds_inv holds
    rw [Multiset.card_cons] at small
    omega
  | succ depth ih =>
    intro type k isNested kind m p f holds apart small
    cases type <;> cases isNested <;> cases kind
    · exact dArrayFreeWith_erases ih holds apart small
    · exact dStructFreeWith_erases ih holds apart small
    · exact dQueueFreeWith_erases ih holds apart small

end Free
end DynamicRPC.Heap
