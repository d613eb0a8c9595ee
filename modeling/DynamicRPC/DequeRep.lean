import DynamicRPC.Deque

namespace DynamicRPC
open Outcome Paged
variable {α : Type} {B : Nat} {base heap heap' : Memory (DequeBlock α)} {me me' : InternalDeque} {items : List α}

namespace InternalDeque

/-- The pointer in an entry of the block table. -/
def page (me : InternalDeque) (index : Nat) : Option Nat := (me.data[index]?).join

/-- The number of blocks that the deque has. -/
def allocated (me : InternalDeque) : Nat := me.allocBlockEnd + 1 - me.allocBlockStart

/-- One of its blocks is at this address. -/
def Points (me : InternalDeque) (address : Nat) : Prop :=
  ∃ i, me.allocBlockStart ≤ i ∧ i ≤ me.allocBlockEnd ∧ me.page i = some address

/-- One of `count` entries from `i` on points to this address. -/
def PointsIn (me : InternalDeque) (i count address : Nat) : Prop :=
  ∃ j, i ≤ j ∧ j < i + count ∧ me.page j = some address

end InternalDeque

/-- What the indices of a deque with blocks of `B` elements keep to. -/
structure DequeShape (B : Nat) (me : InternalDeque) : Prop where
  blockSize : me.blockSize = B
  positive : 0 < B
  small : B ≤ 4096
  within : me.blockCount * B < 2 ^ 64
  table : me.data.length = me.blockCount
  ordered : me.allocBlockStart ≤ me.allocBlockEnd
  bounded : me.allocBlockEnd < me.blockCount
  lower : me.allocBlockStart * B ≤ me.startIndex
  upper : me.endIndex ≤ (me.allocBlockEnd + 1) * B

/-- The deque holds the items, in blocks that were made after `base`; the rest of
the memory is that of `base`. -/
structure DequeRep (B : Nat) (base : Memory (DequeBlock α)) (me : InternalDeque) (heap : Memory (DequeBlock α))
    (items : List α) : Prop where
  shape : DequeShape B me
  span : me.endIndex = me.startIndex + items.length
  owned : Owned B me.page heap.cells me.allocBlockStart me.allocBlockEnd
  holds : Holds (cellAt B me.page heap.cells) me.startIndex items
  newer : base.next ≤ heap.next
  fresh : ∀ address, me.Points address → base.cells address = none
  frame : ∀ address, ¬ me.Points address → heap.cells address = base.cells address

section Table
variable {i j block : Nat}

theorem InternalDeque.load_of_page (entry : me.page i = some block) : me.load i = .ok block := by
  have found : me.data[i]? = some (some block) := Option.join_eq_some_iff.mp entry
  unfold InternalDeque.load
  rw [found]
  rfl

theorem InternalDeque.page_set {data : List (Option Nat)} (inside : i < data.length)
    (set : me.data = data.set i (some block)) : me.page i = some block := by
  rw [InternalDeque.page, set, List.getElem?_set_self inside]
  rfl

theorem InternalDeque.page_set_ne (set : me'.data = me.data.set i (some block)) (other : j ≠ i) :
    me'.page j = me.page j := by
  rw [InternalDeque.page, set, List.getElem?_set_ne (Ne.symm other), ← InternalDeque.page]

theorem InternalDeque.store_eq (inside : i < me.data.length) :
    me.store i block = .ok { me with data := me.data.set i (some block) } := by
  unfold InternalDeque.store
  rw [if_pos inside]
  rfl

/-- The entries that `memmove` has moved. -/
theorem InternalDeque.memmove_spec {target source count : Nat} (read : source + count ≤ me.data.length)
    (write : target + count ≤ me.data.length) :
    ∃ data, me.memmove target source count = .ok { me with data := data } ∧ data.length = me.data.length ∧
      ∀ k < count, data[target + k]? = me.data[source + k]? := by
  refine ⟨_, if_pos ⟨read, write⟩, ?_, ?_⟩
  · simp only [List.length_append, List.length_take, List.length_drop]
    omega
  · intro k within
    have front : (me.data.take target).length = target := by
      rw [List.length_take]
      omega
    have middle : ((me.data.drop source).take count).length = count := by
      rw [List.length_take, List.length_drop]
      omega
    rw [List.append_assoc, List.getElem?_append_right (by omega), front,
      List.getElem?_append_left (by omega), show target + k - target = k by omega, List.getElem?_take_of_lt within,
      List.getElem?_drop]

theorem InternalDeque.realloc_length {count : Nat} (grows : me.data.length ≤ count) :
    (me.realloc count).data.length = count := by
  simp only [InternalDeque.realloc, List.length_append, List.length_replicate]
  omega

theorem InternalDeque.realloc_entry {count : Nat} (inside : i < me.data.length) :
    (me.realloc count).data[i]? = me.data[i]? := by
  simp only [InternalDeque.realloc]
  rw [List.getElem?_append_left inside]

end Table

namespace DequeShape
variable (shape : DequeShape B me)
include shape

theorem indexed : me.data.length = me.blockCount := shape.table

theorem blocks_le : (me.allocBlockEnd + 1) * B ≤ me.blockCount * B :=
  Nat.mul_le_mul_right B shape.bounded

theorem end_le : me.endIndex ≤ me.blockCount * B := Nat.le_trans shape.upper shape.blocks_le

end DequeShape

/-- Blocks that have been moved in the table, or whose order has changed where
no item lies, hold the same items. -/
theorem DequeRep.moved (rep : DequeRep B base me heap items) (shape : DequeShape B me')
    (span : me'.endIndex = me'.startIndex + items.length) (source : Nat → Nat)
    (entries : ∀ j, me'.allocBlockStart ≤ j → j ≤ me'.allocBlockEnd →
      me.allocBlockStart ≤ source j ∧ source j ≤ me.allocBlockEnd ∧ me'.page j = me.page (source j))
    (injective : ∀ j k, me'.allocBlockStart ≤ j → j ≤ me'.allocBlockEnd → me'.allocBlockStart ≤ k →
      k ≤ me'.allocBlockEnd → source j = source k → j = k)
    (onto : ∀ i, me.allocBlockStart ≤ i → i ≤ me.allocBlockEnd →
      ∃ j, me'.allocBlockStart ≤ j ∧ j ≤ me'.allocBlockEnd ∧ source j = i)
    (cells : ∀ k < items.length, cellAt B me'.page heap.cells (me'.startIndex + k) =
      cellAt B me.page heap.cells (me.startIndex + k)) :
    DequeRep B base me' heap items := by
  have points : ∀ address, me'.Points address ↔ me.Points address := by
    intro address
    constructor
    · rintro ⟨j, lower, upper, entry⟩
      obtain ⟨above, below, same⟩ := entries j lower upper
      exact ⟨source j, above, below, by rw [← same, entry]⟩
    · rintro ⟨i, lower, upper, entry⟩
      obtain ⟨j, above, below, rfl⟩ := onto i lower upper
      exact ⟨j, above, below, by rw [(entries j above below).2.2, entry]⟩
  exact {
    shape
    span
    owned := rep.owned.moved source entries injective
    holds := rep.holds.moved cells
    newer := rep.newer
    fresh := fun address held => rep.fresh address ((points address).mp held)
    frame := fun address free => rep.frame address (fun held => free ((points address).mpr held)) }

/-- A new block behind one more entry of the table. -/
theorem DequeRep.grown (rep : DequeRep B base me heap items) (shape : DequeShape B me')
    (start : me'.startIndex = me.startIndex) (ends : me'.endIndex = me.endIndex) {k : Nat}
    (entry : me'.page k = some heap.next) (others : ∀ j, j ≠ k → me'.page j = me.page j)
    (range : ∀ j, me'.allocBlockStart ≤ j ∧ j ≤ me'.allocBlockEnd ↔
      j = k ∨ me.allocBlockStart ≤ j ∧ j ≤ me.allocBlockEnd)
    (outside : ¬ (me.allocBlockStart ≤ k ∧ k ≤ me.allocBlockEnd)) :
    DequeRep B base me' (mallocBlock heap B).2 items := by
  have unused : heap.cells heap.next = none := heap.unused _ (Nat.le_refl _)
  have object : (mallocBlock heap B).2.cells heap.next = some (List.replicate B none) := Function.update_self ..
  have elsewhere : ∀ address, address ≠ heap.next → (mallocBlock heap B).2.cells address = heap.cells address :=
    fun address other => Function.update_of_ne other ..
  have apart : ∀ address, me.Points address → address ≠ heap.next := by
    rintro address ⟨i, lower, upper, held⟩ rfl
    obtain ⟨p, block, points, live, -⟩ := rep.owned.live i lower upper
    rw [held] at points
    cases points
    rw [unused] at live
    cases live
  have points : ∀ address, me'.Points address ↔ address = heap.next ∨ me.Points address := by
    intro address
    constructor
    · rintro ⟨j, lower, upper, held⟩
      by_cases here : j = k
      · subst here
        rw [entry] at held
        exact .inl (Option.some.inj held).symm
      · have old := ((range j).mp ⟨lower, upper⟩).resolve_left here
        exact .inr ⟨j, old.1, old.2, by rw [← others j here, held]⟩
    · rintro (rfl | ⟨i, lower, upper, held⟩)
      · obtain ⟨above, below⟩ := (range k).mpr (.inl rfl)
        exact ⟨k, above, below, entry⟩
      · have other : i ≠ k := by
          rintro rfl
          exact outside ⟨lower, upper⟩
        obtain ⟨above, below⟩ := (range i).mpr (.inr ⟨lower, upper⟩)
        exact ⟨i, above, below, by rw [others i other, held]⟩
  refine {
    shape
    span := by rw [start, ends, rep.span]
    owned := rep.owned.fresh unused object (List.length_replicate ..) elsewhere entry ?_
    holds := ?_
    newer := Nat.le_trans rep.newer (Nat.le_succ _)
    fresh := ?_
    frame := ?_ }
  · intro j lower upper other
    obtain ⟨above, below⟩ := ((range j).mp ⟨lower, upper⟩).resolve_left other
    exact ⟨above, below, others j other⟩
  · refine rep.holds.moved fun n within => ?_
    rw [start]
    have first := rep.shape.lower
    have last := rep.shape.upper
    have span := rep.span
    have above : me.allocBlockStart ≤ (me.startIndex + n) / B :=
      (Nat.le_div_iff_mul_le rep.shape.positive).mpr (by omega)
    have below : (me.startIndex + n) / B < me.allocBlockEnd + 1 :=
      (Nat.div_lt_iff_lt_mul rep.shape.positive).mpr (by omega)
    have other : (me.startIndex + n) / B ≠ k := by
      rintro rfl
      exact outside ⟨above, by omega⟩
    rw [cellAt_congr (others _ other)]
    refine cellAt_elsewhere (fun held => ?_) elsewhere
    exact apart heap.next ⟨_, above, by omega, held⟩ rfl
  · intro address held
    rcases (points address).mp held with rfl | old
    · exact base.unused _ rep.newer
    · exact rep.fresh address old
  · intro address free
    have other : address ≠ heap.next := fun same => free ((points address).mpr (.inl same))
    rw [elsewhere address other]
    exact rep.frame address fun old => free ((points address).mpr (.inr old))

section Access
variable (rep : DequeRep B base me heap items) {i : Nat} (lower : me.allocBlockStart ≤ i / B)
  (upper : i / B ≤ me.allocBlockEnd)
include rep lower upper

/-- An element is copied into its cell, and no other cell changes. -/
theorem DequeRep.writeElement (data : α) :
    ∃ heap', me.writeElement heap i data = .ok heap' ∧ heap'.next = heap.next ∧
      Owned B me.page heap'.cells me.allocBlockStart me.allocBlockEnd ∧
      (∀ address, ¬ me.Points address → heap'.cells address = heap.cells address) ∧
      cellAt B me.page heap'.cells i = some data ∧
      ∀ j, me.allocBlockStart ≤ j / B → j / B ≤ me.allocBlockEnd → j ≠ i →
        cellAt B me.page heap'.cells j = cellAt B me.page heap.cells j := by
  obtain ⟨p, block, entry, live, length⟩ := rep.owned.live _ lower upper
  have inside : i % B < block.length := by
    rw [length]
    exact Nat.mod_lt i rep.shape.positive
  have present : (heap.cells p).isSome := by rw [live]; rfl
  refine ⟨heap.replace p (some (block.set (i % B) (some data))) present, ?_, rfl, ?_⟩
  · unfold InternalDeque.writeElement
    rw [rep.shape.blockSize, InternalDeque.load_of_page entry, ok_bind, Memory.read_eq_ok.mpr live, ok_bind,
      if_pos inside, Memory.write, dif_pos present]
    rfl
  · have written : (heap.replace p (some (block.set (i % B) (some data))) present).cells p =
        some (block.set (i % B) (some data)) := Function.update_self ..
    have frame : ∀ q, q ≠ p →
        (heap.replace p (some (block.set (i % B) (some data))) present).cells q = heap.cells q :=
      fun q other => Function.update_of_ne other ..
    refine ⟨rep.owned.write live written frame, fun address free => frame address ?_,
      rep.owned.cellAt_written entry live written rep.shape.positive lower upper, fun j lower' upper' other =>
        rep.owned.cellAt_unwritten entry live written frame lower upper lower' upper' other⟩
    rintro rfl
    exact free ⟨_, lower, upper, entry⟩

/-- An element that is there can be copied out of its cell. -/
theorem DequeRep.readElement {data : α} (there : cellAt B me.page heap.cells i = some data) :
    me.readElement heap i = .ok data := by
  obtain ⟨p, block, entry, live, length⟩ := rep.owned.live _ lower upper
  rw [cellAt_eq entry live] at there
  have found : block[i % B]? = some (some data) := Option.join_eq_some_iff.mp there
  unfold InternalDeque.readElement
  rw [rep.shape.blockSize, InternalDeque.load_of_page entry, ok_bind, Memory.read_eq_ok.mpr live, ok_bind, found]
  rfl

end Access

end DynamicRPC
