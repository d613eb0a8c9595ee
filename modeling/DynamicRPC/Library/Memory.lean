import DynamicRPC.Library.Outcome
import Mathlib.Logic.Function.Basic

/-! Memory as a partial map from addresses to objects, with an allocator that
never hands out an address a second time. Address 0 is the null pointer. -/

structure Memory (β : Type) where
  cells : Nat → Option β
  next : Nat
  positive : 0 < next
  null : cells 0 = none
  unused : ∀ address, next ≤ address → cells address = none

namespace Memory
open Outcome
variable {β : Type} {m m' : Memory β} {address other : Nat} {object : β}

def empty : Memory β where
  cells := fun _ => none
  next := 1
  positive := Nat.one_pos
  null := rfl
  unused := fun _ _ => rfl

/-- A new object, with its address. -/
def alloc (m : Memory β) (object : β) : Nat × Memory β :=
  (m.next, {
    cells := Function.update m.cells m.next (some object)
    next := m.next + 1
    positive := Nat.succ_pos _
    null := by rw [Function.update_of_ne (Nat.ne_of_lt m.positive), m.null]
    unused := fun address bound => by
      rw [Function.update_of_ne (show address ≠ m.next by omega)]
      exact m.unused address (by omega) })

def read (m : Memory β) (address : Nat) : Outcome β :=
  match m.cells address with
  | some object => pure object
  | none => .error .outside

/-- Overwriting or, with `none`, releasing a live object. -/
def replace (m : Memory β) (address : Nat) (object : Option β) (live : (m.cells address).isSome) : Memory β where
  cells := Function.update m.cells address object
  next := m.next
  positive := m.positive
  null := by
    rw [Function.update_of_ne, m.null]
    rintro rfl
    rw [m.null] at live
    cases live
  unused := fun other bound => by
    rw [Function.update_of_ne, m.unused other bound]
    rintro rfl
    rw [m.unused _ bound] at live
    cases live

def write (m : Memory β) (address : Nat) (object : β) : Outcome (Memory β) :=
  if live : (m.cells address).isSome then pure (m.replace address (some object) live) else .error .outside

/-- Releasing what is not live is a fault. -/
def free (m : Memory β) (address : Nat) : Outcome (Memory β) :=
  if live : (m.cells address).isSome then pure (m.replace address none live) else .error .outside

theorem read_eq_ok : m.read address = .ok object ↔ m.cells address = some object := by
  unfold read
  cases m.cells address <;> simp

theorem alloc_cells (m : Memory β) (object : β) :
    (m.alloc object).2.cells = Function.update m.cells m.next (some object) := rfl

theorem lt_of_live (live : m.cells address = some object) : address < m.next := by
  by_contra beyond
  rw [m.unused address (by omega)] at live
  cases live

theorem ne_zero_of_live (live : m.cells address = some object) : address ≠ 0 := by
  rintro rfl
  rw [m.null] at live
  cases live

theorem replace_eq {value : Option β} {live : (m.cells address).isSome} :
    m.replace address value live = m' ↔ m'.cells = Function.update m.cells address value ∧ m'.next = m.next := by
  constructor
  · rintro rfl
    exact ⟨rfl, rfl⟩
  · rintro ⟨cells, next⟩
    cases m'
    cases cells
    cases next
    rfl

theorem write_eq_ok : m.write address object = .ok m' ↔
    (m.cells address).isSome ∧ m'.cells = Function.update m.cells address (some object) ∧ m'.next = m.next := by
  unfold write
  split
  · next live => rw [pure_eq_ok, Except.ok.injEq, replace_eq, and_iff_right live]
  · next dead => simp [dead]

theorem free_eq_ok : m.free address = .ok m' ↔
    (m.cells address).isSome ∧ m'.cells = Function.update m.cells address none ∧ m'.next = m.next := by
  unfold free
  split
  · next live => rw [pure_eq_ok, Except.ok.injEq, replace_eq, and_iff_right live]
  · next dead => simp [dead]

/-- A later memory that has not changed what was allocated. -/
structure Extends (m m' : Memory β) : Prop where
  next : m.next ≤ m'.next
  cells : ∀ address < m.next, m'.cells address = m.cells address

namespace Extends
variable {m'' : Memory β}

theorem refl (m : Memory β) : m.Extends m := ⟨Nat.le_refl _, fun _ _ => rfl⟩

theorem trans (first : m.Extends m') (second : m'.Extends m'') : m.Extends m'' where
  next := Nat.le_trans first.next second.next
  cells := fun address bound =>
    (second.cells address (Nat.lt_of_lt_of_le bound first.next)).trans (first.cells address bound)

theorem live (grows : m.Extends m') (held : m.cells address = some object) : m'.cells address = some object :=
  (grows.cells address (lt_of_live held)).trans held

end Extends

theorem alloc_extends (m : Memory β) (object : β) : m.Extends (m.alloc object).2 where
  next := Nat.le_succ _
  cells := fun address bound => by rw [alloc_cells, Function.update_of_ne (Nat.ne_of_lt bound)]

theorem alloc_self (m : Memory β) (object : β) : (m.alloc object).2.cells m.next = some object := by
  rw [alloc_cells, Function.update_self]

end Memory
