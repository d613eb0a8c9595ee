import Mathlib.Data.Nat.ModEq
import Mathlib.Logic.Function.Basic
import Mathlib.Tactic.Common

/-! A sequence that lies in blocks of one size, which a table of pointers puts
in order. Cell `i` is cell `i % size` of the block behind table entry `i / size`. -/

namespace Paged
variable {α : Type} {size : Nat} {page page' : Nat → Option Nat} {mem mem' : Nat → Option (List (Option α))}

def cellAt (size : Nat) (page : Nat → Option Nat) (mem : Nat → Option (List (Option α))) (i : Nat) : Option α :=
  (page (i / size)).bind fun p => (mem p).bind fun block => (block[i % size]?).join

/-- The cells from `start` on hold the items. -/
def Holds (cell : Nat → Option α) (start : Nat) (items : List α) : Prop :=
  ∀ k < items.length, cell (start + k) = items[k]?

/-- Every entry from `first` to `last` points to a block of its own. -/
structure Owned (size : Nat) (page : Nat → Option Nat) (mem : Nat → Option (List (Option α))) (first last : Nat) :
    Prop where
  live : ∀ i, first ≤ i → i ≤ last → ∃ p block, page i = some p ∧ mem p = some block ∧ block.length = size
  distinct : ∀ i j, first ≤ i → i ≤ last → first ≤ j → j ≤ last → page i = page j → i = j

namespace Holds
variable {cell cell' : Nat → Option α} {start : Nat} {items : List α} {a : α}

theorem nil (cell : Nat → Option α) (start : Nat) : Holds cell start ([] : List α) := by
  intro k within
  simp at within

/-- Items that are found at other places, in other cells. -/
theorem moved (holds : Holds cell start items) {start' : Nat}
    (same : ∀ k < items.length, cell' (start' + k) = cell (start + k)) : Holds cell' start' items :=
  fun k within => (same k within).trans (holds k within)

theorem concat (holds : Holds cell start items) (last : cell (start + items.length) = some a) :
    Holds cell start (items ++ [a]) := by
  intro k within
  rw [List.length_append, List.length_singleton] at within
  by_cases old : k < items.length
  · rw [List.getElem?_append_left old]
    exact holds k old
  · have here : k = items.length := by omega
    subst here
    simpa using last

theorem cons (holds : Holds cell (start + 1) items) (first : cell start = some a) : Holds cell start (a :: items) := by
  intro k within
  cases k with
  | zero => simpa using first
  | succ k =>
    rw [List.length_cons] at within
    have next := holds k (by omega)
    rw [show start + 1 + k = start + (k + 1) by omega] at next
    simpa using next

theorem head (holds : Holds cell start (a :: items)) : cell start = some a := by
  simpa using holds 0 (by simp)

theorem tail (holds : Holds cell start (a :: items)) : Holds cell (start + 1) items := by
  intro k within
  have next := holds (k + 1) (by simpa using within)
  rw [show start + (k + 1) = start + 1 + k by omega] at next
  simpa using next

theorem last (holds : Holds cell start (items ++ [a])) : cell (start + items.length) = some a := by
  simpa using holds items.length (by simp)

theorem init (holds : Holds cell start (items ++ [a])) : Holds cell start items := by
  intro k within
  have same := holds k (by simp; omega)
  rwa [List.getElem?_append_left within] at same

/-- Writing one cell of the sequence writes one item. -/
theorem set (holds : Holds cell start items) {k : Nat} (written : cell' (start + k) = some a)
    (others : ∀ i, start ≤ i → i < start + items.length → i ≠ start + k → cell' i = cell i) :
    Holds cell' start (items.set k a) := by
  intro j within
  rw [List.length_set] at within
  by_cases here : k = j
  · subst here
    rw [written, List.getElem?_set_self within]
  · rw [others (start + j) (by omega) (by omega) (by omega), List.getElem?_set_ne here]
    exact holds j within

theorem unique {other : List α} (holds : Holds cell start items) (held : Holds cell start other)
    (length : items.length = other.length) : items = other := by
  apply List.ext_getElem?
  intro k
  by_cases within : k < items.length
  · rw [← holds k within, ← held k (by omega)]
  · rw [List.getElem?_eq_none (by omega), List.getElem?_eq_none (by omega)]

end Holds

section Cells
variable {i d : Nat}

theorem cellAt_congr (entry : page' (i / size) = page (i / size)) :
    cellAt size page' mem i = cellAt size page mem i := by
  rw [cellAt, entry, ← cellAt]

/-- Moving the entries by `d` moves the cells by `d` blocks. -/
theorem cellAt_shift (positive : 0 < size) (entry : page' (i / size + d) = page (i / size)) :
    cellAt size page' mem (i + d * size) = cellAt size page mem i := by
  have quotient : (i + d * size) / size = i / size + d := Nat.add_mul_div_right i d positive
  rw [cellAt, quotient, entry, Nat.add_mul_mod_self_right, ← cellAt]

theorem cellAt_eq {p : Nat} {block : List (Option α)} (entry : page (i / size) = some p) (object : mem p = some block) :
    cellAt size page mem i = (block[i % size]?).join := by
  rw [cellAt, entry, Option.bind_some, object, Option.bind_some]

theorem cellAt_frame (same : ∀ p, page (i / size) = some p → mem' p = mem p) :
    cellAt size page mem' i = cellAt size page mem i := by
  unfold cellAt
  cases entry : page (i / size) with
  | none => rfl
  | some p => rw [Option.bind_some, Option.bind_some, same p entry]

/-- Cells that do not lie in a block are unchanged by what happens to it. -/
theorem cellAt_elsewhere {p : Nat} (elsewhere : page (i / size) ≠ some p) (frame : ∀ q, q ≠ p → mem' q = mem q) :
    cellAt size page mem' i = cellAt size page mem i := by
  refine cellAt_frame fun q entry => frame q ?_
  rintro rfl
  exact elsewhere entry

end Cells

namespace Owned
variable {first last first' last' : Nat}

/-- The entries of a range point to blocks that entries of an owned range point
to, each to another one. -/
theorem moved (owned : Owned size page mem first last) (source : Nat → Nat)
    (entries : ∀ j, first' ≤ j → j ≤ last' → first ≤ source j ∧ source j ≤ last ∧ page' j = page (source j))
    (injective : ∀ j k, first' ≤ j → j ≤ last' → first' ≤ k → k ≤ last' → source j = source k → j = k) :
    Owned size page' mem first' last' where
  live := by
    intro j lower upper
    obtain ⟨above, below, entry⟩ := entries j lower upper
    rw [entry]
    exact owned.live _ above below
  distinct := by
    intro j k lower upper lower' upper' same
    obtain ⟨above, below, entry⟩ := entries j lower upper
    obtain ⟨above', below', entry'⟩ := entries k lower' upper'
    rw [entry, entry'] at same
    exact injective j k lower upper lower' upper' (owned.distinct _ _ above below above' below' same)

/-- A new block behind one more entry. -/
theorem fresh (owned : Owned size page mem first last) {p k : Nat} {block : List (Option α)} (unused : mem p = none)
    (object : mem' p = some block) (length : block.length = size) (frame : ∀ q, q ≠ p → mem' q = mem q)
    (entry : page' k = some p)
    (entries : ∀ j, first' ≤ j → j ≤ last' → j ≠ k → first ≤ j ∧ j ≤ last ∧ page' j = page j) :
    Owned size page' mem' first' last' := by
  have old : ∀ j, first' ≤ j → j ≤ last' → j ≠ k → ∃ q block, page' j = some q ∧ q ≠ p ∧ mem' q = some block ∧
      block.length = size := by
    intro j lower upper other
    obtain ⟨above, below, same⟩ := entries j lower upper other
    obtain ⟨q, block, held, live, sized⟩ := owned.live j above below
    have apart : q ≠ p := by
      rintro rfl
      rw [unused] at live
      cases live
    exact ⟨q, block, same.trans held, apart, by rw [frame q apart, live], sized⟩
  constructor
  · intro j lower upper
    by_cases here : j = k
    · subst here
      exact ⟨p, block, entry, object, length⟩
    · obtain ⟨q, block, held, -, live, sized⟩ := old j lower upper here
      exact ⟨q, block, held, live, sized⟩
  · intro i j lower upper lower' upper' same
    by_cases here : i = k
    · by_cases there : j = k
      · omega
      · obtain ⟨q, -, held, apart, -⟩ := old j lower' upper' there
        rw [here, entry, held] at same
        exact absurd (Option.some.inj same).symm apart
    · obtain ⟨q, -, held, apart, -⟩ := old i lower upper here
      by_cases there : j = k
      · rw [there, entry, held] at same
        exact absurd (Option.some.inj same) apart
      · obtain ⟨above, below, entry⟩ := entries i lower upper here
        obtain ⟨above', below', entry'⟩ := entries j lower' upper' there
        rw [entry, entry'] at same
        exact owned.distinct i j above below above' below' same

section Write
variable {p i : Nat} {block : List (Option α)} {a : α} (owned : Owned size page mem first last)
  (entry : page (i / size) = some p) (object : mem p = some block)
  (written : mem' p = some (block.set (i % size) (some a))) (frame : ∀ q, q ≠ p → mem' q = mem q)
include owned object written frame

/-- A write into a block leaves every entry with a block. -/
theorem write : Owned size page mem' first last where
  live := by
    intro j lower upper
    obtain ⟨q, other, held, live, length⟩ := owned.live j lower upper
    by_cases same : q = p
    · subst same
      rw [object] at live
      cases live
      exact ⟨q, _, held, written, by rw [List.length_set, length]⟩
    · exact ⟨q, other, held, by rw [frame q same, live], length⟩
  distinct := owned.distinct

include entry

omit frame in
theorem cellAt_written (positive : 0 < size) (lower : first ≤ i / size) (upper : i / size ≤ last) :
    cellAt size page mem' i = some a := by
  obtain ⟨q, other, held, live, length⟩ := owned.live _ lower upper
  rw [entry] at held
  cases held
  rw [object] at live
  cases live
  have inside : i % size < block.length := by
    rw [length]
    exact Nat.mod_lt i positive
  rw [cellAt_eq entry written, List.getElem?_set_self inside]
  rfl

theorem cellAt_unwritten (lower : first ≤ i / size) (upper : i / size ≤ last) {j : Nat} (lower' : first ≤ j / size)
    (upper' : j / size ≤ last) (other : j ≠ i) : cellAt size page mem' j = cellAt size page mem j := by
  by_cases same : page (j / size) = some p
  · have quotient : j / size = i / size :=
      owned.distinct _ _ lower' upper' lower upper (same.trans entry.symm)
    have remainder : i % size ≠ j % size := by
      intro equal
      apply other
      rw [← Nat.div_add_mod j size, ← Nat.div_add_mod i size, quotient, equal]
    rw [cellAt_eq same written, cellAt_eq same object, List.getElem?_set_ne remainder]
  · exact cellAt_elsewhere same frame

end Write

end Owned

end Paged
