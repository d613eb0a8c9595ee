import Mathlib.Data.Finite.Prod
import Mathlib.Tactic.Common

/-! Four values of one type, and maps of columns of bytes that are linear over
the field of two elements. -/

@[ext]
structure Quad (α : Type) where
  x0 : α
  x1 : α
  x2 : α
  x3 : α
  deriving DecidableEq, Repr

namespace Quad
variable {α β γ : Type}

def map (f : α → β) (q : Quad α) : Quad β := ⟨f q.x0, f q.x1, f q.x2, f q.x3⟩

def zipWith (f : α → β → γ) (p : Quad α) (q : Quad β) : Quad γ := ⟨f p.x0 q.x0, f p.x1 q.x1, f p.x2 q.x2, f p.x3 q.x3⟩

def toList (q : Quad α) : List α := [q.x0, q.x1, q.x2, q.x3]

instance [Finite α] : Finite (Quad α) :=
  Finite.of_injective (fun q => (q.x0, q.x1, q.x2, q.x3)) fun p q same => by
    simp only [Prod.mk.injEq] at same
    exact Quad.ext same.1 same.2.1 same.2.2.1 same.2.2.2

instance : Finite UInt8 :=
  Finite.of_injective UInt8.toFin fun _ _ same => UInt8.toFin_inj.mp same

theorem map_map (f : α → β) (g : β → γ) (q : Quad α) : (q.map f).map g = q.map (g ∘ f) := rfl

theorem map_id_of {f : α → α} (same : ∀ x, f x = x) (q : Quad α) : q.map f = q := by
  ext : 1 <;> exact same _

/-- The sum of two columns. -/
def add (p q : Quad UInt8) : Quad UInt8 := p.zipWith (· ^^^ ·) q

theorem add_assoc (p q r : Quad UInt8) : (p.add q).add r = p.add (q.add r) := by
  ext : 1 <;> exact UInt8.xor_assoc ..

theorem add_comm (p q : Quad UInt8) : p.add q = q.add p := by
  ext : 1 <;> exact UInt8.xor_comm ..

theorem add_add_cancel (p q : Quad UInt8) : (p.add q).add q = p := by
  have cancel (x y : UInt8) : x ^^^ y ^^^ y = x := by rw [UInt8.xor_assoc, UInt8.xor_self, UInt8.xor_zero]
  ext : 1 <;> exact cancel _ _

/-- A map of columns that respects sums. -/
def Linear (f : Quad UInt8 → Quad UInt8) : Prop := ∀ p q, f (p.add q) = (f p).add (f q)

theorem Linear.comp {f g : Quad UInt8 → Quad UInt8} (hf : Linear f) (hg : Linear g) : Linear (f ∘ g) := by
  intro p q
  simp only [Function.comp_apply]
  rw [hg, hf]

/-- The columns with one byte. -/
theorem split (q : Quad UInt8) :
    q = (add ⟨q.x0, 0, 0, 0⟩ ⟨0, q.x1, 0, 0⟩).add (add ⟨0, 0, q.x2, 0⟩ ⟨0, 0, 0, q.x3⟩) := by
  ext : 1 <;> simp [add, zipWith]

/-- A linear map that keeps the columns with one byte keeps every column. -/
theorem Linear.eq_self {f : Quad UInt8 → Quad UInt8} (linear : Linear f) (first : ∀ x, f ⟨x, 0, 0, 0⟩ = ⟨x, 0, 0, 0⟩)
    (second : ∀ x, f ⟨0, x, 0, 0⟩ = ⟨0, x, 0, 0⟩) (third : ∀ x, f ⟨0, 0, x, 0⟩ = ⟨0, 0, x, 0⟩)
    (fourth : ∀ x, f ⟨0, 0, 0, x⟩ = ⟨0, 0, 0, x⟩) (q : Quad UInt8) : f q = q := by
  have parts := q.split
  rw [parts, linear, linear, linear, first, second, third, fourth]

end Quad
