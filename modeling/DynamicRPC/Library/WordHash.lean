import Mathlib.Data.BitVec
import Mathlib.Data.Nat.ModEq
import Mathlib.Data.Nat.Prime.Basic

/-! Hash steps on machine words that can be undone, and hashes that are a fold of such steps. -/

namespace WordHash
variable {w : Nat}

/-- Multiplication by an odd word can be undone. -/
theorem mul_odd_injective {factor : BitVec w} (odd : factor.toNat % 2 = 1) :
    Function.Injective fun word : BitVec w => word * factor := by
  intro left right same
  have coprime : Nat.Coprime (2 ^ w) factor.toNat := (Nat.coprime_two_left.mpr (Nat.odd_iff.mpr odd)).pow_left w
  have products := congrArg BitVec.toNat same
  simp only [BitVec.toNat_mul] at products
  have congruent : left.toNat ≡ right.toNat [MOD 2 ^ w] := Nat.ModEq.cancel_right_of_coprime coprime products
  apply BitVec.eq_of_toNat_eq
  have left_small := Nat.mod_eq_of_lt left.isLt
  have right_small := Nat.mod_eq_of_lt right.isLt
  rw [← left_small, ← right_small]
  exact congruent

/-- A word xored with its upper part can be undone, from the highest bit downwards. -/
theorem xorShift_injective {shift : Nat} (positive : 0 < shift) :
    Function.Injective fun word : BitVec w => word ^^^ (word >>> shift) := by
  intro left right same
  have bits : ∀ i, (left.getLsbD i ^^ left.getLsbD (shift + i)) = (right.getLsbD i ^^ right.getLsbD (shift + i)) := by
    intro i
    have at_i := congrArg (fun word : BitVec w => word.getLsbD i) same
    simpa only [BitVec.getLsbD_xor, BitVec.getLsbD_ushiftRight] using at_i
  -- the bits that are still open lie below the highest `above` ones
  have upper : ∀ above i, w ≤ i + above → left.getLsbD i = right.getLsbD i := by
    intro above
    induction above with
    | zero =>
      intro i beyond
      have outside : w ≤ i := by omega
      rw [BitVec.getLsbD_of_ge left i outside, BitVec.getLsbD_of_ge right i outside]
    | succ above ih =>
      intro i within
      have higher := ih (shift + i) (by omega)
      have here := bits i
      rw [higher] at here
      exact Bool.xor_left_inj.mp here
  refine BitVec.eq_of_getLsbD_eq fun i bound => ?_
  exact upper w i (by omega)

section Fold
variable {σ α : Type} {step : σ → α → σ}

/-- Steps that can be undone carry a difference through to the end. -/
theorem foldl_injective (undone : ∀ a, Function.Injective fun s => step s a) (input : List α) :
    Function.Injective fun s => input.foldl step s := by
  induction input with
  | nil => exact fun left right same => same
  | cons a input ih =>
    intro left right same
    exact undone a (ih same)

/-- Two inputs that differ in one place have different hashes. -/
theorem foldl_ne (undone : ∀ a, Function.Injective fun s => step s a) (read : ∀ s, Function.Injective (step s))
    {a b : α} (different : a ≠ b) (before after : List α) (s : σ) :
    (before ++ a :: after).foldl step s ≠ (before ++ b :: after).foldl step s := by
  intro same
  rw [List.foldl_append, List.foldl_append, List.foldl_cons, List.foldl_cons] at same
  exact different (read _ (foldl_injective undone after same))

end Fold
end WordHash
