import Mathlib.Tactic

/-! The bit patterns of IEEE floating-point numbers, their integral parts, and
which patterns a conversion by value leaves as they are. -/

namespace Ieee

def exponent64 (bits : Nat) : Nat := bits / 2 ^ 52 % 2 ^ 11

def fraction64 (bits : Nat) : Nat := bits % 2 ^ 52

/-- The size of the integral part of a finite double. A subnormal one has none. -/
def magnitude (bits : Nat) : Nat :=
  (2 ^ 52 + fraction64 bits) * 2 ^ (exponent64 bits - 1075) / 2 ^ (1075 - exponent64 bits)

/-- The integral part of a double, of which an infinity and a NaN have none. -/
def truncate (bits : Nat) : Option Int :=
  if exponent64 bits = 2047 then none
  else some (if bits / 2 ^ 63 % 2 = 1 then -(magnitude bits : Int) else magnitude bits)

/-- The double that a float is promoted to. A subnormal one is normalised. -/
def floatToDouble (bits : Nat) : Nat :=
  let sign := bits / 2 ^ 31 % 2 * 2 ^ 63
  let exponent := bits / 2 ^ 23 % 2 ^ 8
  let fraction := bits % 2 ^ 23
  if exponent = 255 then sign + 2047 * 2 ^ 52 + fraction * 2 ^ 29
  else if exponent ≠ 0 then sign + (exponent + 896) * 2 ^ 52 + fraction * 2 ^ 29
  else if fraction = 0 then sign
  else sign + (fraction.log2 + 874) * 2 ^ 52 + (fraction - 2 ^ fraction.log2) * 2 ^ (52 - fraction.log2)

/-- A conversion of doubles to `uint64_t` as C has it: the integral part where
that is a `uint64_t`, and anything elsewhere. -/
def Conforms (toUInt64 : Nat → Nat) : Prop :=
  ∀ bits n : Nat, truncate bits = some (n : Int) → n < 2 ^ 64 → toUInt64 bits = n

/-- The conversion that gives 0 where C says nothing. -/
def toUInt64 (bits : Nat) : Nat :=
  match truncate bits with
  | some (.ofNat n) => if n < 2 ^ 64 then n else 0
  | _ => 0

theorem toUInt64_conforms : Conforms toUInt64 := by
  intro bits n value fits
  have shape : truncate bits = some (.ofNat n) := value
  simp only [toUInt64, shape, if_pos fits]

theorem toUInt64_cases (bits : Nat) :
    toUInt64 bits = 0 ∨ truncate bits = some (toUInt64 bits : Int) ∧ toUInt64 bits < 2 ^ 64 := by
  unfold toUInt64
  split
  · next n value =>
    split
    · next fits => exact .inr ⟨value, fits⟩
    · exact .inl rfl
  · exact .inl rfl

section Magnitude
variable {bits : Nat}

theorem magnitude_small (small : exponent64 bits ≤ 1022) : magnitude bits = 0 := by
  have fraction : fraction64 bits < 2 ^ 52 := Nat.mod_lt _ (by decide)
  have large : 2 ^ 53 ≤ 2 ^ (1075 - exponent64 bits) := Nat.pow_le_pow_right (by decide) (by omega)
  have none_left : exponent64 bits - 1075 = 0 := by omega
  rw [magnitude, none_left, pow_zero, mul_one]
  exact Nat.div_eq_of_lt (by omega)

/-- Below an exponent the magnitude has as many bits less. -/
theorem magnitude_medium {shift : Nat} (medium : exponent64 bits + shift ≤ 1075) :
    magnitude bits < 2 ^ 53 / 2 ^ shift + 1 := by
  have fraction : fraction64 bits < 2 ^ 52 := Nat.mod_lt _ (by decide)
  have none_left : exponent64 bits - 1075 = 0 := by omega
  have divisor : 2 ^ shift ≤ 2 ^ (1075 - exponent64 bits) := Nat.pow_le_pow_right (by decide) (by omega)
  rw [magnitude, none_left, pow_zero, mul_one]
  have quotient := Nat.div_le_div (show 2 ^ 52 + fraction64 bits ≤ 2 ^ 53 by omega) divisor (Nat.two_pow_pos shift).ne'
  omega

theorem magnitude_large (large : 1075 ≤ exponent64 bits) :
    magnitude bits = (2 ^ 52 + fraction64 bits) * 2 ^ (exponent64 bits - 1075) := by
  have nothing : 1075 - exponent64 bits = 0 := by omega
  rw [magnitude, nothing, pow_zero, Nat.div_one]

theorem exponent_le (large : 1075 ≤ exponent64 bits) (fits : magnitude bits < 2 ^ 64) : exponent64 bits ≤ 1086 := by
  rw [magnitude_large large] at fits
  have shifted : 2 ^ 52 * 2 ^ (exponent64 bits - 1075) < 2 ^ 52 * 2 ^ 12 :=
    lt_of_le_of_lt (Nat.mul_le_mul_right _ (Nat.le_add_right _ _)) fits
  have shift : exponent64 bits - 1075 < 12 :=
    (Nat.pow_lt_pow_iff_right (by decide)).mp (Nat.lt_of_mul_lt_mul_left shifted)
  omega

/-- A double with a natural number as its integral part. -/
theorem truncate_nat {n : Nat} (value : truncate bits = some (n : Int)) :
    magnitude bits = n ∧ (bits / 2 ^ 63 % 2 = 1 → n = 0) := by
  unfold truncate at value
  split at value
  · cases value
  · have same := Option.some.inj value
    split at same <;> omega

end Magnitude

/-- Multiplying by a power of two keeps the low bits of nothing but 0. -/
theorem eq_zero_of_shifted {f k width : Nat} (positive : 0 < k) (bound : f < 2 ^ width)
    (same : f * 2 ^ k % 2 ^ width = f) : f = 0 := by
  have odd : Nat.Coprime (2 ^ width) (2 ^ k - 1) := by
    refine Nat.Coprime.pow_left _ ?_
    obtain ⟨k, rfl⟩ : ∃ n, k = n + 1 := ⟨k - 1, by omega⟩
    have power : 0 < 2 ^ k := Nat.two_pow_pos k
    rw [Nat.coprime_two_left, Nat.odd_iff, Nat.pow_succ]
    omega
  have multiple : 2 ^ width ∣ f * (2 ^ k - 1) := by
    rw [Nat.mul_sub, Nat.mul_one]
    refine Nat.dvd_of_mod_eq_zero (Nat.sub_mod_eq_zero_of_mod_eq ?_)
    rw [same, Nat.mod_eq_of_lt bound]
  exact Nat.eq_zero_of_dvd_of_lt (odd.dvd_of_dvd_mul_right multiple) bound

/-- A large double is not its own integral part. -/
theorem shifted64_ne {k f : Nat} (few : k < 12) (fraction : f < 2 ^ 52) :
    (2 ^ 52 + f) * 2 ^ k ≠ (1075 + k) * 2 ^ 52 + f := by
  intro same
  interval_cases k <;> omega

/-- The bits of a large float are not the low bytes of its integral part. -/
theorem shifted32_ne {k f : Nat} (few : k ≤ 40) (fraction : f < 2 ^ 23) :
    (2 ^ 23 + f) * 2 ^ k % 2 ^ 32 ≠ (150 + k) * 2 ^ 23 + f := by
  intro same
  by_cases positive : 0 < k
  · have low : (2 ^ 23 + f) * 2 ^ k % 2 ^ 23 = f := by
      have split := congrArg (· % 2 ^ 23) same
      rw [Nat.mod_mod_of_dvd _ (by norm_num)] at split
      omega
    rw [Nat.add_mul, Nat.mul_add_mod] at low
    have zero := eq_zero_of_shifted positive fraction low
    subst zero
    interval_cases k <;> norm_num at same
  · have first : k = 0 := by omega
    subst first
    omega

/-- The only double whose bits are its integral part is zero. -/
theorem double_fixed {bits : Nat} (bound : bits < 2 ^ 64) (value : truncate bits = some (bits : Int)) : bits = 0 := by
  obtain ⟨same, negative⟩ := truncate_nat value
  have fraction : fraction64 bits = bits % 2 ^ 52 := rfl
  have exponent : exponent64 bits = bits / 2 ^ 52 % 2 ^ 11 := rfl
  by_cases small : exponent64 bits ≤ 1022
  · rw [← same]
    exact magnitude_small small
  · by_cases medium : exponent64 bits < 1075
    · have few := magnitude_medium (show exponent64 bits + 0 ≤ 1075 by omega)
      omega
    · have large : 1075 ≤ exponent64 bits := not_lt.mp medium
      have last := exponent_le large (by omega)
      have product := magnitude_large large
      by_contra nonzero
      refine shifted64_ne (show exponent64 bits - 1075 < 12 by omega) (show fraction64 bits < 2 ^ 52 by omega) ?_
      rw [← product, same]
      omega

section Float
variable {bits : Nat}

/-- The fields of the double of a normal float. -/
theorem floatToDouble_normal (normal : bits / 2 ^ 23 % 2 ^ 8 ≠ 0) (finite : bits / 2 ^ 23 % 2 ^ 8 ≠ 255) :
    exponent64 (floatToDouble bits) = bits / 2 ^ 23 % 2 ^ 8 + 896 ∧
      fraction64 (floatToDouble bits) = bits % 2 ^ 23 * 2 ^ 29 := by
  unfold floatToDouble exponent64 fraction64
  dsimp only
  rw [if_neg finite, if_pos normal]
  omega

/-- The double of a subnormal float is far below 1. -/
theorem floatToDouble_subnormal (subnormal : bits / 2 ^ 23 % 2 ^ 8 = 0) :
    exponent64 (floatToDouble bits) ≤ 1022 := by
  have fraction : bits % 2 ^ 23 < 2 ^ 23 := Nat.mod_lt _ (by decide)
  unfold floatToDouble exponent64
  dsimp only
  rw [subnormal, if_neg (by decide), if_neg (by decide)]
  generalize bits % 2 ^ 23 = f at *
  split
  · omega
  · next positive =>
    have high : f.log2 < 23 := (Nat.log2_lt positive).mpr fraction
    have above : f < 2 ^ (f.log2 + 1) := Nat.lt_log2_self
    have room : (f - 2 ^ f.log2) * 2 ^ (52 - f.log2) < 2 ^ 52 := by
      have left : f - 2 ^ f.log2 < 2 ^ f.log2 := by
        rw [Nat.pow_succ] at above
        omega
      calc (f - 2 ^ f.log2) * 2 ^ (52 - f.log2)
        _ < 2 ^ f.log2 * 2 ^ (52 - f.log2) := Nat.mul_lt_mul_of_pos_right left (Nat.two_pow_pos _)
        _ = 2 ^ 52 := by rw [← Nat.pow_add, Nat.add_sub_cancel' (by omega)]
    omega

/-- From an exponent on every float is an integer. -/
theorem magnitude_float {double fraction shift : Nat} (exponent : exponent64 double = 1046 + shift)
    (low : fraction64 double = fraction * 2 ^ 29) : magnitude double = (2 ^ 23 + fraction) * 2 ^ shift := by
  have whole : 2 ^ 52 + fraction64 double = (2 ^ 23 + fraction) * 2 ^ 29 := by omega
  by_cases medium : exponent64 double < 1075
  · have sum : shift + (1075 - exponent64 double) = 29 := by omega
    have power : 2 ^ 29 = 2 ^ shift * 2 ^ (1075 - exponent64 double) := by rw [← Nat.pow_add, sum]
    have none_left : exponent64 double - 1075 = 0 := by omega
    rw [magnitude, whole, none_left, pow_zero, mul_one, power, ← Nat.mul_assoc]
    exact Nat.mul_div_cancel _ (Nat.two_pow_pos _)
  · have sum : 29 + (exponent64 double - 1075) = shift := by omega
    have power : 2 ^ shift = 2 ^ 29 * 2 ^ (exponent64 double - 1075) := by rw [← Nat.pow_add, sum]
    rw [magnitude_large (not_lt.mp medium), whole, power, Nat.mul_assoc]

/-- The only float whose bits are the low bytes of its integral part is zero. -/
theorem float_fixed {n : Nat} (bound : bits < 2 ^ 32) (value : truncate (floatToDouble bits) = some (n : Int))
    (fits : n < 2 ^ 64) (low : n % 2 ^ 32 = bits) : bits = 0 := by
  obtain ⟨same, negative⟩ := truncate_nat value
  by_cases finite : bits / 2 ^ 23 % 2 ^ 8 = 255
  · have none_left : truncate (floatToDouble bits) = none := by
      refine if_pos ?_
      unfold floatToDouble exponent64
      dsimp only
      rw [if_pos finite]
      omega
    rw [none_left] at value
    cases value
  by_cases normal : bits / 2 ^ 23 % 2 ^ 8 = 0
  · have nothing := magnitude_small (floatToDouble_subnormal normal)
    omega
  obtain ⟨exponent, fraction⟩ := floatToDouble_normal normal finite
  by_cases small : exponent64 (floatToDouble bits) ≤ 1022
  · have nothing := magnitude_small small
    omega
  have sign : floatToDouble bits / 2 ^ 63 % 2 = bits / 2 ^ 31 % 2 := by
    unfold floatToDouble
    dsimp only
    rw [if_neg finite, if_pos normal]
    omega
  rw [sign] at negative
  by_cases medium : exponent64 (floatToDouble bits) < 1046
  · have few := magnitude_medium (show exponent64 (floatToDouble bits) + 30 ≤ 1075 by omega)
    omega
  · obtain ⟨shift, shifted⟩ : ∃ shift, exponent64 (floatToDouble bits) = 1046 + shift :=
      Nat.exists_eq_add_of_le (by omega)
    have product := magnitude_float shifted fraction
    have positive : 2 ^ 23 * 2 ^ shift ≤ n := by
      rw [← same, product]
      exact Nat.mul_le_mul_right _ (Nat.le_add_right _ _)
    have some_left : 0 < 2 ^ shift := Nat.two_pow_pos shift
    have shift_lt : shift < 41 := by
      have power : 2 ^ shift < 2 ^ 41 := by omega
      exact (Nat.pow_lt_pow_iff_right (by decide)).mp power
    refine absurd ?_ (shifted32_ne (show shift ≤ 40 by omega) (Nat.mod_lt bits (show 0 < 2 ^ 23 by decide)))
    rw [← product, same, low]
    omega

end Float

/-- A conversion by value keeps the bits of no double but zero. -/
theorem double_kept {bits : Nat} (bound : bits < 2 ^ 64) (kept : toUInt64 bits % 2 ^ 64 = bits) : bits = 0 := by
  obtain nothing | ⟨value, fits⟩ := toUInt64_cases bits
  · rw [nothing] at kept
    exact kept.symm
  · rw [Nat.mod_eq_of_lt fits] at kept
    rw [kept] at value
    exact double_fixed bound value

/-- Nor does it leave those of a float, but for zero, in the low bytes. -/
theorem float_kept {bits : Nat} (bound : bits < 2 ^ 32) (kept : toUInt64 (floatToDouble bits) % 2 ^ 32 = bits) :
    bits = 0 := by
  obtain nothing | ⟨value, fits⟩ := toUInt64_cases (floatToDouble bits)
  · rw [nothing] at kept
    exact kept.symm
  · exact float_fixed bound value fits kept

theorem Conforms.zero {convert : Nat → Nat} (conforms : Conforms convert) : convert 0 = 0 := by
  have nothing : magnitude 0 = 0 := magnitude_small (by decide)
  refine conforms 0 0 ?_ (by decide)
  rw [truncate, if_neg (by decide), if_neg (by decide), nothing]

end Ieee
