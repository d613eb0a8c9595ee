import DynamicRPC.Library.Outcome
import Mathlib.Data.List.TakeWhile
import Mathlib.Tactic

namespace DynamicRPC

/-- A C string without its terminating NUL. -/
structure CString where
  bytes : List UInt8
  nulFree : 0 ∉ bytes
  deriving DecidableEq

namespace CString

theorem ext_bytes {s t : CString} (same : s.bytes = t.bytes) : s = t := by
  cases s
  cases t
  cases same
  rfl

/-- A string constant of the source, written by its characters. -/
def ofChars (chars : List Char) : CString where
  bytes := (chars.map fun c => UInt8.ofNat c.toNat).filter (· ≠ 0)
  nulFree := by simp

def ofString (text : String) : CString := ofChars text.toList

/-- The heap block `strdup` makes of a string. -/
def block (s : CString) : List UInt8 := s.bytes ++ [0]

@[simp] theorem block_length (s : CString) : s.block.length = s.bytes.length + 1 := by
  simp [block]

/-- Reading a string from its first byte on, as `strlen` and `strdup` do:
without a NUL inside the object the read leaves it. -/
def read (memory : List UInt8) : Outcome CString :=
  if 0 ∈ memory then
    .ok ⟨memory.takeWhile (· ≠ 0), fun member => by simpa using List.mem_takeWhile_imp member⟩
  else .error .outside

theorem read_terminated {memory : List UInt8} (terminated : 0 ∈ memory) :
    ∃ s : CString, read memory = .ok s ∧ s.bytes = memory.takeWhile (· ≠ 0) :=
  ⟨_, if_pos terminated, rfl⟩

theorem takeWhile_append_nul (s : CString) (rest : List UInt8) :
    (s.bytes ++ 0 :: rest).takeWhile (· ≠ 0) = s.bytes := by
  rw [List.takeWhile_append_of_pos]
  · simp
  · intro c member
    have nonzero : c ≠ 0 := fun zero => s.nulFree (zero ▸ member)
    simpa using nonzero

theorem read_append (s : CString) (rest : List UInt8) : read (s.bytes ++ 0 :: rest) = .ok s := by
  have member : (0 : UInt8) ∈ s.bytes ++ 0 :: rest := by simp
  rw [read, if_pos member]
  exact congrArg _ (ext_bytes (takeWhile_append_nul s rest))

theorem takeWhile_of_read {memory : List UInt8} {s : CString} (run : read memory = .ok s) :
    memory.takeWhile (· ≠ 0) = s.bytes := by
  rw [read] at run
  split at run
  · cases run
    rfl
  · cases run

/-- The string that is read, its NUL and the rest make up the memory. -/
theorem read_inv {memory : List UInt8} {s : CString} (run : read memory = .ok s) :
    memory = s.block ++ memory.drop (s.bytes.length + 1) := by
  rw [read] at run
  split at run
  · next terminated =>
    cases run
    obtain ⟨before, after, shape, nulFree⟩ := List.eq_append_cons_of_mem terminated
    have first : memory.takeWhile (· ≠ 0) = before := by
      rw [shape]
      exact takeWhile_append_nul ⟨before, nulFree⟩ after
    rw [block]
    dsimp only
    rw [first, shape, ← List.singleton_append, ← List.append_assoc, List.drop_left' (by simp)]
  · cases run

@[simp] theorem read_block (s : CString) : read s.block = .ok s := read_append s []

/-- `sprintf(key, "%zu", n)`. -/
def sprintfZu (n : Nat) : CString where
  bytes := (Nat.toDigits 10 n).map fun c => UInt8.ofNat c.toNat
  nulFree := by
    intro member
    obtain ⟨c, digit, zero⟩ := List.mem_map.mp member
    have bounds := Nat.isDigit_of_mem_toDigits (by decide) (by decide) digit
    simp only [Char.isDigit, Bool.and_eq_true, decide_eq_true_eq] at bounds
    have low : 48 ≤ c.toNat := bounds.1
    have high : c.toNat ≤ 57 := bounds.2
    have value := congrArg UInt8.toNat zero
    simp only [UInt8.toNat_ofNat', UInt8.toNat_zero] at value
    omega

def isSpace (c : UInt8) : Bool := c == 32 || (9 ≤ c && c ≤ 13)

def isDigit (c : UInt8) : Bool := 48 ≤ c && c ≤ 57

/-- The decimal value `strtol` reads off a run of digits. -/
def digitsValue (digits : List UInt8) : Nat :=
  digits.foldl (fun sofar c => 10 * sofar + (c.toNat - 48)) 0

/-- `atol` of glibc: leading white space, a sign, digits up to the first other
character, saturating at the bounds of `long`. -/
def atol (s : CString) : Int :=
  match s.bytes.dropWhile isSpace with
  | 45 :: rest => max (-(2 ^ 63)) (-(digitsValue (rest.takeWhile isDigit) : Int))
  | 43 :: rest => min (2 ^ 63 - 1) (digitsValue (rest.takeWhile isDigit) : Int)
  | rest => min (2 ^ 63 - 1) (digitsValue (rest.takeWhile isDigit) : Int)

/-- The conversion of a `long` to `size_t`. -/
def toSizeT (value : Int) : Nat := (value % 2 ^ 64).toNat

theorem sprintfZu_digit {n : Nat} {c : UInt8} (member : c ∈ (sprintfZu n).bytes) :
    48 ≤ c.toNat ∧ c.toNat ≤ 57 := by
  obtain ⟨d, digit, rfl⟩ := List.mem_map.mp member
  have bounds := Nat.isDigit_of_mem_toDigits (by decide) (by decide) digit
  simp only [Char.isDigit, Bool.and_eq_true, decide_eq_true_eq] at bounds
  have low : 48 ≤ d.toNat := bounds.1
  have high : d.toNat ≤ 57 := bounds.2
  simp only [UInt8.toNat_ofNat']
  omega

theorem digitsValue_sprintfZu (n : Nat) : digitsValue (sprintfZu n).bytes = n := by
  have value : ∀ (chars : List Char) (start : Nat), (∀ c ∈ chars, c.isDigit) →
      (chars.map fun c => UInt8.ofNat c.toNat).foldl (fun sofar c => 10 * sofar + (c.toNat - 48)) start =
        Nat.ofDigitChars 10 chars start := by
    intro chars
    induction chars with
    | nil => intro start _; simp
    | cons c chars ih =>
      intro start digits
      have bounds := digits c (List.mem_cons_self ..)
      simp only [Char.isDigit, Bool.and_eq_true, decide_eq_true_eq] at bounds
      have high : c.toNat ≤ 57 := bounds.2
      rw [List.map_cons, List.foldl_cons, Nat.ofDigitChars_cons,
        ih _ fun d member => digits d (List.mem_cons_of_mem _ member)]
      congr 2
      simp only [UInt8.toNat_ofNat']
      have small : c.toNat % 2 ^ 8 = c.toNat := by omega
      rw [small]
      rfl
  exact (value _ 0 fun c member => Nat.isDigit_of_mem_toDigits (by decide) (by decide) member).trans
    Nat.ofDigitChars_ten_toDigits

/-- `atol` undoes the decimal printing of every index below `LONG_MAX`. -/
theorem atol_sprintfZu {n : Nat} (bound : n < 2 ^ 63) : atol (sprintfZu n) = n := by
  have digit : ∀ c ∈ (sprintfZu n).bytes, isDigit c = true := by
    intro c member
    have bounds := sprintfZu_digit member
    simp only [isDigit, Bool.and_eq_true, decide_eq_true_eq, UInt8.le_iff_toNat_le]
    exact bounds
  have nonempty : (sprintfZu n).bytes ≠ [] := by simp [sprintfZu, Nat.toDigits_ne_nil]
  obtain ⟨c, rest, shape⟩ := List.exists_cons_of_ne_nil nonempty
  have bounds := sprintfZu_digit (n := n) (c := c) (by rw [shape]; exact List.mem_cons_self ..)
  have notSpace : isSpace c = false := by
    simp only [isSpace, Bool.or_eq_false_iff, beq_eq_false_iff_ne, Bool.and_eq_false_iff,
      decide_eq_false_iff_not, UInt8.le_iff_toNat_le]
    refine ⟨?_, Or.inr ?_⟩
    · intro space
      rw [space] at bounds
      exact absurd bounds.1 (by decide)
    · intro space
      have : c.toNat ≤ 13 := space
      omega
  have kept : (sprintfZu n).bytes.dropWhile isSpace = (sprintfZu n).bytes := by
    rw [shape, List.dropWhile_cons_of_neg (by simp [notSpace])]
  have all : (sprintfZu n).bytes.takeWhile isDigit = (sprintfZu n).bytes :=
    List.takeWhile_eq_self_iff.mpr digit
  have value := digitsValue_sprintfZu n
  rw [atol, kept]
  split
  · rename_i same
    rw [shape] at same
    cases same
    exact absurd bounds.1 (by decide)
  · rename_i same
    rw [shape] at same
    cases same
    exact absurd bounds.1 (by decide)
  · rw [all, value]
    omega

theorem toSizeT_atol_sprintfZu {n : Nat} (bound : n < 2 ^ 63) : toSizeT (atol (sprintfZu n)) = n := by
  rw [atol_sprintfZu bound, toSizeT]
  omega

theorem sprintfZu_injective : Function.Injective sprintfZu := by
  intro n m same
  rw [← digitsValue_sprintfZu n, ← digitsValue_sprintfZu m, same]

/-- A digit of `%x`. -/
def hexDigit (digit : Nat) : UInt8 := if digit < 10 then UInt8.ofNat (48 + digit) else UInt8.ofNat (87 + digit)

def hexValue (c : UInt8) : Nat := if c.toNat < 58 then c.toNat - 48 else c.toNat - 87

theorem hexValue_hexDigit : ∀ digit < 16, hexValue (hexDigit digit) = digit ∧ hexDigit digit ≠ 0 := by decide

/-- `sprintf(ptr, "%p", p)` of a pointer that is not null. -/
def sprintfP (p : Nat) : CString where
  bytes := 48 :: 120 :: (Nat.digits 16 p).reverse.map hexDigit
  nulFree := by
    intro member
    obtain zero | member := List.mem_cons.mp member
    · cases zero
    obtain zero | member := List.mem_cons.mp member
    · cases zero
    obtain ⟨digit, member, zero⟩ := List.mem_map.mp member
    exact (hexValue_hexDigit digit (Nat.digits_lt_base (by decide) (List.mem_reverse.mp member))).2 zero

theorem sprintfP_injective : Function.Injective sprintfP := by
  have value (p : Nat) : Nat.ofDigits 16 (((sprintfP p).bytes.drop 2).reverse.map hexValue) = p := by
    have digits : ((sprintfP p).bytes.drop 2).reverse.map hexValue = Nat.digits 16 p := by
      rw [sprintfP, List.drop_succ_cons, List.drop_succ_cons, List.drop_zero]
      simp only [List.map_reverse, List.reverse_reverse, List.map_map]
      refine (List.map_congr_left fun digit member => ?_).trans (List.map_id _)
      exact (hexValue_hexDigit digit (Nat.digits_lt_base (by decide) member)).1
    rw [digits, Nat.ofDigits_digits]
  intro p q same
  rw [← value p, ← value q, same]

end CString
end DynamicRPC
