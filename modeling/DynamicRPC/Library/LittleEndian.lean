import DynamicRPC.Library.Outcome
import Mathlib.Tactic

/-! The eight bytes of an unsigned 64-bit number, low byte first, and a reader
that faults where the memory ends. -/

namespace LittleEndian

def encode : Nat → Nat → List UInt8
  | 0, _ => []
  | width + 1, n => UInt8.ofNat n :: encode width (n / 256)

def decode : List UInt8 → Nat
  | [] => 0
  | byte :: rest => byte.toNat + 256 * decode rest

@[simp] theorem encode_length (width n : Nat) : (encode width n).length = width := by
  induction width generalizing n with
  | zero => rfl
  | succ width ih => simp [encode, ih]

theorem decode_encode (width n : Nat) : decode (encode width n) = n % 256 ^ width := by
  induction width generalizing n with
  | zero => simp [encode, decode, Nat.mod_one]
  | succ width ih =>
    have split : n % 256 ^ (width + 1) = n % 256 + 256 * (n / 256 % 256 ^ width) := by
      rw [Nat.pow_succ', Nat.mod_mul]
    rw [encode, decode, ih, UInt8.toNat_ofNat', split]

theorem encode_decode (bytes : List UInt8) : encode bytes.length (decode bytes) = bytes := by
  induction bytes with
  | nil => rfl
  | cons byte bytes ih =>
    have bound := byte.toNat_lt
    have low : UInt8.ofNat (byte.toNat + 256 * decode bytes) = byte := by
      apply UInt8.toNat_inj.mp
      rw [UInt8.toNat_ofNat']
      omega
    have high : (byte.toNat + 256 * decode bytes) / 256 = decode bytes := by omega
    rw [List.length_cons, encode, decode, low, high, ih]

theorem decode_lt (bytes : List UInt8) : decode bytes < 256 ^ bytes.length := by
  induction bytes with
  | nil => exact Nat.one_pos
  | cons byte bytes ih =>
    have bound := byte.toNat_lt
    rw [decode, List.length_cons, Nat.pow_succ']
    omega

/-- `memcpy` of a `uint64_t` out of `memory`, and the memory after it. -/
def readU64 (memory : List UInt8) : Outcome (Nat × List UInt8) :=
  if memory.length < 8 then .error .outside
  else .ok (decode (memory.take 8), memory.drop 8)

/-- `memcpy` of a `uint64_t` into a buffer. -/
def u64 (n : Nat) : List UInt8 := encode 8 n

@[simp] theorem u64_length (n : Nat) : (u64 n).length = 8 := encode_length 8 n

theorem readU64_append {n : Nat} (fits : n < 2 ^ 64) (rest : List UInt8) :
    readU64 (u64 n ++ rest) = .ok (n, rest) := by
  have long : ¬ (u64 n ++ rest).length < 8 := by simp
  rw [readU64, if_neg long, List.take_append_of_le_length (by simp), List.drop_append_of_le_length (by simp)]
  rw [List.take_of_length_le (by simp), List.drop_of_length_le (by simp), u64, decode_encode]
  rw [Nat.mod_eq_of_lt (by simpa using fits), List.nil_append]

theorem readU64_eq_ok {memory rest : List UInt8} {n : Nat} :
    readU64 memory = .ok (n, rest) ↔ memory = u64 n ++ rest ∧ n < 2 ^ 64 := by
  constructor
  · intro run
    rw [readU64] at run
    split at run
    · cases run
    · next long =>
      have eight : (memory.take 8).length = 8 := by
        rw [List.length_take]
        omega
      have whole := encode_decode (memory.take 8)
      have bound := decode_lt (memory.take 8)
      rw [eight] at whole bound
      cases run
      rw [u64, whole, List.take_append_drop]
      exact ⟨rfl, by simpa using bound⟩
  · rintro ⟨rfl, fits⟩
    exact readU64_append fits rest

end LittleEndian
