import DynamicRPC.Library.Outcome
import DynamicRPC.Library.Quad
import Mathlib.Data.Fintype.EquivFin

namespace DynamicRPC
open Outcome

/-! `aes.c` with `AES128`: four words in a key, ten rounds. -/

/-- A word of four bytes: a column of a state, or four bytes of a key. -/
abbrev AesWord := Quad UInt8

/-- `state_t`: `(*state)[i][j]` is byte `j` of column `i`. -/
abbrev StateT := Quad AesWord

def sbox : List UInt8 := [
  0x63, 0x7c, 0x77, 0x7b, 0xf2, 0x6b, 0x6f, 0xc5, 0x30, 0x01, 0x67, 0x2b, 0xfe, 0xd7, 0xab, 0x76,
  0xca, 0x82, 0xc9, 0x7d, 0xfa, 0x59, 0x47, 0xf0, 0xad, 0xd4, 0xa2, 0xaf, 0x9c, 0xa4, 0x72, 0xc0,
  0xb7, 0xfd, 0x93, 0x26, 0x36, 0x3f, 0xf7, 0xcc, 0x34, 0xa5, 0xe5, 0xf1, 0x71, 0xd8, 0x31, 0x15,
  0x04, 0xc7, 0x23, 0xc3, 0x18, 0x96, 0x05, 0x9a, 0x07, 0x12, 0x80, 0xe2, 0xeb, 0x27, 0xb2, 0x75,
  0x09, 0x83, 0x2c, 0x1a, 0x1b, 0x6e, 0x5a, 0xa0, 0x52, 0x3b, 0xd6, 0xb3, 0x29, 0xe3, 0x2f, 0x84,
  0x53, 0xd1, 0x00, 0xed, 0x20, 0xfc, 0xb1, 0x5b, 0x6a, 0xcb, 0xbe, 0x39, 0x4a, 0x4c, 0x58, 0xcf,
  0xd0, 0xef, 0xaa, 0xfb, 0x43, 0x4d, 0x33, 0x85, 0x45, 0xf9, 0x02, 0x7f, 0x50, 0x3c, 0x9f, 0xa8,
  0x51, 0xa3, 0x40, 0x8f, 0x92, 0x9d, 0x38, 0xf5, 0xbc, 0xb6, 0xda, 0x21, 0x10, 0xff, 0xf3, 0xd2,
  0xcd, 0x0c, 0x13, 0xec, 0x5f, 0x97, 0x44, 0x17, 0xc4, 0xa7, 0x7e, 0x3d, 0x64, 0x5d, 0x19, 0x73,
  0x60, 0x81, 0x4f, 0xdc, 0x22, 0x2a, 0x90, 0x88, 0x46, 0xee, 0xb8, 0x14, 0xde, 0x5e, 0x0b, 0xdb,
  0xe0, 0x32, 0x3a, 0x0a, 0x49, 0x06, 0x24, 0x5c, 0xc2, 0xd3, 0xac, 0x62, 0x91, 0x95, 0xe4, 0x79,
  0xe7, 0xc8, 0x37, 0x6d, 0x8d, 0xd5, 0x4e, 0xa9, 0x6c, 0x56, 0xf4, 0xea, 0x65, 0x7a, 0xae, 0x08,
  0xba, 0x78, 0x25, 0x2e, 0x1c, 0xa6, 0xb4, 0xc6, 0xe8, 0xdd, 0x74, 0x1f, 0x4b, 0xbd, 0x8b, 0x8a,
  0x70, 0x3e, 0xb5, 0x66, 0x48, 0x03, 0xf6, 0x0e, 0x61, 0x35, 0x57, 0xb9, 0x86, 0xc1, 0x1d, 0x9e,
  0xe1, 0xf8, 0x98, 0x11, 0x69, 0xd9, 0x8e, 0x94, 0x9b, 0x1e, 0x87, 0xe9, 0xce, 0x55, 0x28, 0xdf,
  0x8c, 0xa1, 0x89, 0x0d, 0xbf, 0xe6, 0x42, 0x68, 0x41, 0x99, 0x2d, 0x0f, 0xb0, 0x54, 0xbb, 0x16]

def rsbox : List UInt8 := [
  0x52, 0x09, 0x6a, 0xd5, 0x30, 0x36, 0xa5, 0x38, 0xbf, 0x40, 0xa3, 0x9e, 0x81, 0xf3, 0xd7, 0xfb,
  0x7c, 0xe3, 0x39, 0x82, 0x9b, 0x2f, 0xff, 0x87, 0x34, 0x8e, 0x43, 0x44, 0xc4, 0xde, 0xe9, 0xcb,
  0x54, 0x7b, 0x94, 0x32, 0xa6, 0xc2, 0x23, 0x3d, 0xee, 0x4c, 0x95, 0x0b, 0x42, 0xfa, 0xc3, 0x4e,
  0x08, 0x2e, 0xa1, 0x66, 0x28, 0xd9, 0x24, 0xb2, 0x76, 0x5b, 0xa2, 0x49, 0x6d, 0x8b, 0xd1, 0x25,
  0x72, 0xf8, 0xf6, 0x64, 0x86, 0x68, 0x98, 0x16, 0xd4, 0xa4, 0x5c, 0xcc, 0x5d, 0x65, 0xb6, 0x92,
  0x6c, 0x70, 0x48, 0x50, 0xfd, 0xed, 0xb9, 0xda, 0x5e, 0x15, 0x46, 0x57, 0xa7, 0x8d, 0x9d, 0x84,
  0x90, 0xd8, 0xab, 0x00, 0x8c, 0xbc, 0xd3, 0x0a, 0xf7, 0xe4, 0x58, 0x05, 0xb8, 0xb3, 0x45, 0x06,
  0xd0, 0x2c, 0x1e, 0x8f, 0xca, 0x3f, 0x0f, 0x02, 0xc1, 0xaf, 0xbd, 0x03, 0x01, 0x13, 0x8a, 0x6b,
  0x3a, 0x91, 0x11, 0x41, 0x4f, 0x67, 0xdc, 0xea, 0x97, 0xf2, 0xcf, 0xce, 0xf0, 0xb4, 0xe6, 0x73,
  0x96, 0xac, 0x74, 0x22, 0xe7, 0xad, 0x35, 0x85, 0xe2, 0xf9, 0x37, 0xe8, 0x1c, 0x75, 0xdf, 0x6e,
  0x47, 0xf1, 0x1a, 0x71, 0x1d, 0x29, 0xc5, 0x89, 0x6f, 0xb7, 0x62, 0x0e, 0xaa, 0x18, 0xbe, 0x1b,
  0xfc, 0x56, 0x3e, 0x4b, 0xc6, 0xd2, 0x79, 0x20, 0x9a, 0xdb, 0xc0, 0xfe, 0x78, 0xcd, 0x5a, 0xf4,
  0x1f, 0xdd, 0xa8, 0x33, 0x88, 0x07, 0xc7, 0x31, 0xb1, 0x12, 0x10, 0x59, 0x27, 0x80, 0xec, 0x5f,
  0x60, 0x51, 0x7f, 0xa9, 0x19, 0xb5, 0x4a, 0x0d, 0x2d, 0xe5, 0x7a, 0x9f, 0x93, 0xc9, 0x9c, 0xef,
  0xa0, 0xe0, 0x3b, 0x4d, 0xae, 0x2a, 0xf5, 0xb0, 0xc8, 0xeb, 0xbb, 0x3c, 0x83, 0x53, 0x99, 0x61,
  0x17, 0x2b, 0x04, 0x7e, 0xba, 0x77, 0xd6, 0x26, 0xe1, 0x69, 0x14, 0x63, 0x55, 0x21, 0x0c, 0x7d]

def rcon : List UInt8 := [0x8d, 0x01, 0x02, 0x04, 0x08, 0x10, 0x20, 0x40, 0x80, 0x1b, 0x36]

def getSBoxValue (num : UInt8) : UInt8 := sbox.getD num.toNat 0

def getSBoxInvert (num : UInt8) : UInt8 := rsbox.getD num.toNat 0

/-- Word `i` of the round keys. -/
def roundKeyWord (roundKey : List AesWord) (i : Nat) : AesWord := roundKey.getD i ⟨0, 0, 0, 0⟩

/-- `RotWord`. -/
def rotWord (tempa : AesWord) : AesWord := ⟨tempa.x1, tempa.x2, tempa.x3, tempa.x0⟩

/-- `SubWord`. -/
def subWord (tempa : AesWord) : AesWord := tempa.map getSBoxValue

/-- The round of the loop in `KeyExpansion` that appends word `i`. -/
def keyExpansionStep (roundKey : List AesWord) (i : Nat) : List AesWord :=
  let tempa := roundKeyWord roundKey (i - 1)
  let tempa := if i % 4 = 0 then
      let tempa := subWord (rotWord tempa)
      { tempa with x0 := tempa.x0 ^^^ rcon.getD (i / 4) 0 }
    else tempa
  roundKey ++ [(roundKeyWord roundKey (i - 4)).add tempa]

/-- `KeyExpansion`, from the four words of the key to all of the 44. -/
def keyExpansion (key : StateT) : List AesWord := (List.range' 4 40).foldl keyExpansionStep key.toList

def addRoundKey (round : Nat) (state : StateT) (roundKey : List AesWord) : StateT :=
  ⟨state.x0.add (roundKeyWord roundKey (round * 4)), state.x1.add (roundKeyWord roundKey (round * 4 + 1)),
    state.x2.add (roundKeyWord roundKey (round * 4 + 2)), state.x3.add (roundKeyWord roundKey (round * 4 + 3))⟩

def subBytes (state : StateT) : StateT := state.map (·.map getSBoxValue)

/-- Row `j` moves `j` columns to the left. -/
def shiftRows (s : StateT) : StateT :=
  ⟨⟨s.x0.x0, s.x1.x1, s.x2.x2, s.x3.x3⟩, ⟨s.x1.x0, s.x2.x1, s.x3.x2, s.x0.x3⟩,
    ⟨s.x2.x0, s.x3.x1, s.x0.x2, s.x1.x3⟩, ⟨s.x3.x0, s.x0.x1, s.x1.x2, s.x2.x3⟩⟩

/-- Bit `i` of a byte, as a byte. -/
def bitAt (y : UInt8) (i : UInt8) : UInt8 := (y >>> i) &&& 1

def xtime (x : UInt8) : UInt8 := x <<< 1 ^^^ bitAt x 7 * 0x1b

/-- What the loop of `MixColumns` does to one column. -/
def mixColumn (s : AesWord) : AesWord :=
  let t := s.x0
  let tmp := s.x0 ^^^ s.x1 ^^^ s.x2 ^^^ s.x3
  ⟨s.x0 ^^^ (xtime (s.x0 ^^^ s.x1) ^^^ tmp), s.x1 ^^^ (xtime (s.x1 ^^^ s.x2) ^^^ tmp),
    s.x2 ^^^ (xtime (s.x2 ^^^ s.x3) ^^^ tmp), s.x3 ^^^ (xtime (s.x3 ^^^ t) ^^^ tmp)⟩

def mixColumns (state : StateT) : StateT := state.map mixColumn

/-- `Multiply`. -/
def multiply (x y : UInt8) : UInt8 :=
  bitAt y 0 * x ^^^ bitAt y 1 * xtime x ^^^ bitAt y 2 * xtime (xtime x) ^^^ bitAt y 3 * xtime (xtime (xtime x)) ^^^
    bitAt y 4 * xtime (xtime (xtime (xtime x)))

/-- What the loop of `InvMixColumns` does to one column. -/
def invMixColumn (s : AesWord) : AesWord :=
  let a := s.x0
  let b := s.x1
  let c := s.x2
  let d := s.x3
  ⟨multiply a 0x0e ^^^ multiply b 0x0b ^^^ multiply c 0x0d ^^^ multiply d 0x09,
    multiply a 0x09 ^^^ multiply b 0x0e ^^^ multiply c 0x0b ^^^ multiply d 0x0d,
    multiply a 0x0d ^^^ multiply b 0x09 ^^^ multiply c 0x0e ^^^ multiply d 0x0b,
    multiply a 0x0b ^^^ multiply b 0x0d ^^^ multiply c 0x09 ^^^ multiply d 0x0e⟩

def invMixColumns (state : StateT) : StateT := state.map invMixColumn

def invSubBytes (state : StateT) : StateT := state.map (·.map getSBoxInvert)

/-- Row `j` moves `j` columns to the right. -/
def invShiftRows (s : StateT) : StateT :=
  ⟨⟨s.x0.x0, s.x3.x1, s.x2.x2, s.x1.x3⟩, ⟨s.x1.x0, s.x0.x1, s.x3.x2, s.x2.x3⟩,
    ⟨s.x2.x0, s.x1.x1, s.x0.x2, s.x3.x3⟩, ⟨s.x3.x0, s.x2.x1, s.x1.x2, s.x0.x3⟩⟩

/-- The loop of `Cipher` from `round` on, where `left` rounds come before the last. -/
def cipherRounds (roundKey : List AesWord) (round : Nat) (state : StateT) : Nat → StateT
  | 0 => shiftRows (subBytes state)
  | left + 1 =>
    cipherRounds roundKey (round + 1) (addRoundKey round (mixColumns (shiftRows (subBytes state))) roundKey) left

def cipher (state : StateT) (roundKey : List AesWord) : StateT :=
  addRoundKey 10 (cipherRounds roundKey 1 (addRoundKey 0 state roundKey) 9) roundKey

/-- The loop of `InvCipher` from `round` down. -/
def invCipherRounds (roundKey : List AesWord) (state : StateT) : Nat → StateT
  | 0 => addRoundKey 0 (invSubBytes (invShiftRows state)) roundKey
  | round + 1 =>
    invCipherRounds roundKey
      (invMixColumns (addRoundKey (round + 1) (invSubBytes (invShiftRows state)) roundKey)) round

def invCipher (state : StateT) (roundKey : List AesWord) : StateT :=
  invCipherRounds roundKey (addRoundKey 10 state roundKey) 9

theorem forall_byte {P : UInt8 → Prop} (all : ∀ n : Fin 256, P (UInt8.ofFin n)) (x : UInt8) : P x := all x.toFin

theorem getSBoxInvert_getSBoxValue : ∀ x, getSBoxInvert (getSBoxValue x) = x := forall_byte (by decide +kernel)

theorem bitAt_seven (x : UInt8) : bitAt x 7 = 0 ∨ bitAt x 7 = 1 := by
  revert x
  exact forall_byte (by decide +kernel)

theorem bitAt_xor (x y i : UInt8) : bitAt (x ^^^ y) i = bitAt x i ^^^ bitAt y i := by
  unfold bitAt
  rw [UInt8.shiftRight_xor]
  apply UInt8.toBitVec_inj.mp
  simp only [UInt8.toBitVec_and, UInt8.toBitVec_xor]
  ext k
  simp only [BitVec.getElem_and, BitVec.getElem_xor, Bool.and_xor_distrib_right]

/-- `xtime` is linear: the shift is, and so is the bit that it carries out. -/
theorem xtime_xor (x y : UInt8) : xtime (x ^^^ y) = xtime x ^^^ xtime y := by
  have carry : (bitAt x 7 ^^^ bitAt y 7) * 0x1b = bitAt x 7 * 0x1b ^^^ bitAt y 7 * 0x1b := by
    rcases bitAt_seven x with zero | one <;> rcases bitAt_seven y with zero' | one' <;> simp [*]
  unfold xtime
  rw [UInt8.shiftLeft_xor, bitAt_xor, carry]
  ac_rfl

@[simp] theorem xtime_zero : xtime 0 = 0 := rfl

section Multiply
variable (x y z : UInt8)

theorem multiply_0e : multiply x 0x0e = xtime x ^^^ xtime (xtime x) ^^^ xtime (xtime (xtime x)) := by
  simp [multiply, show bitAt 0x0e 0 = 0 from rfl, show bitAt 0x0e 1 = 1 from rfl, show bitAt 0x0e 2 = 1 from rfl,
    show bitAt 0x0e 3 = 1 from rfl, show bitAt 0x0e 4 = 0 from rfl]

theorem multiply_0b : multiply x 0x0b = x ^^^ xtime x ^^^ xtime (xtime (xtime x)) := by
  simp [multiply, show bitAt 0x0b 0 = 1 from rfl, show bitAt 0x0b 1 = 1 from rfl, show bitAt 0x0b 2 = 0 from rfl,
    show bitAt 0x0b 3 = 1 from rfl, show bitAt 0x0b 4 = 0 from rfl]

theorem multiply_0d : multiply x 0x0d = x ^^^ xtime (xtime x) ^^^ xtime (xtime (xtime x)) := by
  simp [multiply, show bitAt 0x0d 0 = 1 from rfl, show bitAt 0x0d 1 = 0 from rfl, show bitAt 0x0d 2 = 1 from rfl,
    show bitAt 0x0d 3 = 1 from rfl, show bitAt 0x0d 4 = 0 from rfl]

theorem multiply_09 : multiply x 0x09 = x ^^^ xtime (xtime (xtime x)) := by
  simp [multiply, show bitAt 0x09 0 = 1 from rfl, show bitAt 0x09 1 = 0 from rfl, show bitAt 0x09 2 = 0 from rfl,
    show bitAt 0x09 3 = 1 from rfl, show bitAt 0x09 4 = 0 from rfl]

theorem xor_left_comm : x ^^^ (y ^^^ z) = y ^^^ (x ^^^ z) := by
  ac_rfl

@[simp] theorem xor_cancel_left : x ^^^ (x ^^^ y) = y := by
  rw [← UInt8.xor_assoc, UInt8.xor_self, UInt8.zero_xor]

end Multiply

theorem mixColumn_linear : Quad.Linear mixColumn := by
  intro p q
  ext : 1 <;> simp only [mixColumn, Quad.add, Quad.zipWith, xtime_xor] <;> ac_rfl

theorem invMixColumn_linear : Quad.Linear invMixColumn := by
  intro p q
  ext : 1 <;>
    simp only [invMixColumn, Quad.add, Quad.zipWith, multiply_0e, multiply_0b, multiply_0d, multiply_09, xtime_xor] <;>
    ac_rfl

/-- The column maps undo each other: they do so for a column with one byte,
where the powers of `xtime` cancel. -/
theorem invMixColumn_mixColumn (s : AesWord) : invMixColumn (mixColumn s) = s := by
  refine (invMixColumn_linear.comp mixColumn_linear).eq_self ?_ ?_ ?_ ?_ s <;> intro x <;>
    simp [Function.comp_apply, mixColumn, invMixColumn, multiply_0e, multiply_0b, multiply_0d, multiply_09, xtime_xor,
      UInt8.xor_comm, xor_left_comm]

theorem invMixColumns_mixColumns (state : StateT) : invMixColumns (mixColumns state) = state :=
  Quad.map_id_of invMixColumn_mixColumn state

theorem invSubBytes_subBytes (state : StateT) : invSubBytes (subBytes state) = state :=
  Quad.map_id_of (Quad.map_id_of getSBoxInvert_getSBoxValue) state

theorem invShiftRows_shiftRows (state : StateT) : invShiftRows (shiftRows state) = state := rfl

theorem addRoundKey_addRoundKey (round : Nat) (state : StateT) (roundKey : List AesWord) :
    addRoundKey round (addRoundKey round state roundKey) roundKey = state := by
  ext : 1 <;> exact Quad.add_add_cancel ..

/-- What the loop of `InvCipher` makes of the state in which the loop of `Cipher`
ends: the rounds come off from the last one on. -/
theorem invCipherRounds_cipherRounds (roundKey : List AesWord) (left round : Nat) (state : StateT) :
    invCipherRounds roundKey (cipherRounds roundKey (round + 1) state left) (round + left) =
      invCipherRounds roundKey (shiftRows (subBytes state)) round := by
  induction left generalizing round state with
  | zero => rfl
  | succ left ih =>
    have rest := ih (round + 1) (addRoundKey (round + 1) (mixColumns (shiftRows (subBytes state))) roundKey)
    rw [show round + 1 + left = round + (left + 1) by omega] at rest
    rw [cipherRounds, rest, invCipherRounds, invShiftRows_shiftRows, invSubBytes_subBytes, addRoundKey_addRoundKey,
      invMixColumns_mixColumns]

/-- `InvCipher` undoes `Cipher`, under any round keys. -/
theorem invCipher_cipher (state : StateT) (roundKey : List AesWord) :
    invCipher (cipher state roundKey) roundKey = state := by
  have rounds := invCipherRounds_cipherRounds roundKey 9 0 (addRoundKey 0 state roundKey)
  rw [Nat.zero_add, Nat.zero_add] at rounds
  rw [invCipher, cipher, addRoundKey_addRoundKey, rounds, invCipherRounds, invShiftRows_shiftRows,
    invSubBytes_subBytes, addRoundKey_addRoundKey]

/-- No two states have one plain text: there are finitely many, and each is a plain text. -/
theorem invCipher_injective (roundKey : List AesWord) : Function.Injective (invCipher · roundKey) :=
  Finite.injective_iff_surjective.mpr fun state => ⟨cipher state roundKey, invCipher_cipher state roundKey⟩

/-- `Cipher` undoes `InvCipher` too. -/
theorem cipher_invCipher (state : StateT) (roundKey : List AesWord) :
    cipher (invCipher state roundKey) roundKey = state :=
  invCipher_injective roundKey (invCipher_cipher _ roundKey)

/-- A word for each of the four columns, for each of the ten rounds and the start. -/
theorem keyExpansion_length (key : StateT) : (keyExpansion key).length = 44 := by
  have grows (indices : List Nat) (roundKey : List AesWord) :
      (indices.foldl keyExpansionStep roundKey).length = roundKey.length + indices.length := by
    induction indices generalizing roundKey with
    | nil => rfl
    | cons i indices ih =>
      rw [List.foldl_cons, ih, keyExpansionStep, List.length_append]
      simp only [List.length_cons, List.length_nil]
      omega
  rw [keyExpansion, grows]
  rfl

/-- The first vector of the comment at the head of `aes.c`. -/
example : cipher ⟨⟨0x6b, 0xc1, 0xbe, 0xe2⟩, ⟨0x2e, 0x40, 0x9f, 0x96⟩, ⟨0xe9, 0x3d, 0x7e, 0x11⟩, ⟨0x73, 0x93, 0x17, 0x2a⟩⟩
    (keyExpansion
      ⟨⟨0x2b, 0x7e, 0x15, 0x16⟩, ⟨0x28, 0xae, 0xd2, 0xa6⟩, ⟨0xab, 0xf7, 0x15, 0x88⟩, ⟨0x09, 0xcf, 0x4f, 0x3c⟩⟩) =
    ⟨⟨0x3a, 0xd7, 0x7b, 0xb4⟩, ⟨0x0d, 0x7a, 0x36, 0x60⟩, ⟨0xa8, 0x9e, 0xca, 0xf3⟩, ⟨0x24, 0x66, 0xef, 0x97⟩⟩ := by
  decide +kernel

end DynamicRPC
