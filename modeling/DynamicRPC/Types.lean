import DynamicRPC.CString
import DynamicRPC.Library.LittleEndian

namespace DynamicRPC

/-- `enum drpc_types`; `d_char` is a second name of `d_int8`. -/
inductive DrpcTypes
  | dVoid | dInt8 | dUint8 | dInt16 | dUint16 | dInt32 | dUint32 | dInt64 | dUint64 | dFloat | dDouble
  | dStr | dSizedbuf | dArray | dStruct | dQueue
  | dFnstorage | dClientinfo | dInterfunc | dFninfo | dReturnIs
  deriving DecidableEq, Repr

namespace DrpcTypes

/-- The value of an enumerator, as stored in a `char type` field. -/
def toChar : DrpcTypes → UInt8
  | dVoid => 0 | dInt8 => 1 | dUint8 => 2 | dInt16 => 3 | dUint16 => 4 | dInt32 => 5 | dUint32 => 6
  | dInt64 => 7 | dUint64 => 8 | dFloat => 9 | dDouble => 10
  | dStr => 11 | dSizedbuf => 12 | dArray => 13 | dStruct => 14 | dQueue => 15
  | dFnstorage => 16 | dClientinfo => 17 | dInterfunc => 18 | dFninfo => 19 | dReturnIs => 20

theorem toChar_injective : Function.Injective toChar := by
  intro s t same
  cases s <;> cases t <;> first | rfl | exact absurd same (by decide)

/-- `sizeof` of the scalar types, the ones that `drpc_convert` packs. -/
def scalarWidth : DrpcTypes → Option Nat
  | dInt8 | dUint8 => some 1
  | dInt16 | dUint16 => some 2
  | dInt32 | dUint32 | dFloat => some 4
  | dInt64 | dUint64 | dDouble => some 8
  | _ => none

/-- The types that the switches of the getters read as scalars. -/
def scalars : List DrpcTypes := [dInt8, dUint8, dInt16, dUint16, dInt32, dUint32, dInt64, dUint64, dFloat, dDouble]

/-- The types that only exist on the server side of a prototype. -/
def isServerOnly : DrpcTypes → Bool
  | dFnstorage | dClientinfo | dInterfunc | dFninfo => true
  | _ => false

/-- The types that travel as pointers and are sent back after a call. -/
def isPointer : DrpcTypes → Bool
  | dStr | dSizedbuf | dArray | dStruct | dQueue => true
  | _ => false

end DrpcTypes

open LittleEndian

/-- `struct drpc_type`; its `len` is the length of `packedData`. -/
structure DrpcType where
  type : UInt8
  packedData : List UInt8
  deriving DecidableEq

/-- The width of the scalar that a getter reads for a type byte. -/
def charWidth (type : UInt8) : Option Nat :=
  (DrpcTypes.scalars.find? fun scalar => scalar.toChar = type).bind DrpcTypes.scalarWidth

theorem charWidth_toChar (type : DrpcTypes) : charWidth type.toChar = type.scalarWidth := by
  cases type <;> rfl

/-- `drpc_deconvert` copies as many bytes as the native type has. -/
def drpcDeconvert (data : DrpcType) (width : Nat) : Outcome (List UInt8) :=
  if data.packedData.length < width then .error .outside else pure (data.packedData.take width)

theorem drpcDeconvert_eq_ok {data : DrpcType} {width : Nat} {bytes : List UInt8} :
    drpcDeconvert data width = .ok bytes ↔ width ≤ data.packedData.length ∧ bytes = data.packedData.take width := by
  unfold drpcDeconvert
  split
  · next short => simp [short]
  · next whole => simp [not_lt.mp whole, eq_comm]

def DrpcType.buflen (t : DrpcType) : Nat := 1 + 8 + t.packedData.length

/-- `drpc_buf`: the type byte, the length and, but for `d_void`, the data. -/
def drpcBuf (t : DrpcType) : List UInt8 :=
  t.type :: u64 t.packedData.length ++ (if t.type = DrpcTypes.dVoid.toChar then [] else t.packedData)

/-- `buf_drpc`: a `d_void` record is skipped over without its length being read. -/
def bufDrpc (memory : List UInt8) : Outcome (DrpcType × List UInt8) :=
  match memory with
  | [] => .error .outside
  | type :: rest =>
    if type = DrpcTypes.dVoid.toChar then pure ({ type := type, packedData := [] }, rest.drop 8)
    else do
      let (len, rest) ← readU64 rest
      if rest.length < len then .error .outside
      else pure ({ type := type, packedData := rest.take len }, rest.drop len)

def drpcTypesBuf (types : List DrpcType) : List UInt8 :=
  u64 types.length ++ types.flatMap drpcBuf

def bufDrpcRecords : Nat → List UInt8 → Outcome (List DrpcType × List UInt8)
  | 0, memory => pure ([], memory)
  | count + 1, memory => do
    let (type, memory) ← bufDrpc memory
    let (types, memory) ← bufDrpcRecords count memory
    pure (type :: types, memory)

/-- `buf_drpc_types`, with the memory behind the records it has read. -/
def bufDrpcTypes (memory : List UInt8) : Outcome (List DrpcType × List UInt8) := do
  let (count, memory) ← readU64 memory
  bufDrpcRecords count memory

/-- A `d_void` record has length 0, as both `void_to_drpc` and `buf_drpc` make it. -/
def DrpcType.VoidEmpty (t : DrpcType) : Prop := t.type = DrpcTypes.dVoid.toChar → t.packedData = []

theorem DrpcType.VoidEmpty.of_ne {t : DrpcType} (nonvoid : t.type ≠ DrpcTypes.dVoid.toChar) : t.VoidEmpty :=
  fun void => absurd void nonvoid

theorem drpcBuf_length {t : DrpcType} (voidEmpty : t.VoidEmpty) : (drpcBuf t).length = t.buflen := by
  by_cases void : t.type = DrpcTypes.dVoid.toChar
  · simp [drpcBuf, DrpcType.buflen, voidEmpty void]
  · simp [drpcBuf, DrpcType.buflen, void]
    omega

theorem bufDrpc_drpcBuf {t : DrpcType} (voidEmpty : t.VoidEmpty) (fits : t.packedData.length < 2 ^ 64)
    (rest : List UInt8) : bufDrpc (drpcBuf t ++ rest) = .ok (t, rest) := by
  by_cases void : t.type = DrpcTypes.dVoid.toChar
  · have empty := voidEmpty void
    rw [drpcBuf, if_pos void]
    simp only [List.cons_append, List.append_assoc, bufDrpc]
    rw [if_pos void, List.nil_append, List.drop_left' (u64_length _), ← empty]
    rfl
  · rw [drpcBuf, if_neg void]
    simp only [List.cons_append, List.append_assoc, bufDrpc]
    rw [if_neg void, readU64_append fits]
    simp

theorem bufDrpcRecords_flatMap {types : List DrpcType} (voidEmpty : ∀ t ∈ types, t.VoidEmpty)
    (fits : ∀ t ∈ types, t.packedData.length < 2 ^ 64) (rest : List UInt8) :
    bufDrpcRecords types.length (types.flatMap drpcBuf ++ rest) = .ok (types, rest) := by
  induction types with
  | nil => rfl
  | cons t types ih =>
    have tail := ih (fun s member => voidEmpty s (List.mem_cons_of_mem _ member))
      (fun s member => fits s (List.mem_cons_of_mem _ member))
    rw [List.length_cons, List.flatMap_cons, List.append_assoc, bufDrpcRecords,
      bufDrpc_drpcBuf (voidEmpty t (List.mem_cons_self ..)) (fits t (List.mem_cons_self ..)), Outcome.ok_bind]
    dsimp only
    rw [tail]
    rfl

theorem drpcTypesBuf_length (types : List DrpcType) :
    (drpcTypesBuf types).length = 8 + (types.map fun t => (drpcBuf t).length).sum := by
  simp [drpcTypesBuf, List.length_flatMap]

theorem packedData_length_lt_of_mem {types : List DrpcType} {t : DrpcType} (member : t ∈ types)
    (voidEmpty : t.VoidEmpty) : t.packedData.length + 17 ≤ (drpcTypesBuf types).length := by
  have entry := List.single_le_sum (by simp) _ (List.mem_map.mpr ⟨t, member, rfl⟩ :
    (drpcBuf t).length ∈ types.map fun t => (drpcBuf t).length)
  rw [drpcBuf_length voidEmpty] at entry
  rw [drpcTypesBuf_length]
  unfold DrpcType.buflen at entry
  omega

theorem length_le_drpcTypesBuf (types : List DrpcType) : types.length + 8 ≤ (drpcTypesBuf types).length := by
  have each : types.length • 1 ≤ (types.map fun t => (drpcBuf t).length).sum := by
    have bound := List.card_nsmul_le_sum (types.map fun t => (drpcBuf t).length) 1 (by
      intro n member
      obtain ⟨t, _, rfl⟩ := List.mem_map.mp member
      simp [drpcBuf])
    simpa using bound
  rw [smul_eq_mul] at each
  rw [drpcTypesBuf_length]
  omega

/-- Reading back a buffer that fits the address space gives the same records
and stops where the buffer ends. -/
theorem bufDrpcTypes_drpcTypesBuf {types : List DrpcType} (voidEmpty : ∀ t ∈ types, t.VoidEmpty)
    (fits : (drpcTypesBuf types).length < 2 ^ 64) (rest : List UInt8) :
    bufDrpcTypes (drpcTypesBuf types ++ rest) = .ok (types, rest) := by
  have entries : ∀ t ∈ types, t.packedData.length < 2 ^ 64 := fun t member => by
    have bound := packedData_length_lt_of_mem member (voidEmpty t member)
    omega
  have few : types.length < 2 ^ 64 := by
    have bound := length_le_drpcTypesBuf types
    omega
  rw [bufDrpcTypes, drpcTypesBuf, List.append_assoc, readU64_append few, Outcome.ok_bind]
  exact bufDrpcRecords_flatMap voidEmpty entries rest

end DynamicRPC
