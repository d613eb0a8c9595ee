import DynamicRPC.Encode

namespace DynamicRPC
open List LittleEndian

/-- The record of an element is shorter than the buffer that holds it. -/
theorem Element.Wf.record_length_lt {e : Element} {types : List DrpcType} {t : DrpcType} (wf : e.Wf)
    (member : t ∈ types) (type : t.type = e.type) (holds : (drpcBuf e.record).length ≤ t.packedData.length) :
    e.record.packedData.length < (drpcTypesBuf types).length := by
  have bound := packedData_length_lt_of_mem member (.of_ne (by rw [type]; exact wf.type_ne_void))
  rw [drpcBuf_length wf.record_voidEmpty, DrpcType.buflen] at holds
  omega

theorem field_length_lt {fields : List (CString × Element)} {key : CString} {e : Element} (wf : e.Wf)
    (member : (key, e) ∈ fields) : e.record.packedData.length < (fieldsBuf fields).length := by
  refine wf.record_length_lt (List.mem_map_of_mem member) rfl ?_
  rw [fieldRecord, keyedRecord, List.length_append]
  exact Nat.le_add_left _ _

theorem item_length_lt {q : DQueue} {e : Element} (wf : e.Wf) (member : some e ∈ q) :
    e.record.packedData.length < (queueBuf q).length :=
  wf.record_length_lt (List.mem_map_of_mem member) rfl le_rfl

theorem take_eight_ne_zero {n : Nat} (positive : 0 < n) (fits : n < 2 ^ 64) (rest : List UInt8) :
    (u64 n ++ rest).take 8 ≠ u64 0 := by
  intro same
  have read := readU64_append fits rest
  have zero := readU64_append (n := 0) (by decide) ((u64 n ++ rest).drop 8)
  rw [← same, List.take_append_drop, read] at zero
  cases zero
  omega

section Buffers
variable {unpack : UInt8 → List UInt8 → Outcome Element}

/-- The body of the loop in `buf_d_struct`, at the record of a field. -/
theorem bufDStruct_field (d : DStruct Element) (key : CString) (e : Element) (nonvoid : e.type ≠ DrpcTypes.dVoid.toChar) :
    (if (fieldRecord (key, e)).type = DrpcTypes.dVoid.toChar then pure d
      else do
        let found ← CString.read (fieldRecord (key, e)).packedData
        let element ← unpack (fieldRecord (key, e)).type ((fieldRecord (key, e)).packedData.drop (found.bytes.length + 1))
        dStructInsert d found element) = unpack e.type (drpcBuf e.record) >>= dStructInsert d key := by
  have data : (fieldRecord (key, e)).packedData = key.bytes ++ 0 :: drpcBuf e.record := by
    simp [fieldRecord, keyedRecord, CString.block, Element.packedUp]
  have behind : (key.bytes ++ 0 :: drpcBuf e.record).drop (key.bytes.length + 1) = drpcBuf e.record := by
    rw [← List.singleton_append, ← List.append_assoc]
    exact List.drop_left' (by simp)
  rw [show (fieldRecord (key, e)).type = e.type from rfl, if_neg nonvoid, data, CString.read_append,
    Outcome.ok_bind, behind]

theorem bufDStructWith_eq {fields : List (CString × Element)}
    (types : ∀ key e, (key, e) ∈ fields → e.type ≠ DrpcTypes.dVoid.toChar)
    (fits : (fieldsBuf fields).length < 2 ^ 64) (rest : List UInt8) :
    bufDStructWith unpack (fieldsBuf fields ++ rest) newDStruct =
      fields.foldlM (fun d field => unpack field.2.type (drpcBuf field.2.record) >>= dStructInsert d field.1)
        newDStruct := by
  have long := length_le_drpcTypesBuf (fields.map fieldRecord)
  have voidEmpty : ∀ t ∈ fields.map fieldRecord, t.VoidEmpty := by
    intro t member
    obtain ⟨⟨key, e⟩, field, rfl⟩ := List.mem_map.mp member
    exact .of_ne (types key e field)
  rw [fieldsBuf] at fits ⊢
  rw [bufDStructWith, if_neg (by rw [List.length_append]; omega)]
  cases fields with
  | nil => rfl
  | cons field fields =>
    have head : ¬ (drpcTypesBuf ((field :: fields).map fieldRecord) ++ rest).take 8 = u64 0 := by
      rw [drpcTypesBuf, List.append_assoc]
      exact take_eight_ne_zero (by simp) (by omega) _
    rw [if_neg head, bufDrpcTypes_drpcTypesBuf voidEmpty fits, Outcome.ok_bind]
    dsimp only
    rw [List.foldlM_map]
    exact Outcome.foldlM_congr (fun entry member d => bufDStruct_field d entry.1 entry.2 (types _ _ member)) _

/-- Decoding a struct buffer inserts the decoded fields in the order of the
buffer, whatever follows it. -/
theorem bufDStructWith_fields {fields : List (CString × Element)} {decode : Element → Element}
    (types : ∀ key e, (key, e) ∈ fields → e.type ≠ DrpcTypes.dVoid.toChar)
    (unpacks : ∀ key e, (key, e) ∈ fields → unpack e.type (drpcBuf e.record) = .ok (decode e))
    (fits : (fieldsBuf fields).length < 2 ^ 64) (rest : List UInt8) :
    bufDStructWith unpack (fieldsBuf fields ++ rest) newDStruct =
      (fields.map (Prod.map id decode)).foldlM (fun d field => dStructInsert d field.1 field.2) newDStruct := by
  rw [bufDStructWith_eq types fits, List.foldlM_map]
  refine Outcome.foldlM_congr (fun entry member d => ?_) _
  rw [unpacks _ _ member]
  rfl

theorem bufDQueueWith_eq {q : DQueue} (full : none ∉ q)
    (types : ∀ e, some e ∈ q → e.type ≠ DrpcTypes.dVoid.toChar)
    (fits : (queueBuf q).length < 2 ^ 64) (rest : List UInt8) :
    bufDQueueWith unpack (queueBuf q ++ rest) [] = q.foldlM (fun sofar item => do
      let e := item.getD default
      let element ← unpack e.type (drpcBuf e.record)
      pure (queuePush sofar (some element))) [] := by
  have voidEmpty : ∀ t ∈ q.map fun item => queueRecord (item.map Element.packedUp), t.VoidEmpty := by
    intro t member
    obtain ⟨item, inside, rfl⟩ := List.mem_map.mp member
    cases item with
    | none => exact absurd inside full
    | some e => exact .of_ne (types e inside)
  rw [queueBuf] at fits ⊢
  rw [bufDQueueWith, bufDrpcTypes_drpcTypesBuf voidEmpty fits, Outcome.ok_bind]
  dsimp only
  rw [List.foldlM_map]
  refine Outcome.foldlM_congr (fun item member sofar => ?_) _
  cases item with
  | none => exact absurd member full
  | some e => exact if_neg (types e member)

/-- Decoding a queue buffer pushes the decoded items in order, whatever
follows it. -/
theorem bufDQueueWith_items {q : DQueue} {decode : Element → Element} (full : none ∉ q)
    (types : ∀ e, some e ∈ q → e.type ≠ DrpcTypes.dVoid.toChar)
    (unpacks : ∀ e, some e ∈ q → unpack e.type (drpcBuf e.record) = .ok (decode e))
    (fits : (queueBuf q).length < 2 ^ 64) (rest : List UInt8) :
    bufDQueueWith unpack (queueBuf q ++ rest) [] = .ok (q.map (Option.map decode)) := by
  rw [bufDQueueWith_eq full types fits, ← List.nil_append (q.map (Option.map decode))]
  clear types fits
  generalize ([] : DQueue) = sofar
  induction q generalizing sofar with
  | nil => simp
  | cons item q ih =>
    have tail := ih (fun member => full (List.mem_cons_of_mem _ member))
      (fun e member => unpacks e (List.mem_cons_of_mem _ member))
    cases item with
    | none => exact absurd (List.mem_cons_self ..) full
    | some e =>
      rw [List.foldlM_cons, Option.getD_some]
      dsimp only
      rw [unpacks e (List.mem_cons_self ..), Outcome.ok_bind, Outcome.pure_eq_ok, Outcome.ok_bind, tail, queuePush,
        List.append_assoc]
      rfl

end Buffers
end DynamicRPC
