import DynamicRPC.RoundTrip

namespace DynamicRPC
open List Outcome

section Fails
variable (unpack : UInt8 → List UInt8 → Outcome Element)

theorem bufDStructWith_fails {fields : List (CString × Element)} (wf : ∀ key e, (key, e) ∈ fields → e.Wf)
    (fits : (fieldsBuf fields).length < 2 ^ 64) {key : CString} {e : Element} (member : (key, e) ∈ fields)
    (fails : ¬ Returns (unpack e.type (drpcBuf e.record))) (rest : List UInt8) :
    ¬ Returns (bufDStructWith unpack (fieldsBuf fields ++ rest) newDStruct) := by
  rw [bufDStructWith_eq (fun key e member => (wf key e member).type_ne_void) fits]
  intro returns
  obtain ⟨d, step⟩ := foldlM_returns_at returns member
  obtain ⟨e', unpacked, _⟩ := returns_bind.mp step
  exact fails ⟨e', unpacked⟩

theorem bufDQueueWith_fails {q : DQueue} (full : none ∉ q) (wf : ∀ e, some e ∈ q → e.Wf)
    (fits : (queueBuf q).length < 2 ^ 64) {e : Element} (member : some e ∈ q)
    (fails : ¬ Returns (unpack e.type (drpcBuf e.record))) (rest : List UInt8) :
    ¬ Returns (bufDQueueWith unpack (queueBuf q ++ rest) []) := by
  rw [bufDQueueWith_eq full (fun e member => (wf e member).type_ne_void) fits]
  intro returns
  obtain ⟨sofar, step⟩ := foldlM_returns_at returns member
  obtain ⟨e', unpacked, _⟩ := returns_bind.mp step
  exact fails ⟨e', unpacked⟩

end Fails

/-- The buffer of a sparse array makes the decoder write outside its table; a
sparse array further down is met before. -/
theorem bufDArrayWith_fails {a : DArray Element} {fields : List (CString × Element)} (wf : (Element.array a).Wf)
    (sparse : ¬ (Element.array a).Dense) (order : fields ~ a.fields.map (Prod.map CString.sprintfZu id))
    (fits : (fieldsBuf fields).length < 2 ^ 64) {depth : Nat} (deep : (fieldsBuf fields).length ≤ depth)
    (children : ∀ e, .elem e ∈ a.lookupTable → e.Wf → ¬ e.Dense → e.record.packedData.length < (fieldsBuf fields).length →
      ¬ Returns (bufElement depth e.type (drpcBuf e.record))) (rest : List UInt8) :
    ¬ Returns (bufDArrayWith (bufElement depth) (fieldsBuf fields ++ rest)) := by
  have itemsWf : ∀ e, .elem e ∈ a.lookupTable → e.Wf := by
    cases wf with
    | array table items => exact items
  by_cases inner : ∀ e, .elem e ∈ a.lookupTable → e.Dense
  · have high : ¬ a.Dense := fun indices => sparse (.array indices inner)
    obtain ⟨i, e, held, bound⟩ := DArray.exists_high_of_not_dense high
    obtain ⟨packed, entries, decode, printed, perm, _, run⟩ := decode_printed wf order
      (fun e member wf small => wf.decoded (inner e member) small) fits
    have entry : (i, decode e) ∈ entries :=
      perm.mem_iff.mpr (List.mem_map.mpr ⟨(i, e), DArray.mem_fields.mpr held, rfl⟩)
    have length := perm.length_eq
    rw [List.length_map] at length
    rw [printed.bufDArrayWith_sparse (run depth rest deep) ⟨_, entry, by rw [length]; exact bound⟩]
    exact not_returns_error _
  · push Not at inner
    obtain ⟨e, member, holes⟩ := inner
    obtain ⟨i, at_i⟩ := List.mem_iff_getElem?.mp member
    have field : (CString.sprintfZu i, e) ∈ fields :=
      order.mem_iff.mpr (List.mem_map.mpr ⟨(i, e), mem_cellFields.mpr at_i, rfl⟩)
    have small := field_length_lt (itemsWf e member) field
    have fieldsWf : ∀ key e, (key, e) ∈ fields → e.Wf := fun key e inside => by
      obtain ⟨⟨j, _⟩, source, shape⟩ := List.mem_map.mp (order.mem_iff.mp inside)
      cases shape
      exact itemsWf _ (List.mem_of_getElem? (mem_cellFields.mp source))
    intro returns
    rw [bufDArrayWith] at returns
    obtain ⟨packed, run, _⟩ := returns_bind.mp returns
    exact bufDStructWith_fails _ fieldsWf fits field (children e member (itemsWf e member) holes small) rest
      ⟨packed, run⟩

theorem returns_map {α β : Type} {f : α → β} {x : Outcome α} : Returns (f <$> x) ↔ Returns x := by
  cases x <;> simp [Functor.map, Except.map]

/-- No element with a sparse array in it survives the trip. -/
theorem Element.Wf.sparse_fails {e : Element} (wf : e.Wf) (sparse : ¬ e.Dense)
    (fits : e.record.packedData.length < 2 ^ 64) {depth : Nat} (deep : e.record.packedData.length < depth)
    (rest : List UInt8) : ¬ Returns (bufElement depth e.type (drpcBuf e.record ++ rest)) := by
  induction e using Element.induct generalizing depth rest with
  | packed type data => exact absurd .packed sparse
  | str block => exact absurd .str sparse
  | sizedbuf block => exact absurd .sizedbuf sparse
  | dstruct d ih =>
    obtain ⟨depth, rfl⟩ := Nat.exists_eq_add_one_of_ne_zero (show depth ≠ 0 by omega)
    have record := Element.record_dstruct wf
    rw [bufElement_record wf fits, returns_map, record]
    rw [record] at fits deep
    cases wf with
    | dstruct table fields =>
      have hole : ∃ key e, (key, e) ∈ d.hashtable.bindings ∧ ¬ e.Dense := by
        by_contra all
        push Not at all
        exact sparse (.dstruct all)
      obtain ⟨key, e, member, holes⟩ := hole
      have small := field_length_lt (fields key e member) member
      have fails := bufDStructWith_fails (bufElement depth) fields fits member (fun returns =>
        ih key e member (fields key e member) holes (small.trans fits) (small.trans_le (Nat.lt_succ_iff.mp deep)) []
          (by rwa [List.append_nil])) []
      rwa [List.append_nil] at fails
  | queue q ih =>
    obtain ⟨depth, rfl⟩ := Nat.exists_eq_add_one_of_ne_zero (show depth ≠ 0 by omega)
    have record := Element.record_queue wf
    rw [bufElement_record wf fits, returns_map, record]
    rw [record] at fits deep
    cases wf with
    | queue full items =>
      have hole : ∃ e, some e ∈ q ∧ ¬ e.Dense := by
        by_contra all
        push Not at all
        exact sparse (.queue all)
      obtain ⟨e, member, holes⟩ := hole
      have small := item_length_lt (items e member) member
      have fails := bufDQueueWith_fails (bufElement depth) full items fits member (fun returns =>
        ih e member (items e member) holes (small.trans fits) (small.trans_le (Nat.lt_succ_iff.mp deep)) []
          (by rwa [List.append_nil])) []
      rwa [List.append_nil] at fails
  | array a ih =>
    obtain ⟨depth, rfl⟩ := Nat.exists_eq_add_one_of_ne_zero (show depth ≠ 0 by omega)
    obtain ⟨fields, order, buf⟩ := wf.dArrayBuf
    have record := Element.record_array buf
    rw [bufElement_record wf fits, returns_map, record]
    rw [record] at fits deep
    have fails := bufDArrayWith_fails wf sparse order fits (Nat.lt_succ_iff.mp deep) (fun e member wf holes small returns =>
      ih e member wf holes (small.trans fits) (small.trans_le (Nat.lt_succ_iff.mp deep)) []
        (by rwa [List.append_nil])) []
    rwa [List.append_nil] at fails

theorem bufDStruct_dense {d : DStruct Element} (wf : (Element.dstruct d).Wf)
    (fits : (fieldsBuf d.hashtable.bindings).length < 2 ^ 64) {rest : List UInt8}
    (returns : Returns (bufDStruct (fieldsBuf d.hashtable.bindings ++ rest) newDStruct)) : (Element.dstruct d).Dense := by
  cases wf with
  | dstruct table fields =>
    refine .dstruct fun key e member => ?_
    by_contra sparse
    have small := field_length_lt (fields key e member) member
    refine bufDStructWith_fails _ fields fits member (fun unpacked => ?_) rest returns
    refine (fields key e member).sparse_fails sparse (small.trans fits) (small.trans_le ?_) [] (by rwa [List.append_nil])
    rw [List.length_append]
    omega

/-- Decoding the buffer of an array returns exactly for the dense ones. -/
theorem bufDArray_returns_iff {a : DArray Element} {buf : List UInt8} (wf : (Element.array a).Wf)
    (encoded : dArrayBuf a = .ok (buf, a)) (fits : buf.length < 2 ^ 64) (rest : List UInt8) :
    Returns (bufDArray (buf ++ rest)) ↔ (Element.array a).Dense := by
  constructor
  · intro returns
    by_contra sparse
    obtain ⟨fields, order, run⟩ := wf.dArrayBuf
    rw [run] at encoded
    cases encoded
    have deep : (fieldsBuf fields).length ≤ (fieldsBuf fields ++ rest).length := by
      rw [List.length_append]
      omega
    refine bufDArrayWith_fails wf sparse order fits deep (fun e member wf holes small returns => ?_) rest returns
    exact wf.sparse_fails holes (small.trans fits) (small.trans_le deep) [] (by rwa [List.append_nil])
  · intro dense
    obtain ⟨a', _, run⟩ := DArray.roundTrip wf dense encoded fits
    exact ⟨a', run rest⟩

end DynamicRPC
