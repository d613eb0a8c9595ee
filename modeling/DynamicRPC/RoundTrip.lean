import DynamicRPC.DecodeArray

namespace DynamicRPC
open List LittleEndian

/-- The element that decoding a record builds: it means the same, is well
formed again, and does not depend on what follows the record in memory. -/
structure Element.Decoded (e e' : Element) : Prop where
  value : e'.value = e.value
  type : e'.type = e.type
  wf : e'.Wf
  dense : e'.Dense
  compact : e'.Compact
  run : ∀ depth rest, e.record.packedData.length < depth →
    bufElement depth e.type (drpcBuf e.record ++ rest) = .ok e'

theorem lookup_map_value {fields : List (CString × Element)} {decode : Element → Element}
    (values : ∀ key e, (key, e) ∈ fields → (decode e).value = e.value) (distinct : (fields.map Prod.fst).Nodup)
    (key : CString) : ((fields.map (Prod.map id decode)).lookup key).map Element.value =
      (fields.lookup key).map Element.value := by
  have keys : (fields.map (Prod.map id decode)).map Prod.fst = fields.map Prod.fst := by
    rw [List.map_map]
    rfl
  cases found : fields.lookup key with
  | none =>
    rw [Assoc.lookup_eq_none_iff_not_mem, ← keys, ← Assoc.lookup_eq_none_iff_not_mem] at found
    rw [found]
  | some e =>
    have member := (Assoc.lookup_eq_some_iff_mem distinct).mp found
    have decoded : (fields.map (Prod.map id decode)).lookup key = some (decode e) :=
      (Assoc.lookup_eq_some_iff_mem (by rwa [keys])).mpr (List.mem_map_of_mem member)
    rw [decoded, Option.map_some, Option.map_some, values key e member]

section Containers

/-- The struct that decoding a list of fields builds. -/
theorem decode_fields {fields : List (CString × Element)} {decode : Element → Element}
    (wf : ∀ key e, (key, e) ∈ fields → e.Wf)
    (decoded : ∀ key e, (key, e) ∈ fields → e.Decoded (decode e)) (distinct : (fields.map Prod.fst).Nodup)
    (fits : (fieldsBuf fields).length < 2 ^ 64) :
    ∃ d', DStruct.Filled (fields.map (Prod.map id decode)) d' ∧ ∀ depth rest, (fieldsBuf fields).length ≤ depth →
      bufDStructWith (bufElement depth) (fieldsBuf fields ++ rest) newDStruct = .ok d' := by
  have keys : ((fields.map (Prod.map id decode)).map Prod.fst).Nodup := by
    rw [List.map_map]
    exact distinct
  obtain ⟨d', fold, filled⟩ := DStruct.Filled.fold keys
  refine ⟨d', filled, fun depth rest deep => ?_⟩
  rw [bufDStructWith_fields (fun key e member => (wf key e member).type_ne_void) ?_ fits, fold]
  intro key e member
  have small := field_length_lt (wf key e member) member
  have run := (decoded key e member).run depth [] (by omega)
  rwa [List.append_nil] at run

/-- What decoding a struct gives: the same bindings in a table without
tombstones. -/
structure DStruct.Decoded (d d' : DStruct Element) : Prop where
  value : d'.value = d.value
  wf : (Element.dstruct d').Wf
  dense : (Element.dstruct d').Dense
  compact : (Element.dstruct d').Compact
  run : ∀ depth rest, (fieldsBuf d.hashtable.bindings).length ≤ depth →
    bufDStructWith (bufElement depth) (fieldsBuf d.hashtable.bindings ++ rest) newDStruct = .ok d'

theorem decode_dstruct {d : DStruct Element} (wf : (Element.dstruct d).Wf)
    (children : ∀ key e, (key, e) ∈ d.hashtable.bindings → e.Wf → e.record.packedData.length < 2 ^ 64 →
      ∃ e', e.Decoded e')
    (fits : (fieldsBuf d.hashtable.bindings).length < 2 ^ 64) : ∃ d', d.Decoded d' := by
  cases wf with
  | dstruct table fields =>
    have each : ∀ e, (∃ key, (key, e) ∈ d.hashtable.bindings) → ∃ e', e.Decoded e' := by
      rintro e ⟨key, member⟩
      exact children key e member (fields key e member) ((field_length_lt (fields key e member) member).trans fits)
    choose! decode chosen using each
    have decoded := fun key e (member : (key, e) ∈ d.hashtable.bindings) => chosen e ⟨key, member⟩
    obtain ⟨d', filled, run⟩ := decode_fields fields decoded table.table.keys_nodup fits
    have source : ∀ key e, (key, e) ∈ d'.hashtable.bindings →
        ∃ old, (key, old) ∈ d.hashtable.bindings ∧ e = decode old := fun key e member => by
      obtain ⟨⟨_, old⟩, inside, shape⟩ := List.mem_map.mp (filled.bindings.mem_iff.mp member)
      cases shape
      exact ⟨old, inside, rfl⟩
    refine ⟨d', ?_, .dstruct filled.wf fun key e member => ?_, .dstruct fun key e member => ?_,
      .dstruct filled.noDead fun key e member => ?_, run⟩
    · funext key
      rw [DStruct.value_eq, DStruct.value_eq, filled.lookup,
        lookup_map_value (fun key e member => (decoded key e member).value) table.table.keys_nodup]
      rfl
    · obtain ⟨old, inside, rfl⟩ := source key e member
      exact (decoded key old inside).wf
    · obtain ⟨old, inside, rfl⟩ := source key e member
      exact (decoded key old inside).dense
    · obtain ⟨old, inside, rfl⟩ := source key e member
      exact (decoded key old inside).compact

structure QueueDecoded (q q' : DQueue) : Prop where
  value : queueValue q' = queueValue q
  wf : (Element.queue q').Wf
  dense : (Element.queue q').Dense
  compact : (Element.queue q').Compact
  run : ∀ depth rest, (queueBuf q).length ≤ depth →
    bufDQueueWith (bufElement depth) (queueBuf q ++ rest) [] = .ok q'

theorem decode_queue {q : DQueue} (wf : (Element.queue q).Wf)
    (children : ∀ e, some e ∈ q → e.Wf → e.record.packedData.length < 2 ^ 64 → ∃ e', e.Decoded e')
    (fits : (queueBuf q).length < 2 ^ 64) : ∃ q', QueueDecoded q q' := by
  cases wf with
  | queue full items =>
    have each : ∀ e, some e ∈ q → ∃ e', e.Decoded e' := fun e member =>
      children e member (items e member) ((item_length_lt (items e member) member).trans fits)
    choose! decode decoded using each
    have source : ∀ e, some e ∈ q.map (Option.map decode) → ∃ old, some old ∈ q ∧ e = decode old := fun e member => by
      obtain ⟨item, inside, shape⟩ := List.mem_map.mp member
      obtain ⟨old, rfl, rfl⟩ := Option.map_eq_some_iff.mp shape
      exact ⟨old, inside, rfl⟩
    refine ⟨q.map (Option.map decode), ?_, .queue ?_ fun e member => ?_, .queue fun e member => ?_,
      .queue fun e member => ?_, fun depth rest deep => ?_⟩
    · rw [queueValue_eq, queueValue_eq, List.map_map]
      refine List.map_congr_left fun item member => ?_
      cases item with
      | none => rfl
      | some e => exact congrArg some (decoded e member).value
    · intro member
      obtain ⟨item, inside, shape⟩ := List.mem_map.mp member
      rw [Option.map_eq_none_iff] at shape
      exact full (shape ▸ inside)
    · obtain ⟨old, inside, rfl⟩ := source e member
      exact (decoded old inside).wf
    · obtain ⟨old, inside, rfl⟩ := source e member
      exact (decoded old inside).dense
    · obtain ⟨old, inside, rfl⟩ := source e member
      exact (decoded old inside).compact
    · refine bufDQueueWith_items full (fun e member => (items e member).type_ne_void) ?_ fits rest
      intro e member
      have small := item_length_lt (items e member) member
      have run := (decoded e member).run depth [] (by omega)
      rwa [List.append_nil] at run

structure DArray.Decoded (a a' : DArray Element) (buf : List UInt8) : Prop where
  value : a'.value = a.value
  wf : (Element.array a').Wf
  dense : (Element.array a').Dense
  compact : (Element.array a').Compact
  run : ∀ depth rest, buf.length ≤ depth → bufDArrayWith (bufElement depth) (buf ++ rest) = .ok a'

/-- The struct behind an array buffer holds the decoded elements under their
printed indices. -/
theorem decode_printed {a : DArray Element} {fields : List (CString × Element)} (wf : (Element.array a).Wf)
    (order : fields ~ a.fields.map (Prod.map CString.sprintfZu id))
    (children : ∀ e, .elem e ∈ a.lookupTable → e.Wf → e.record.packedData.length < 2 ^ 64 → ∃ e', e.Decoded e')
    (fits : (fieldsBuf fields).length < 2 ^ 64) :
    ∃ packed entries decode, Printed packed entries ∧ entries ~ a.fields.map (Prod.map id decode) ∧
      (∀ e, .elem e ∈ a.lookupTable → e.Decoded (decode e)) ∧ ∀ depth rest, (fieldsBuf fields).length ≤ depth →
        bufDStructWith (bufElement depth) (fieldsBuf fields ++ rest) newDStruct = .ok packed := by
  cases wf with
  | array table items =>
    have source : ∀ key e, (key, e) ∈ fields → .elem e ∈ a.lookupTable := fun key e member => by
      obtain ⟨⟨i, _⟩, inside, shape⟩ := List.mem_map.mp (order.mem_iff.mp member)
      cases shape
      exact List.mem_of_getElem? (mem_cellFields.mp inside)
    have each : ∀ e, .elem e ∈ a.lookupTable → ∃ e', e.Decoded e' := by
      intro e member
      obtain ⟨i, at_i⟩ := List.mem_iff_getElem?.mp member
      have inside : (CString.sprintfZu i, e) ∈ fields :=
        order.mem_iff.mpr (List.mem_map.mpr ⟨(i, e), mem_cellFields.mpr at_i, rfl⟩)
      exact children e member (items e member) ((field_length_lt (items e member) inside).trans fits)
    choose! decode decoded using each
    have distinct : (fields.map Prod.fst).Nodup := by
      rw [(order.map Prod.fst).nodup_iff, List.map_map,
        show Prod.fst ∘ Prod.map CString.sprintfZu (id : Element → Element) = CString.sprintfZu ∘ Prod.fst from rfl,
        ← List.map_map]
      exact a.fields_nodup.map CString.sprintfZu_injective
    obtain ⟨packed, filled, run⟩ := decode_fields (fun key e member => items e (source key e member))
      (fun key e member => decoded e (source key e member)) distinct fits
    have printed : packed.hashtable.bindings ~
        (a.fields.map (Prod.map id decode)).map (Prod.map CString.sprintfZu id) := by
      refine filled.bindings.trans ((order.map _).trans (List.Perm.of_eq ?_))
      rw [List.map_map, List.map_map]
      rfl
    have preimage := congrFun₂ (List.eq_map_comp_perm (Prod.map CString.sprintfZu (id : Element → Element)))
      packed.hashtable.bindings (a.fields.map (Prod.map id decode))
    obtain ⟨entries, bindings, perm⟩ := preimage.mpr printed
    refine ⟨packed, entries, decode, ⟨filled.wf, filled.room, bindings, fun entry member => ?_⟩, perm, decoded, run⟩
    obtain ⟨⟨i, e⟩, inside, rfl⟩ := List.mem_map.mp (perm.mem_iff.mp member)
    have occupied := DArray.lookup_isSome_lt (Option.isSome_iff_exists.mpr ⟨e, DArray.mem_fields.mp inside⟩)
    have allocated := table.allocated
    simp only [Prod.map_fst, id_eq]
    omega

theorem decode_array {a : DArray Element} {fields : List (CString × Element)} (wf : (Element.array a).Wf)
    (dense : a.Dense) (order : fields ~ a.fields.map (Prod.map CString.sprintfZu id))
    (children : ∀ e, .elem e ∈ a.lookupTable → e.Wf → e.record.packedData.length < 2 ^ 64 → ∃ e', e.Decoded e')
    (fits : (fieldsBuf fields).length < 2 ^ 64) : ∃ a', a.Decoded a' (fieldsBuf fields) := by
  obtain ⟨packed, entries, decode, printed, perm, decoded, run⟩ := decode_printed wf order children fits
  have length : entries.length = a.fields.length := by rw [perm.length_eq, List.length_map]
  have source : ∀ i e, (i, e) ∈ entries ↔ ∃ old, a.lookup i = some old ∧ decode old = e := by
    intro i e
    rw [perm.mem_iff, List.mem_map]
    constructor
    · rintro ⟨⟨_, old⟩, inside, shape⟩
      cases shape
      exact ⟨old, DArray.mem_fields.mp inside, rfl⟩
    · rintro ⟨old, held, rfl⟩
      exact ⟨(i, old), DArray.mem_fields.mpr held, rfl⟩
  have within : ∀ entry ∈ entries, entry.1 < entries.length := by
    rintro ⟨i, e⟩ member
    obtain ⟨old, held, _⟩ := (source i e).mp member
    rw [length]
    exact (dense.occupied_iff i).mp (Option.isSome_iff_exists.mpr ⟨old, held⟩)
  cases wf with
  | array table items =>
    have few : entries.length < 2 ^ 61 := by
      have bound := List.length_filterMap_le Cell.element a.lookupTable
      have same := congrArg List.length a.fields_elements
      have allocated := table.allocated
      rw [List.length_map] at same
      unfold DArray.elements at same
      unfold DArray.lookupSize at allocated
      omega
    obtain ⟨stored, counted, lookup⟩ := newDArray_storeAll printed.distinct within few
    have held : ∀ e, .elem e ∈ ((newDArray entries.length).storeAll entries).lookupTable →
        ∃ old, .elem old ∈ a.lookupTable ∧ decode old = e := by
      intro e member
      obtain ⟨i, at_i⟩ := List.mem_iff_getElem?.mp member
      obtain ⟨old, there, same⟩ := (source i e).mp ((lookup i e).mp (DArray.lookup_eq_some.mpr at_i))
      exact ⟨old, List.mem_of_getElem? (DArray.lookup_eq_some.mp there), same⟩
    have reads : ∀ i, ((newDArray entries.length).storeAll entries).lookup i = (a.lookup i).map decode := by
      intro i
      apply Option.ext
      intro e
      rw [lookup, source, Option.map_eq_some_iff]
    refine ⟨(newDArray entries.length).storeAll entries, ?_, .array stored fun e member => ?_,
      .array ⟨entries.length, fun i => ?_⟩ fun e member => ?_, .array counted fun e member => ?_, fun depth rest deep => ?_⟩
    · funext i
      rw [DArray.value_eq, DArray.value_eq, reads]
      cases there : a.lookup i with
      | none => rfl
      | some e =>
        exact congrArg some (decoded e (List.mem_of_getElem? (DArray.lookup_eq_some.mp there))).value
    · obtain ⟨old, inside, rfl⟩ := held e member
      exact (decoded old inside).wf
    · rw [reads, Option.isSome_map, dense.occupied_iff, length]
    · obtain ⟨old, inside, rfl⟩ := held e member
      exact (decoded old inside).dense
    · obtain ⟨old, inside, rfl⟩ := held e member
      exact (decoded old inside).compact
    · exact printed.bufDArrayWith_dense (run depth rest deep) within

end Containers

/-- The switch of the decoders at the record of an element. -/
theorem bufElement_record {e : Element} (wf : e.Wf) (fits : e.record.packedData.length < 2 ^ 64) (depth : Nat)
    (rest : List UInt8) : bufElement (depth + 1) e.type (drpcBuf e.record ++ rest) =
      match e with
      | .str _ => .ok (.str e.record.packedData)
      | .sizedbuf _ => .ok (.sizedbuf e.record.packedData)
      | .array _ => Element.array <$> bufDArrayWith (bufElement depth) e.record.packedData
      | .dstruct _ => Element.dstruct <$> bufDStructWith (bufElement depth) e.record.packedData newDStruct
      | .queue _ => Element.queue <$> bufDQueueWith (bufElement depth) e.record.packedData []
      | .packed type _ => .ok (.packed type e.record) := by
  rw [bufElement, bufDrpc_drpcBuf wf.record_voidEmpty fits, Outcome.ok_bind]
  dsimp only
  cases wf with
  | @packed t bytes sized =>
    have scalar : ∀ s : DrpcTypes, s.scalarWidth = none → (Element.packed t.toChar ⟨t.toChar, bytes⟩).type ≠ s.toChar := by
      intro s none_width same
      cases DrpcTypes.toChar_injective same
      rw [none_width] at sized
      cases sized
    rw [if_neg (scalar .dStr rfl), if_neg (scalar .dSizedbuf rfl), if_neg (scalar .dArray rfl),
      if_neg (scalar .dStruct rfl), if_neg (scalar .dQueue rfl)]
    rfl
  | str => rfl
  | sizedbuf => rfl
  | dstruct => rfl
  | queue => rfl
  | array => rfl

/-- Decoding the record of a well-formed element, however deep, gives an
element with the same meaning. The induction is on the containers. -/
theorem Element.Wf.decoded {e : Element} (wf : e.Wf) (dense : e.Dense) (fits : e.record.packedData.length < 2 ^ 64) :
    ∃ e', e.Decoded e' := by
  induction e using Element.induct with
  | packed type data =>
    refine ⟨.packed type data, rfl, rfl, wf, dense, .packed, fun depth rest deep => ?_⟩
    obtain ⟨depth, rfl⟩ := Nat.exists_eq_add_one_of_ne_zero (show depth ≠ 0 by omega)
    rw [bufElement_record wf fits, Element.record_packed]
  | str block =>
    cases wf with
    | str terminated =>
      obtain ⟨s, content, bytes⟩ := CString.read_terminated terminated
      have record := Element.record_str content
      refine ⟨.str s.block, ?_, rfl, .str (by simp [CString.block]), .str, .str, fun depth rest deep => ?_⟩
      · rw [Element.value, Element.value, CString.block, CString.takeWhile_append_nul, bytes]
      · obtain ⟨depth, rfl⟩ := Nat.exists_eq_add_one_of_ne_zero (show depth ≠ 0 by omega)
        rw [bufElement_record (.str terminated) fits, record]
        rfl
  | sizedbuf block =>
    refine ⟨.sizedbuf block, rfl, rfl, wf, dense, .sizedbuf, fun depth rest deep => ?_⟩
    obtain ⟨depth, rfl⟩ := Nat.exists_eq_add_one_of_ne_zero (show depth ≠ 0 by omega)
    rw [bufElement_record wf fits, Element.record_sizedbuf]
    rfl
  | dstruct d ih =>
    have record := Element.record_dstruct wf
    rw [record] at fits
    cases dense with
    | dstruct denseFields =>
      obtain ⟨d', result⟩ := decode_dstruct wf
        (fun key e member wf small => ih key e member wf (denseFields key e member) small) fits
      refine ⟨.dstruct d', congrArg Value.struct result.value, rfl, result.wf, result.dense, result.compact,
        fun depth rest deep => ?_⟩
      obtain ⟨depth, rfl⟩ := Nat.exists_eq_add_one_of_ne_zero (show depth ≠ 0 by omega)
      rw [record] at deep
      have run := result.run depth [] (Nat.lt_succ_iff.mp deep)
      rw [List.append_nil] at run
      rw [bufElement_record wf (by rw [record]; exact fits), record]
      exact congrArg (Element.dstruct <$> ·) run
  | queue q ih =>
    have record := Element.record_queue wf
    rw [record] at fits
    cases dense with
    | queue denseItems =>
      obtain ⟨q', result⟩ := decode_queue wf (fun e member wf small => ih e member wf (denseItems e member) small) fits
      refine ⟨.queue q', congrArg Value.queue result.value, rfl, result.wf, result.dense, result.compact,
        fun depth rest deep => ?_⟩
      obtain ⟨depth, rfl⟩ := Nat.exists_eq_add_one_of_ne_zero (show depth ≠ 0 by omega)
      rw [record] at deep
      have run := result.run depth [] (Nat.lt_succ_iff.mp deep)
      rw [List.append_nil] at run
      rw [bufElement_record wf (by rw [record]; exact fits), record]
      exact congrArg (Element.queue <$> ·) run
  | array a ih =>
    obtain ⟨fields, order, buf⟩ := wf.dArrayBuf
    have record := Element.record_array buf
    rw [record] at fits
    cases dense with
    | array indices denseItems =>
      obtain ⟨a', result⟩ := decode_array wf indices order
        (fun e member wf small => ih e member wf (denseItems e member) small) fits
      refine ⟨.array a', congrArg Value.array result.value, rfl, result.wf, result.dense, result.compact,
        fun depth rest deep => ?_⟩
      obtain ⟨depth, rfl⟩ := Nat.exists_eq_add_one_of_ne_zero (show depth ≠ 0 by omega)
      rw [record] at deep
      have run := result.run depth [] (Nat.lt_succ_iff.mp deep)
      rw [List.append_nil] at run
      rw [bufElement_record wf (by rw [record]; exact fits), record]
      exact congrArg (Element.array <$> ·) run

section Public
variable {d : DStruct Element} {q : DQueue} {a : DArray Element}

theorem DStruct.roundTrip (wf : (Element.dstruct d).Wf) (dense : (Element.dstruct d).Dense)
    (fits : (fieldsBuf d.hashtable.bindings).length < 2 ^ 64) :
    ∃ d', d.Decoded d' ∧ ∀ rest, bufDStruct (fieldsBuf d.hashtable.bindings ++ rest) newDStruct = .ok d' := by
  cases dense with
  | dstruct denseFields =>
    obtain ⟨d', result⟩ := decode_dstruct wf (fun key e member wf small => wf.decoded (denseFields key e member) small) fits
    exact ⟨d', result, fun rest => result.run _ rest (by rw [List.length_append]; omega)⟩

theorem queue_roundTrip (wf : (Element.queue q).Wf) (dense : (Element.queue q).Dense)
    (fits : (queueBuf q).length < 2 ^ 64) :
    ∃ q', QueueDecoded q q' ∧ ∀ rest, bufDQueue (queueBuf q ++ rest) [] = .ok q' := by
  cases dense with
  | queue denseItems =>
    obtain ⟨q', result⟩ := decode_queue wf (fun e member wf small => wf.decoded (denseItems e member) small) fits
    exact ⟨q', result, fun rest => result.run _ rest (by rw [List.length_append]; omega)⟩

theorem DArray.roundTrip {buf : List UInt8} (wf : (Element.array a).Wf) (dense : (Element.array a).Dense)
    (encoded : dArrayBuf a = .ok (buf, a)) (fits : buf.length < 2 ^ 64) :
    ∃ a', a.Decoded a' buf ∧ ∀ rest, bufDArray (buf ++ rest) = .ok a' := by
  obtain ⟨fields, order, run⟩ := wf.dArrayBuf
  rw [run] at encoded
  cases encoded
  cases dense with
  | array indices denseItems =>
    obtain ⟨a', result⟩ := decode_array wf indices order (fun e member wf small => wf.decoded (denseItems e member) small) fits
    exact ⟨a', result, fun rest => result.run _ rest (by rw [List.length_append]; omega)⟩

end Public

/-- Wire round trip: a container is encoded without being changed, and its
buffer, wherever it lies in memory, decodes to a container that means the same. -/
theorem codec_roundTrip {e : Element} (wf : e.Wf) (dense : e.Dense) :
    (∀ d, e = .dstruct d → ∃ buf, dStructBuf d = .ok (buf, d) ∧ (buf.length < 2 ^ 64 →
      ∃ d', d'.value = d.value ∧ ∀ rest, bufDStruct (buf ++ rest) newDStruct = .ok d')) ∧
    (∀ q, e = .queue q → ∃ buf, dQueueBuf q = .ok (buf, q) ∧ (buf.length < 2 ^ 64 →
      ∃ q', queueValue q' = queueValue q ∧ ∀ rest, bufDQueue (buf ++ rest) [] = .ok q')) ∧
    (∀ a, e = .array a → ∃ buf, dArrayBuf a = .ok (buf, a) ∧ (buf.length < 2 ^ 64 →
      ∃ a', a'.value = a.value ∧ ∀ rest, bufDArray (buf ++ rest) = .ok a')) := by
  refine ⟨?_, ?_, ?_⟩
  · rintro d rfl
    refine ⟨_, wf.dStructBuf, fun fits => ?_⟩
    obtain ⟨d', result, run⟩ := DStruct.roundTrip wf dense fits
    exact ⟨d', result.value, run⟩
  · rintro q rfl
    refine ⟨_, wf.dQueueBuf, fun fits => ?_⟩
    obtain ⟨q', result, run⟩ := queue_roundTrip wf dense fits
    exact ⟨q', result.value, run⟩
  · rintro a rfl
    obtain ⟨fields, _, encoded⟩ := wf.dArrayBuf
    refine ⟨_, encoded, fun fits => ?_⟩
    obtain ⟨a', result, run⟩ := DArray.roundTrip wf dense encoded fits
    exact ⟨a', result.value, run⟩

theorem codec_roundTrip_nested : ∃ buf,
    dArrayBuf ⟨1, [.elem (.queue [some (.str [104, 105, 0]), some (.packed 1 ⟨1, [7]⟩)])]⟩ =
      .ok (buf, ⟨1, [.elem (.queue [some (.str [104, 105, 0]), some (.packed 1 ⟨1, [7]⟩)])]⟩) ∧
    (buf.length < 2 ^ 64 → ∃ a' : DArray Element,
      a'.value = DArray.value ⟨1, [.elem (.queue [some (.str [104, 105, 0]), some (.packed 1 ⟨1, [7]⟩)])]⟩ ∧
      ∀ rest, bufDArray (buf ++ rest) = .ok a') := by
  refine (codec_roundTrip (.array ⟨by simp, by simp, by decide, by decide⟩ fun e member => ?_)
    (.array ⟨1, fun i => ?_⟩ fun e member => ?_)).2.2 _ rfl
  · cases List.mem_singleton.mp member
    refine .queue (by simp) fun e member => ?_
    rcases List.mem_cons.mp member with same | member
    · cases same
      exact .str (by decide)
    · cases List.mem_singleton.mp member
      exact @Element.Wf.packed .dInt8 [7] rfl
  · cases i <;> simp [DArray.lookup, Cell.element]
  · cases List.mem_singleton.mp member
    refine .queue fun e member => ?_
    rcases List.mem_cons.mp member with same | member
    · cases same
      exact .str
    · cases List.mem_singleton.mp member
      exact .packed

end DynamicRPC
