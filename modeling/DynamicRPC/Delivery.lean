import DynamicRPC.AesCbc
import DynamicRPC.StructRuns

namespace DynamicRPC
open Outcome LittleEndian

/-! A message between two ends that hold a key each. -/

/-- A message whose payload a peer can decode, and that fits into a frame with
its padding. -/
structure DrpcMessage.Sendable (msg : DrpcMessage) : Prop where
  wf : ∀ d, msg.message = some d → (Element.dstruct d).Wf
  dense : ∀ d, msg.message = some d → (Element.dstruct d).Dense
  fits : (fieldsBuf (messageFields msg)).length ≤ 2 ^ 64 - 16

theorem fieldsBuf_perm_length {fields others : List (CString × Element)} (perm : fields.Perm others) :
    (fieldsBuf fields).length = (fieldsBuf others).length := by
  unfold fieldsBuf
  rw [drpcTypesBuf_length, drpcTypesBuf_length, List.map_map, List.map_map, (perm.map _).sum_eq]

theorem drpcBuf_length_le (t : DrpcType) : (drpcBuf t).length ≤ 9 + t.packedData.length := by
  unfold drpcBuf
  rw [List.length_append, List.length_cons, u64_length]
  split
  · rw [List.length_nil]
    omega
  · omega

/-- The bytes that the fields of a struct take at most. -/
theorem fieldsBuf_length_le (fields : List (CString × Element)) : (fieldsBuf fields).length ≤
    8 + (fields.map fun field => 19 + field.1.bytes.length + field.2.record.packedData.length).sum := by
  unfold fieldsBuf
  rw [drpcTypesBuf_length, List.map_map]
  refine Nat.add_le_add_left (List.sum_le_sum fun field _ => ?_) 8
  have outer := drpcBuf_length_le (fieldRecord field)
  have inner := drpcBuf_length_le field.2.record
  have record : (fieldRecord field).packedData.length = field.1.bytes.length + 1 + (drpcBuf field.2.record).length := by
    simp only [fieldRecord, keyedRecord, CString.block, Element.packedUp, List.length_append, List.length_singleton]
  rw [Function.comp_apply]
  omega

/-- A message with a payload of that size fits. -/
theorem sendable_fits (type : DrpcProtocol) {d : DStruct Element} (wf : (Element.dstruct d).Wf)
    (small : (fieldsBuf d.hashtable.bindings).length < 2 ^ 63) :
    (fieldsBuf (messageFields ⟨type, some d⟩)).length ≤ 2 ^ 64 - 16 := by
  refine (fieldsBuf_length_le _).trans ?_
  have first : (CString.ofString "message_type").bytes.length = 12 := by decide
  have second : (CString.ofString "message").bytes.length = 7 := by decide
  simp only [messageFields, Option.toList_some, List.map_cons, List.map_nil, List.sum_cons, List.sum_nil,
    Element.record_packed, Element.record_dstruct wf, dStructToDrpc, first, second, List.length_singleton]
  omega

theorem sendable_struct (type : DrpcProtocol) {d : DStruct Element} (wf : (Element.dstruct d).Wf)
    (dense : (Element.dstruct d).Dense) (small : (fieldsBuf d.hashtable.bindings).length < 2 ^ 63) :
    DrpcMessage.Sendable ⟨type, some d⟩ where
  wf d' carried := by
    cases carried
    exact wf
  dense d' carried := by
    cases carried
    exact dense
  fits := sendable_fits type wf small

theorem sendable_plain (type : DrpcProtocol) : DrpcMessage.Sendable ⟨type, none⟩ where
  wf d' carried := by cases carried
  dense d' carried := by cases carried
  fits := by
    refine (fieldsBuf_length_le _).trans ?_
    have first : (CString.ofString "message_type").bytes.length = 12 := by decide
    simp only [messageFields, Option.toList_none, List.map_nil, List.map_cons, List.sum_cons, List.sum_nil,
      Element.record_packed, first, List.length_singleton]
    omega

section Container
variable {msg : DrpcMessage} {container : DStruct Element}

theorem DStruct.Filled.messageDense (filled : container.Filled (messageFields msg))
    (dense : ∀ d, msg.message = some d → (Element.dstruct d).Dense) : (Element.dstruct container).Dense := by
  refine .dstruct fun key e member => ?_
  obtain same | payload := List.mem_cons.mp (filled.bindings.mem_iff.mp member)
  · cases same
    exact .packed
  · obtain ⟨d, inside, same⟩ := List.mem_map.mp payload
    cases same
    exact dense d (Option.mem_toList.mp inside)

end Container

/-- Whatever is sent under a key arrives at an end with the same key. -/
theorem drpcTcpDeliver_delivers (aes : Option Aes) {msg : DrpcMessage} (sendable : msg.Sendable) :
    ∃ got, drpcTcpDeliver aes msg = .ok (some got) ∧ msg.Arrives got := by
  obtain ⟨container, packed, filled⟩ := drpcSendMessage_filled msg
  have wf := filled.messageWf sendable.wf
  have length := fieldsBuf_perm_length filled.bindings
  have fits := sendable.fits
  have small : (fieldsBuf container.hashtable.bindings).length < 2 ^ 64 := by omega
  obtain ⟨arrived, decoded, run⟩ := DStruct.roundTrip wf (filled.messageDense sendable.dense) small
  obtain ⟨got, received, arrives⟩ := drpcRecvMessage_decoded filled decoded
  obtain ⟨stream, sends⟩ := drpcTcpSendMessage_sends aes wf (length.trans_le fits)
  have receives : drpcTcpRecvMessage aes stream = .ok (some arrived) := by
    obtain ⟨padding, blocks, short, rfl⟩ := drpcTcpSendMessage_inv wf sends
    have frame := drpcTcpRecvMessage_frame aes blocks short []
    rw [List.append_nil, run] at frame
    exact frame
  refine ⟨got, ?_, arrives⟩
  rw [drpcTcpDeliver, drpcTcpDeliverTo, packed, ok_bind, sends, ok_bind, receives, ok_bind]
  dsimp only
  rw [received]
  rfl

/-- What arrives had no array with a gap. -/
theorem drpcTcpDeliver_dense {aes : Option Aes} {msg got : DrpcMessage} {d : DStruct Element}
    (carried : msg.message = some d) (wf : (Element.dstruct d).Wf)
    (fits : (fieldsBuf (messageFields msg)).length ≤ 2 ^ 64 - 16)
    (delivered : drpcTcpDeliver aes msg = .ok (some got)) : (Element.dstruct d).Dense := by
  obtain ⟨container, packed, filled⟩ := drpcSendMessage_filled msg
  have containerWf := filled.messageWf fun d' same => by
    rw [carried] at same
    cases same
    exact wf
  have length := fieldsBuf_perm_length filled.bindings
  rw [drpcTcpDeliver, drpcTcpDeliverTo, packed, ok_bind] at delivered
  obtain ⟨stream, sends, delivered⟩ := bind_eq_ok.mp delivered
  obtain ⟨received, receives, -⟩ := bind_eq_ok.mp delivered
  obtain ⟨padding, blocks, short, rfl⟩ := drpcTcpSendMessage_inv containerWf sends
  have frame := drpcTcpRecvMessage_frame aes blocks short []
  rw [List.append_nil, receives] at frame
  obtain ⟨decoded, decodes, -⟩ := map_eq_ok.mp frame.symm
  cases bufDStruct_dense containerWf (by omega) ⟨decoded, decodes⟩ with
  | dstruct fields =>
    refine fields (CString.ofString "message") (.dstruct d) (filled.bindings.mem_iff.mpr ?_)
    rw [messageFields, carried]
    exact List.mem_cons_of_mem _ List.mem_cons_self

/-- Under one key at both ends, a message survives the marshalling, the padding
and the encryption. -/
theorem ofKey_delivers (aes128Key : StateT) {msg : DrpcMessage} (sendable : msg.Sendable) :
    ∃ got, drpcTcpDeliver (some (.ofKey aes128Key)) msg = .ok (some got) ∧ msg.Arrives got :=
  drpcTcpDeliver_delivers _ sendable

/-- A ping, which has no payload. -/
theorem ofKey_delivers_ping : ∃ got, drpcTcpDeliver (some (.ofKey iv)) ⟨.ping, none⟩ = .ok (some got) ∧
    DrpcMessage.Arrives ⟨.ping, none⟩ got :=
  ofKey_delivers iv (sendable_plain .ping)

end DynamicRPC
