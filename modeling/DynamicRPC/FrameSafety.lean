import DynamicRPC.Tcp
import DynamicRPC.WireDecode

namespace DynamicRPC
open Outcome LittleEndian

/-- `drpc_recv_message` of a TCP connection; `none` is the return value 1. -/
def drpcRecvPeerMessage (limit : Nat) (aes : Option Aes) (stream : List UInt8) (msg : MessageRecord) :
    Outcome (Option MessageRecord) := do
  let received ← drpcTcpRecvBuffer limit aes stream
  match received with
  | none => pure none
  | some container => do
    let msg ← drpcRecvMessageInto container msg
    pure (some msg)

/-- The last field named `message_type` is a `d_uint8` with a byte in it. -/
def TypedFields (fields : List WireField) : Prop :=
  ∃ field t, fields.reverse.find? (fun field => field.key = CString.ofString "message_type") = some field ∧
    field.type = DrpcTypes.dUint8.toChar ∧ Records field.value [t] ∧ t.packedData ≠ []

/-- A body with the fields of a message, whole at every depth. -/
def MessageBody (buf : List UInt8) : Prop :=
  ∃ fields, FieldTable buf fields ∧ (∀ field ∈ fields, Whole (.element field.type) field.value) ∧ TypedFields fields

/-- What a peer must keep to behind a signature: a length that is granted and,
once the body is there, whole blocks in an encrypted session and a message. -/
def PeerKeepsTo (limit : Nat) (aes : Option Aes) (stream : List UInt8) : Prop :=
  headerLen ≤ stream.length → stream.take drpcSignature.length = drpcSignature →
    let recvBuflen := decode ((stream.drop drpcSignature.length).take 8)
    recvBuflen ≤ limit ∧ (headerLen + recvBuflen ≤ stream.length →
      (aes.isSome → recvBuflen % 16 = 0) ∧ MessageBody (Aes.unseal aes ((stream.drop headerLen).take recvBuflen)))

theorem bufElement_type {depth : Nat} {type : UInt8} {memory : List UInt8} {e : Element}
    (run : bufElement depth type memory = .ok e) : e.type = type := by
  cases depth with
  | zero => cases run
  | succ depth =>
    rw [bufElement] at run
    obtain ⟨⟨t, rest⟩, -, chosen⟩ := bind_eq_ok.mp run
    dsimp only at chosen
    split_ifs at chosen with str sizedbuf array struct queue
    · cases chosen
      exact str.symm
    · cases chosen
      exact sizedbuf.symm
    · obtain ⟨a, -, same⟩ := bind_eq_ok.mp chosen
      cases same
      exact array.symm
    · obtain ⟨d, -, same⟩ := bind_eq_ok.mp chosen
      cases same
      exact struct.symm
    · obtain ⟨q, -, same⟩ := bind_eq_ok.mp chosen
      cases same
      exact queue.symm
    · cases chosen
      rfl

theorem bufElement_uint8 {depth : Nat} {memory : List UInt8} {e : Element} :
    bufElement (depth + 1) DrpcTypes.dUint8.toChar memory = .ok e ↔
      ∃ t, Records memory [t] ∧ e = .packed DrpcTypes.dUint8.toChar t := by
  rw [bufElement, bind_eq_ok]
  constructor
  · rintro ⟨⟨t, rest⟩, read, chosen⟩
    exact ⟨t, Records.read_one.mpr ⟨rest, read⟩, (Except.ok.inj chosen).symm⟩
  · rintro ⟨t, record, rfl⟩
    obtain ⟨rest, read⟩ := Records.read_one.mp record
    exact ⟨(t, rest), read, rfl⟩

section Take
variable {fields : List WireField} {depth : Nat} {container : DStruct Element}

/-- Unlinking from a struct that nothing was removed from returns. -/
theorem LoadedFields.unlink_returns {unpack : UInt8 → List UInt8 → Outcome Element}
    (loaded : LoadedFields unpack fields container) (key : CString) : Returns (dStructUnlink container key) := by
  rw [dStructUnlink, loaded.table.isOpen.get, ok_bind]
  cases bound : container.hashtable.lookup key with
  | none => exact returns_ok _
  | some e =>
    dsimp only
    split
    · exact returns_ok _
    · have member : key ∈ container.hashtable.keys := Hashtable.Probed.lookup_isSome.mp (by rw [bound]; rfl)
      obtain ⟨table, old, run, -⟩ := hashtableRemove_rewritten loaded.table.wf member
      rw [run]
      exact returns_ok _

/-- A loaded container holds a message exactly when its fields are those of one. -/
theorem drpcRecvMessageInto_returns_iff (loaded : LoadedFields (bufElement (depth + 1)) fields container)
    (each : ∀ field ∈ fields, Returns (bufElement (depth + 1) field.type field.value)) (msg : MessageRecord) :
    Returns (drpcRecvMessageInto container msg) ↔ TypedFields fields := by
  have lookup := loaded.lookup (CString.ofString "message_type")
  rw [drpcRecvMessageInto, dStructGet, loaded.table.isOpen.get, ok_bind, lookup]
  cases last : fields.reverse.find? (fun field => field.key = CString.ofString "message_type") with
  | none =>
    refine iff_of_false (not_returns_error _) ?_
    rintro ⟨field, t, found, -⟩
    rw [last] at found
    cases found
  | some field =>
    obtain ⟨e, unpacked⟩ := each field (List.mem_reverse.mp (List.mem_of_find?_eq_some last))
    rw [Option.map_some, unpacked, Outcome.value, Option.filter_some]
    have type : DStructElement.type e = field.type := bufElement_type unpacked
    rw [type]
    by_cases typed : field.type = DrpcTypes.dUint8.toChar
    · rw [typed] at unpacked
      obtain ⟨t, record, rfl⟩ := bufElement_uint8.mp unpacked
      rw [if_pos (beq_of_eq typed), pure_eq_ok, ok_bind]
      have fits : TypedFields fields ↔ t.packedData ≠ [] := by
        constructor
        · rintro ⟨other, t', found, -, again, some_there⟩
          rw [last] at found
          cases found
          have same : bufElement (depth + 1) DrpcTypes.dUint8.toChar field.value = .ok (.packed _ t') :=
            bufElement_uint8.mpr ⟨t', again, rfl⟩
          rw [unpacked] at same
          cases same
          exact some_there
        · intro some_there
          exact ⟨field, t, last, typed, record, some_there⟩
      rw [fits]
      cases data : t.packedData with
      | nil =>
        refine iff_of_false ?_ (not_not.mpr rfl)
        simp only [Element.asUint8, data, error_bind, not_returns_error, not_false_eq_true]
      | cons byte rest =>
        refine iff_of_true ?_ (List.cons_ne_nil _ _)
        simp only [Element.asUint8, data, pure_eq_ok, ok_bind]
        rw [dStructGet, loaded.table.isOpen.get, ok_bind, pure_eq_ok, ok_bind]
        split
        · obtain ⟨unlinked, run⟩ := loaded.unlink_returns (CString.ofString "message")
          rw [run]
          exact returns_ok _
        · exact returns_ok _
    · rw [if_neg (by simpa using typed), pure_eq_ok, ok_bind]
      refine iff_of_false (not_returns_error _) ?_
      rintro ⟨other, t, found, same, -⟩
      rw [last] at found
      cases found
      exact typed same

end Take

theorem FieldTable.depth {buf : List UInt8} {fields : List WireField} (table : FieldTable buf fields) :
    ∃ depth, buf.length = depth + 1 := by
  obtain ⟨records, ⟨memory, rfl, -⟩, -⟩ := table
  refine ⟨memory.length + 7, ?_⟩
  rw [List.length_append, u64_length]
  omega

/-- A body is decoded and taken for a message exactly when it is one. -/
theorem messageBody_returns_iff (buf : List UInt8) (msg : MessageRecord) :
    Returns (bufDStruct buf newDStruct >>= fun container => drpcRecvMessageInto container msg) ↔ MessageBody buf := by
  rw [returns_bind]
  constructor
  · rintro ⟨container, run, taken⟩
    obtain ⟨fields, table, each, loop⟩ := bufDStructWith_ok_iff.mp run
    obtain ⟨other, again, loaded⟩ := LoadedFields.all each
    rw [loop] at again
    cases again
    obtain ⟨depth, deep⟩ := table.depth
    rw [deep] at loaded each
    refine ⟨fields, table, fun field member => ?_, (drpcRecvMessageInto_returns_iff loaded each msg).mp taken⟩
    exact (bufElement_returns_iff (by have := table.length_lt member; omega)).mp (each field member)
  · rintro ⟨fields, table, whole, typed⟩
    obtain ⟨depth, deep⟩ := table.depth
    have each : ∀ field ∈ fields, Returns (bufElement (depth + 1) field.type field.value) := fun field member =>
      (bufElement_returns_iff (by have := table.length_lt member; omega)).mpr (whole field member)
    obtain ⟨container, loop, loaded⟩ := LoadedFields.all each
    refine ⟨container, ?_, (drpcRecvMessageInto_returns_iff loaded each msg).mpr typed⟩
    rw [bufDStruct, deep]
    exact bufDStructWith_ok_iff.mpr ⟨fields, table, each, loop⟩

theorem aesCbcDecryptBuffer_eq (aes : Option Aes) (buf : List UInt8) : aesCbcDecryptBuffer aes buf =
    if aes.isSome → buf.length % 16 = 0 then pure (Aes.unseal aes buf) else .error .outside := by
  cases aes with
  | none => rfl
  | some aes =>
    rw [aesCbcDecryptBuffer]
    exact if_congr (by simp) rfl rfl

/-- What is received from the bytes that arrive. -/
theorem drpcTcpRecvBuffer_eq (limit : Nat) (aes : Option Aes) (stream : List UInt8) :
    drpcTcpRecvBuffer limit aes stream =
      (if stream.length < headerLen then .ok none
      else if stream.take drpcSignature.length ≠ drpcSignature then .ok none
      else if limit < decode ((stream.drop drpcSignature.length).take 8) then .error .assertion
      else if stream.length < headerLen + decode ((stream.drop drpcSignature.length).take 8) then .ok none
      else do
        let recvBuf ← aesCbcDecryptBuffer aes
          ((stream.drop headerLen).take (decode ((stream.drop drpcSignature.length).take 8)))
        let container ← bufDStruct recvBuf newDStruct
        pure (some container)) := by
  rw [drpcTcpRecvBuffer, drpcTcpRecvMessageBy, recvBytes]
  by_cases short : stream.length < headerLen
  · rw [if_pos short, if_pos short]
    rfl
  rw [if_neg short, if_neg short]
  have signature : (stream.take headerLen).take drpcSignature.length = stream.take drpcSignature.length := by
    rw [List.take_take]
    rfl
  have length : (stream.take headerLen).drop drpcSignature.length = (stream.drop drpcSignature.length).take 8 := by
    rw [List.drop_take]
    rfl
  dsimp only
  rw [signature, length]
  split
  · rfl
  generalize decode ((stream.drop drpcSignature.length).take 8) = recvBuflen
  split
  · rfl
  rw [recvBytes, List.length_drop]
  by_cases partly : stream.length < headerLen + recvBuflen
  · rw [if_pos (by omega), if_pos partly]
    rfl
  · rw [if_neg (by omega), if_neg partly]
    dsimp only
    cases aesCbcDecryptBuffer aes ((stream.drop headerLen).take recvBuflen) with
    | error fault => rfl
    | ok recvBuf =>
      rw [ok_bind, ok_bind]
      cases bufDStruct recvBuf newDStruct <;> rfl

/-- A receive from a peer returns, with every access inside the body and the
copies made from it and every assertion met, exactly when the peer keeps to the
format. Besides the buffer of the body nothing is refused: the tables of the
records, the copies and the stack for the recursion are taken as granted. -/
theorem drpcRecvPeerMessage_returns_iff (limit : Nat) (aes : Option Aes) (stream : List UInt8) (msg : MessageRecord) :
    Returns (drpcRecvPeerMessage limit aes stream msg) ↔ PeerKeepsTo limit aes stream := by
  rw [drpcRecvPeerMessage, drpcTcpRecvBuffer_eq, PeerKeepsTo]
  by_cases short : stream.length < headerLen
  · rw [if_pos short]
    exact iff_of_true (returns_ok _) fun long => absurd short (not_lt.mpr long)
  rw [if_neg short, forall_prop_of_true (not_lt.mp short)]
  by_cases signature : stream.take drpcSignature.length = drpcSignature
  swap
  · rw [if_pos signature]
    exact iff_of_true (returns_ok _) fun same => absurd same signature
  rw [if_neg (not_not.mpr signature), forall_prop_of_true signature]
  generalize decode ((stream.drop drpcSignature.length).take 8) = recvBuflen
  dsimp only
  by_cases large : limit < recvBuflen
  · rw [if_pos large]
    exact iff_of_false (not_returns_error _) fun both => absurd large (not_lt.mpr both.1)
  rw [if_neg large, and_iff_right (not_lt.mp large)]
  by_cases partly : stream.length < headerLen + recvBuflen
  · rw [if_pos partly]
    exact iff_of_true (returns_ok _) fun there => absurd there (not_le.mpr partly)
  have whole : ((stream.drop headerLen).take recvBuflen).length = recvBuflen := by
    rw [List.length_take, List.length_drop]
    omega
  rw [if_neg partly, forall_prop_of_true (not_lt.mp partly)]
  have body (buf : List UInt8) : Returns (do
      let container ← bufDStruct buf newDStruct
      let msg ← drpcRecvMessageInto container msg
      pure (some msg)) ↔ MessageBody buf := by
    rw [← messageBody_returns_iff buf msg]
    simp only [returns_bind, returns_ok, pure_eq_ok, and_true]
    exact Iff.rfl
  rw [aesCbcDecryptBuffer_eq, whole]
  by_cases blocks : aes.isSome → recvBuflen % 16 = 0
  · rw [if_pos blocks, and_iff_right blocks, pure_eq_ok, ok_bind, bind_assoc]
    exact body _
  · rw [if_neg blocks]
    exact iff_of_false (not_returns_error _) fun both => blocks both.1

/-- The signature, the length 8 and an empty struct: no `message_type`, and
the assertion of the receiver fails. -/
theorem drpcRecvPeerMessage_emptyStruct :
    ¬ ∀ (limit : Nat) (aes : Option Aes) (stream : List UInt8) (msg : MessageRecord),
      Returns (drpcRecvPeerMessage limit aes stream msg) := by
  intro holds
  have asserts : drpcRecvPeerMessage 8 none (drpcSignature ++ u64 8 ++ u64 0) ⟨0, .null⟩ = .error .assertion := by
    rfl
  have returns := holds 8 none (drpcSignature ++ u64 8 ++ u64 0) ⟨0, .null⟩
  rw [asserts] at returns
  exact not_returns_error _ returns

end DynamicRPC
