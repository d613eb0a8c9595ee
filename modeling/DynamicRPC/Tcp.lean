import DynamicRPC.HashtableMap
import DynamicRPC.HashtableRuns
import DynamicRPC.Protocol
import DynamicRPC.Sparse

namespace DynamicRPC
open Outcome LittleEndian

namespace DrpcProtocol

/-- The value of a message type in the `uint8_t` of a message. -/
def toUInt8 : DrpcProtocol → UInt8
  | call => 0 | .return => 1 | servername => 2 | auth => 3 | mailboxRecv => 4 | mailboxSend => 5
  | disconnect => 6 | ping => 7 | notfound => 8 | bad => 9 | ok => 10 | eperm => 11
  | unknown type => type

def ofUInt8 (type : UInt8) : DrpcProtocol :=
  let named := [call, .return, servername, auth, mailboxRecv, mailboxSend, disconnect, ping, notfound, bad, ok, eperm]
  named[type.toNat]?.getD (unknown type)

end DrpcProtocol

/-- `drpc_to_uint8` of a packed element. -/
def Element.asUint8 : Element → Outcome UInt8
  | .packed _ data =>
    match data.packedData with
    | byte :: _ => pure byte
    | [] => .error .outside
  | _ => .error .outside

def Element.asStruct : Element → Option (DStruct Element)
  | .dstruct d => some d
  | _ => none

/-- The container that `drpc_send_message` makes of a message. -/
def drpcSendMessage (msg : DrpcMessage) : Outcome (DStruct Element) := do
  let type : Element := .packed DrpcTypes.dUint8.toChar ⟨DrpcTypes.dUint8.toChar, [msg.messageType.toUInt8]⟩
  let container ← dStructSet newDStruct (CString.ofString "message_type") (.element type)
  match msg.message with
  | none => pure container
  | some message => dStructSet container (CString.ofString "message") (.element (.dstruct message))

/-- The `message` pointer of a `struct drpc_message` on a caller's stack:
`NULL`, a struct, or whatever the memory held before. -/
inductive MessagePointer
  | null
  | struct (d : DStruct Element)
  | indeterminate

def MessagePointer.payload : MessagePointer → Option (DStruct Element)
  | struct d => some d
  | _ => none

/-- A `struct drpc_message` that a receive writes to. -/
structure MessageRecord where
  messageType : UInt8
  message : MessagePointer

/-- `drpc_recv_message` on the container that its `io` received: the payload is
written on one branch only. -/
def drpcRecvMessageInto (container : DStruct Element) (msg : MessageRecord) : Outcome MessageRecord := do
  let found ← dStructGet container (CString.ofString "message_type") .dUint8
  match found with
  | none => .error .assertion
  | some type => do
    let messageType ← type.asUint8
    let found ← dStructGet container (CString.ofString "message") .dStruct
    match found.bind Element.asStruct with
    | some d => do
      let _ ← dStructUnlink container (CString.ofString "message")
      pure ⟨messageType, .struct d⟩
    | none => pure ⟨messageType, msg.message⟩

/-- What `drpc_recv_message` takes out of a container for a caller whose record held no payload. -/
def drpcRecvMessage (container : DStruct Element) : Outcome DrpcMessage := do
  let msg ← drpcRecvMessageInto container ⟨0, .null⟩
  pure ⟨.ofUInt8 msg.messageType, msg.message.payload⟩

def nextby16 (value : Nat) : Nat := if value % 16 = 0 then value else (value / 16 + 1) * 16

/-- `AES_CBC_encrypt_buffer` and `AES_CBC_decrypt_buffer` under the key and the
iv that both ends of a connection use. -/
structure Aes where
  encryptBuffer : List UInt8 → List UInt8
  decryptBuffer : List UInt8 → List UInt8
  length : ∀ buf, buf.length % 16 = 0 → (encryptBuffer buf).length = buf.length
  inverse : ∀ buf, buf.length % 16 = 0 → decryptBuffer (encryptBuffer buf) = buf

/-- `DRPC_SIGNATURE` with its NUL. -/
def drpcSignature : List UInt8 := (CString.ofString "DRPCv250+E").block

/-- `drpc_tcp_send_message`: the bytes it writes, where `aes` is `none` for an
`io` without a key. No buffer has 2^64 bytes. -/
def drpcTcpSendMessage (aes : Option Aes) (prepackedMessage : DStruct Element) : Outcome (List UInt8) := do
  let (buf, _) ← dStructBuf prepackedMessage
  let sendBuflen := nextby16 buf.length
  if 2 ^ 64 ≤ sendBuflen then .error .assertion
  else
    let sendBuf := buf ++ List.replicate (sendBuflen - buf.length) 0
    let sendBuf := match aes with
      | none => sendBuf
      | some aes => aes.encryptBuffer sendBuf
    pure (drpcSignature ++ u64 sendBuflen ++ sendBuf)

/-- `AES_CBC_decrypt_buffer`: it works on whole blocks, also on one that the
buffer ends in. -/
def aesCbcDecryptBuffer (aes : Option Aes) (buf : List UInt8) : Outcome (List UInt8) :=
  match aes with
  | none => pure buf
  | some aes => if buf.length % 16 = 0 then pure (aes.decryptBuffer buf) else .error .outside

/-- `sizeof(drpc_message_header)`. -/
def headerLen : Nat := drpcSignature.length + 8

/-- `drpc_tcp_recv_message` with the connection behind the message, where
`recvLoop` is `tcp_recv_loop` for a number of bytes and `limit` is the largest
buffer that `malloc` grants; `none` is the return value 1. -/
def drpcTcpRecvMessageBy {Io : Type} (recvLoop : Io → Nat → Option (List UInt8 × Io)) (limit : Nat) (aes : Option Aes)
    (io : Io) : Outcome (Option (DStruct Element × Io)) :=
  match recvLoop io headerLen with
  | none => pure none
  | some (header, io) =>
    if header.take drpcSignature.length ≠ drpcSignature then pure none
    else
      let recvBuflen := decode (header.drop drpcSignature.length)
      if limit < recvBuflen then .error .assertion
      else
        match recvLoop io recvBuflen with
        | none => pure none
        | some (recvBuf, io) => do
          let recvBuf ← aesCbcDecryptBuffer aes recvBuf
          let container ← bufDStruct recvBuf newDStruct
          pure (some (container, io))

/-- The bytes that a `tcp_recv_loop` takes off what arrives before the connection ends. -/
def recvBytes (stream : List UInt8) (buflen : Nat) : Option (List UInt8 × List UInt8) :=
  if stream.length < buflen then none else some (stream.take buflen, stream.drop buflen)

/-- `drpc_tcp_recv_message` on all that arrives. -/
def drpcTcpRecvBuffer (limit : Nat) (aes : Option Aes) (stream : List UInt8) : Outcome (Option (DStruct Element)) := do
  let received ← drpcTcpRecvMessageBy recvBytes limit aes stream
  pure (received.map Prod.fst)

/-- `drpc_tcp_recv_message` where every length that a header can name is granted. -/
def drpcTcpRecvMessage (aes : Option Aes) (stream : List UInt8) : Outcome (Option (DStruct Element)) :=
  drpcTcpRecvBuffer (2 ^ 64) aes stream

/-- A message from `drpc_send_message` at one end of a TCP connection, with the
key `sending`, to `drpc_recv_message` at the other, with the key `receiving`. -/
def drpcTcpDeliverTo (sending receiving : Option Aes) (msg : DrpcMessage) : Outcome (Option DrpcMessage) := do
  let container ← drpcSendMessage msg
  let stream ← drpcTcpSendMessage sending container
  let received ← drpcTcpRecvMessage receiving stream
  match received with
  | none => pure none
  | some container => do
    let msg ← drpcRecvMessage container
    pure (some msg)

/-- A message between two ends with one key. -/
def drpcTcpDeliver (aes : Option Aes) (msg : DrpcMessage) : Outcome (Option DrpcMessage) := drpcTcpDeliverTo aes aes msg

theorem nextby16_le (value : Nat) : value ≤ nextby16 value := by
  unfold nextby16
  split <;> omega

theorem nextby16_mod (value : Nat) : nextby16 value % 16 = 0 := by
  unfold nextby16
  split <;> omega

/-- A buffer as it goes over the wire. -/
def Aes.seal (aes : Option Aes) (buf : List UInt8) : List UInt8 :=
  match aes with
  | none => buf
  | some aes => aes.encryptBuffer buf

/-- A received buffer as the decoder gets it. -/
def Aes.unseal (aes : Option Aes) (received : List UInt8) : List UInt8 :=
  match aes with
  | none => received
  | some aes => aes.decryptBuffer received

section Frame
variable (aes : Option Aes) {buf : List UInt8} (blocks : buf.length % 16 = 0)
include blocks

theorem Aes.seal_length : (Aes.seal aes buf).length = buf.length := by
  cases aes with
  | none => rfl
  | some aes => exact aes.length buf blocks

theorem aesCbcDecryptBuffer_seal : aesCbcDecryptBuffer aes (Aes.seal aes buf) = .ok buf := by
  cases aes with
  | none => rfl
  | some aes =>
    rw [aesCbcDecryptBuffer]
    change (if (aes.encryptBuffer buf).length % 16 = 0 then _ else _) = _
    rw [aes.length buf blocks, if_pos blocks]
    exact congrArg Except.ok (aes.inverse buf blocks)

/-- The frame around a buffer of whole blocks comes off again, with the
encryption, however its bytes arrive. -/
theorem drpcTcpRecvMessageBy_frame {Io : Type} {recvLoop : Io → Nat → Option (List UInt8 × Io)} {limit : Nat}
    {io middle last : Io} (fits : buf.length < 2 ^ 64) (granted : buf.length ≤ limit)
    (header : recvLoop io headerLen = some (drpcSignature ++ u64 buf.length, middle))
    (body : recvLoop middle buf.length = some (Aes.seal aes buf, last)) :
    drpcTcpRecvMessageBy recvLoop limit aes io = (fun container => some (container, last)) <$> bufDStruct buf newDStruct := by
  have size : decode ((drpcSignature ++ u64 buf.length).drop drpcSignature.length) = buf.length := by
    rw [List.drop_left, u64, decode_encode]
    exact Nat.mod_eq_of_lt fits
  rw [drpcTcpRecvMessageBy, header]
  dsimp only
  rw [if_neg (not_not.mpr List.take_left), size, if_neg (not_lt.mpr granted), body]
  dsimp only
  rw [aesCbcDecryptBuffer_seal aes blocks, ok_bind]
  rfl

/-- A frame is taken off the bytes that arrive, whatever follows it. -/
theorem drpcTcpRecvMessage_frame (fits : buf.length < 2 ^ 64) (rest : List UInt8) :
    drpcTcpRecvMessage aes (drpcSignature ++ u64 buf.length ++ Aes.seal aes buf ++ rest) =
      some <$> bufDStruct buf newDStruct := by
  have length := Aes.seal_length aes blocks
  have header : (drpcSignature ++ u64 buf.length).length = headerLen := by
    rw [List.length_append, u64_length]
    rfl
  have first : recvBytes (drpcSignature ++ u64 buf.length ++ Aes.seal aes buf ++ rest) headerLen =
      some (drpcSignature ++ u64 buf.length, Aes.seal aes buf ++ rest) := by
    rw [recvBytes, List.append_assoc, if_neg (by rw [List.length_append, header]; omega), List.take_left' header,
      List.drop_left' header]
  have second : recvBytes (Aes.seal aes buf ++ rest) buf.length = some (Aes.seal aes buf, rest) := by
    rw [recvBytes, if_neg (by rw [List.length_append, length]; omega), List.take_left' length, List.drop_left' length]
  rw [drpcTcpRecvMessage, drpcTcpRecvBuffer, drpcTcpRecvMessageBy_frame aes blocks fits fits.le first second]
  cases bufDStruct buf newDStruct <;> rfl

end Frame

/-- A well-formed struct that fits into a frame with its padding is sent. -/
theorem drpcTcpSendMessage_sends (aes : Option Aes) {d : DStruct Element} (wf : (Element.dstruct d).Wf)
    (fits : (fieldsBuf d.hashtable.bindings).length ≤ 2 ^ 64 - 16) : ∃ frame, drpcTcpSendMessage aes d = .ok frame := by
  have room : ¬ 2 ^ 64 ≤ nextby16 (fieldsBuf d.hashtable.bindings).length := by
    unfold nextby16
    split <;> omega
  rw [drpcTcpSendMessage, wf.dStructBuf, ok_bind]
  dsimp only
  rw [if_neg room]
  exact ⟨_, rfl⟩

/-- The frame of a well-formed message: signature, length, and the buffer
padded with zeros to whole blocks. -/
theorem drpcTcpSendMessage_inv {aes : Option Aes} {d : DStruct Element} {frame : List UInt8}
    (wf : (Element.dstruct d).Wf) (sends : drpcTcpSendMessage aes d = .ok frame) :
    ∃ padding, (fieldsBuf d.hashtable.bindings ++ padding).length % 16 = 0 ∧
      (fieldsBuf d.hashtable.bindings ++ padding).length < 2 ^ 64 ∧
      frame = drpcSignature ++ u64 (fieldsBuf d.hashtable.bindings ++ padding).length ++
        Aes.seal aes (fieldsBuf d.hashtable.bindings ++ padding) := by
  rw [drpcTcpSendMessage, wf.dStructBuf, ok_bind] at sends
  dsimp only at sends
  split at sends
  · cases sends
  · next fits =>
    have bound := nextby16_le (fieldsBuf d.hashtable.bindings).length
    have padded : (fieldsBuf d.hashtable.bindings ++ List.replicate
        (nextby16 (fieldsBuf d.hashtable.bindings).length - (fieldsBuf d.hashtable.bindings).length)
        0).length = nextby16 (fieldsBuf d.hashtable.bindings).length := by
      rw [List.length_append, List.length_replicate]
      omega
    cases sends
    refine ⟨_, by rw [padded]; exact nextby16_mod _, by rw [padded]; omega, ?_⟩
    rw [padded]
    rfl

theorem Element.value_struct {e : Element} {fields : CString → Option Value} (same : e.value = .struct fields) :
    ∃ d, e = .dstruct d ∧ d.value = fields := by
  cases e with
  | dstruct d =>
    cases same
    exact ⟨d, rfl, rfl⟩
  | _ => cases same

theorem Element.value_array {e : Element} {items : Nat → Option Value} (same : e.value = .array items) :
    ∃ a, e = .array a ∧ a.value = items := by
  cases e with
  | array a =>
    cases same
    exact ⟨a, rfl, rfl⟩
  | _ => cases same

theorem Element.value_scalar {e : Element} {type : UInt8} {data : DrpcType} (same : e.value = .scalar type data) :
    e = .packed type data := by
  cases e <;> cases same
  rfl

/-- A struct that means the same has the same fields, up to their meaning. -/
theorem DStruct.lookup_of_value {d d' : DStruct Element} (same : d'.value = d.value) {key : CString} {e : Element}
    (held : d.hashtable.lookup key = some e) : ∃ e', d'.hashtable.lookup key = some e' ∧ e'.value = e.value := by
  have fields := congrFun same key
  rw [DStruct.value_eq, DStruct.value_eq, held, Option.map_some] at fields
  exact Option.map_eq_some_iff.mp fields

/-- A field of a struct is found in a decoder's struct of the same meaning. -/
theorem DStruct.get_of_value {d d' : DStruct Element} (same : d'.value = d.value) (wf : (Element.dstruct d').Wf)
    (compact : (Element.dstruct d').Compact) {key : CString} {e : Element} (held : d.hashtable.lookup key = some e) :
    ∃ e', hashtableGet d'.hashtable key = .ok (some e') ∧ e'.value = e.value ∧ e'.Wf ∧ e'.Compact := by
  obtain ⟨e', found, sameValue⟩ := DStruct.lookup_of_value same held
  cases wf with
  | dstruct table fields =>
    cases compact with
    | dstruct noDead compactFields =>
      have member : (key, e') ∈ d'.hashtable.bindings := table.table.lookup_eq_some.mp found
      exact ⟨e', ((table.filled noDead).get key).trans (congrArg Except.ok found), sameValue, fields _ _ member,
        compactFields _ _ member⟩

/-- A field of a container is found in what the container decodes to. -/
theorem DStruct.Decoded.get {d d' : DStruct Element} (decoded : d.Decoded d') {key : CString} {e : Element}
    (held : d.hashtable.lookup key = some e) :
    ∃ e', hashtableGet d'.hashtable key = .ok (some e') ∧ e'.value = e.value ∧ e'.Wf ∧ e'.Compact :=
  DStruct.get_of_value decoded.value decoded.wf decoded.compact held

/-- What `drpc_send_message` puts into its container. -/
def messageFields (msg : DrpcMessage) : List (CString × Element) :=
  (CString.ofString "message_type", Element.packed DrpcTypes.dUint8.toChar ⟨DrpcTypes.dUint8.toChar, [msg.messageType.toUInt8]⟩) ::
    msg.message.toList.map fun d => (CString.ofString "message", Element.dstruct d)

theorem drpcSendMessage_filled (msg : DrpcMessage) :
    ∃ container, drpcSendMessage msg = .ok container ∧ container.Filled (messageFields msg) := by
  obtain ⟨type, message⟩ := msg
  obtain ⟨typed, first, filled⟩ := DStruct.Filled.start.set (CString.ofString "message_type")
    (Element.packed DrpcTypes.dUint8.toChar ⟨DrpcTypes.dUint8.toChar, [type.toUInt8]⟩) List.not_mem_nil
  cases message with
  | none =>
    refine ⟨typed, ?_, filled⟩
    rw [drpcSendMessage, first]
    rfl
  | some d =>
    obtain ⟨container, second, held⟩ := filled.set (CString.ofString "message") (Element.dstruct d) (by
      simp only [List.nil_append, List.map_cons, List.map_nil]
      decide)
    refine ⟨container, ?_, held⟩
    rw [drpcSendMessage]
    dsimp only
    rw [first, ok_bind]
    exact second

/-- A decoder's struct has no tombstones, and every probe in it ends. -/
theorem DStruct.open_of_compact {d : DStruct Element} (wf : (Element.dstruct d).Wf) (compact : (Element.dstruct d).Compact) :
    d.hashtable.Open := by
  cases wf with
  | dstruct table _ =>
    cases compact with
    | dstruct noDead _ => exact ⟨table.table, table.table.room noDead⟩

section Deliver
variable {aes : Option Aes} {sent got : DrpcMessage} {container arrived : DStruct Element}

/-- A received message: the type that was sent and, for a payload, one of the
same meaning as a decoder builds it. -/
structure DrpcMessage.Arrives (sent got : DrpcMessage) : Prop where
  messageType : got.messageType = .ofUInt8 sent.messageType.toUInt8
  message : ∀ d, sent.message = some d → ∃ d', got.message = some d' ∧ d'.value = d.value ∧ (Element.dstruct d').Wf ∧
    (Element.dstruct d').Compact

theorem DStruct.Filled.messageWf (filled : container.Filled (messageFields sent))
    (wf : ∀ d, sent.message = some d → (Element.dstruct d).Wf) : (Element.dstruct container).Wf := by
  refine .dstruct filled.wf fun key e member => ?_
  obtain same | payload := List.mem_cons.mp (filled.bindings.mem_iff.mp member)
  · cases same
    exact @Element.Wf.packed .dUint8 [sent.messageType.toUInt8] rfl
  · obtain ⟨d, inside, same⟩ := List.mem_map.mp payload
    cases same
    exact wf d (Option.mem_toList.mp inside)

/-- The receive of a container with the fields of a message writes the type
and, when there is a payload, the payload. -/
theorem drpcRecvMessageInto_spec (filled : container.Filled (messageFields sent)) (isOpen : arrived.hashtable.Open)
    (same : arrived.value = container.value) (prior : MessageRecord) :
    ∃ message, drpcRecvMessageInto arrived prior = .ok ⟨sent.messageType.toUInt8, message⟩ ∧
      match sent.message with
      | some d => ∃ d', message = .struct d' ∧ d'.value = d.value ∧
          arrived.hashtable.lookup (CString.ofString "message") = some (.dstruct d')
      | none => message = prior.message := by
  have typed : container.hashtable.lookup (CString.ofString "message_type") = some (.packed DrpcTypes.dUint8.toChar
      ⟨DrpcTypes.dUint8.toChar, [sent.messageType.toUInt8]⟩) := by
    rw [filled.lookup]
    rfl
  obtain ⟨e, heldType, sameType⟩ := DStruct.lookup_of_value same typed
  cases Element.value_scalar sameType
  have getType : dStructGet arrived (CString.ofString "message_type") .dUint8 = .ok (some _) :=
    dStructGet_of_get (isOpen.get.trans (congrArg _ heldType)) rfl
  rw [drpcRecvMessageInto, getType, ok_bind]
  cases payload : sent.message with
  | none =>
    have absent : container.hashtable.lookup (CString.ofString "message") = none := by
      rw [filled.lookup, messageFields, payload]
      rfl
    have gone : arrived.hashtable.lookup (CString.ofString "message") = none := by
      have fields := congrFun same (CString.ofString "message")
      rwa [DStruct.value_eq, DStruct.value_eq, absent, Option.map_none, Option.map_eq_none_iff] at fields
    refine ⟨prior.message, ?_, rfl⟩
    rw [dStructGet, isOpen.get, gone]
    rfl
  | some d =>
    have there : container.hashtable.lookup (CString.ofString "message") = some (.dstruct d) := by
      rw [filled.lookup, messageFields, payload]
      rfl
    obtain ⟨e, held, sameFields⟩ := DStruct.lookup_of_value same there
    obtain ⟨d', rfl, sameValue⟩ := Element.value_struct sameFields
    have found := isOpen.get.trans (congrArg _ held)
    obtain ⟨table, removed, -⟩ := isOpen.remove (CString.ofString "message")
    refine ⟨.struct d', ?_, d', rfl, sameValue, held⟩
    have getPayload : dStructGet arrived (CString.ofString "message") .dStruct = .ok (some _) := dStructGet_of_get found rfl
    dsimp only [Element.asUint8]
    rw [pure_eq_ok, ok_bind, getPayload, ok_bind]
    simp only [Option.bind_some, Element.asStruct]
    rw [dStructUnlink, found, ok_bind]
    dsimp only
    rw [if_neg (by exact Bool.false_ne_true), removed]
    rfl

/-- A message comes out of a container that was encoded and decoded. -/
theorem drpcRecvMessage_decoded (filled : container.Filled (messageFields sent)) (decoded : container.Decoded arrived) :
    ∃ got, drpcRecvMessage arrived = .ok got ∧ sent.Arrives got := by
  obtain ⟨message, into, holds⟩ := drpcRecvMessageInto_spec filled (DStruct.open_of_compact decoded.wf decoded.compact)
    decoded.value ⟨0, .null⟩
  refine ⟨⟨.ofUInt8 sent.messageType.toUInt8, message.payload⟩, ?_, rfl, fun d carried => ?_⟩
  · rw [drpcRecvMessage, into]
    rfl
  · rw [carried] at holds
    obtain ⟨d', rfl, same, held⟩ := holds
    have wf := decoded.wf
    have compact := decoded.compact
    cases wf with
    | dstruct table fields =>
      cases compact with
      | dstruct noDead compactFields =>
        have member := table.table.lookup_eq_some.mp held
        exact ⟨d', rfl, same, fields _ _ member, compactFields _ _ member⟩

/-- A container that arrives was encoded and decoded without loss. -/
theorem drpcTcp_arrives {stream : List UInt8} (wf : (Element.dstruct container).Wf)
    (sends : drpcTcpSendMessage aes container = .ok stream) (received : drpcTcpRecvMessage aes stream = .ok (some arrived)) :
    container.Decoded arrived := by
  obtain ⟨padding, blocks, fits, rfl⟩ := drpcTcpSendMessage_inv wf sends
  have frame := drpcTcpRecvMessage_frame aes blocks fits []
  rw [List.append_nil, received] at frame
  have small : (fieldsBuf container.hashtable.bindings).length < 2 ^ 64 := by
    rw [List.length_append] at fits
    omega
  cases decoded : bufDStruct (fieldsBuf container.hashtable.bindings ++ padding) newDStruct with
  | error fault =>
    rw [decoded] at frame
    cases frame
  | ok other =>
    rw [decoded] at frame
    cases frame
    have dense := bufDStruct_dense wf small ⟨arrived, decoded⟩
    obtain ⟨again, result, run⟩ := DStruct.roundTrip wf dense small
    rw [run] at decoded
    cases decoded
    exact result

/-- A message that arrives keeps its type and the meaning of its payload. -/
theorem drpcTcpDeliver_arrives (wf : ∀ d, sent.message = some d → (Element.dstruct d).Wf)
    (delivered : drpcTcpDeliver aes sent = .ok (some got)) : sent.Arrives got := by
  obtain ⟨container, packed, filled⟩ := drpcSendMessage_filled sent
  rw [drpcTcpDeliver, drpcTcpDeliverTo, packed, ok_bind] at delivered
  obtain ⟨stream, sends, rest⟩ := bind_eq_ok.mp delivered
  obtain ⟨found, arrived, rest⟩ := bind_eq_ok.mp rest
  cases found with
  | none => cases rest
  | some container' =>
    obtain ⟨msg, received, same⟩ := bind_eq_ok.mp rest
    cases same
    obtain ⟨got, again, arrives⟩ := drpcRecvMessage_decoded filled (drpcTcp_arrives (filled.messageWf wf) sends arrived)
    rw [received] at again
    cases again
    exact arrives

end Deliver

end DynamicRPC
