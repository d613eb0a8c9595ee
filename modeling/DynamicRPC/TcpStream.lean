import DynamicRPC.AesCbc

namespace DynamicRPC
open Outcome LittleEndian

/-- `tcp_send_loop` from its `call`-th `send` on, where the `i`-th one takes at
most `sizes i` bytes: the bytes that leave and the number of calls made. `fuel`
bounds the rounds. -/
def tcpSendLoop (sizes : Nat → Nat) : Nat → Nat → List UInt8 → Option (List UInt8 × Nat)
  | _, call, [] => some ([], call)
  | 0, _, _ :: _ => none
  | fuel + 1, call, c :: buf =>
    let curSent := min (sizes call) (buf.length + 1)
    if curSent = 0 then none
    else
      match tcpSendLoop sizes fuel (call + 1) ((c :: buf).drop curSent) with
      | none => none
      | some (sent, call) => some ((c :: buf).take curSent ++ sent, call)

/-- `tcp_recv_loop` for `buflen` bytes of a stream, where the `i`-th `recv`
returns at most `sizes i` bytes: the bytes, the stream behind them and the
number of calls made. -/
def tcpRecvLoop (sizes : Nat → Nat) : Nat → Nat → Nat → List UInt8 → Option (List UInt8 × List UInt8 × Nat)
  | _, call, 0, stream => some ([], stream, call)
  | 0, _, _ + 1, _ => none
  | fuel + 1, call, buflen + 1, stream =>
    let curRecv := min (sizes call) (min (buflen + 1) stream.length)
    if curRecv = 0 then none
    else
      match tcpRecvLoop sizes fuel (call + 1) (buflen + 1 - curRecv) (stream.drop curRecv) with
      | none => none
      | some (received, rest, call) => some (stream.take curRecv ++ received, rest, call)

/-- `drpc_tcp_send_message` through its two loops, the header and the buffer;
`none` is the return value 1. -/
def drpcTcpSendFrame (aes : Option Aes) (sizes : Nat → Nat) (call : Nat) (prepackedMessage : DStruct Element) :
    Outcome (Option (List UInt8 × Nat)) := do
  let frame ← drpcTcpSendMessage aes prepackedMessage
  match tcpSendLoop sizes headerLen call (frame.take headerLen) with
  | none => pure none
  | some (header, call) =>
    match tcpSendLoop sizes frame.length call (frame.drop headerLen) with
    | none => pure none
    | some (sendBuf, call) => pure (some (header ++ sendBuf, call))

/-- `drpc_tcp_recv_message` through its two loops, with the stream behind the
frame; `none` is the return value 1. -/
def drpcTcpRecvFrame (aes : Option Aes) (sizes : Nat → Nat) (call : Nat) (stream : List UInt8) :
    Outcome (Option (DStruct Element × List UInt8 × Nat)) :=
  drpcTcpRecvMessageBy (fun io buflen => tcpRecvLoop sizes buflen io.2 buflen io.1) (2 ^ 64) aes (stream, call)

/-- Successive sends: the bytes on the wire. -/
def drpcTcpSendAll (aes : Option Aes) (sizes : Nat → Nat) : Nat → List (DStruct Element) → Outcome (Option (List UInt8))
  | _, [] => pure (some [])
  | call, message :: messages => do
    let sent ← drpcTcpSendFrame aes sizes call message
    match sent with
    | none => pure none
    | some (frame, call) => do
      let later ← drpcTcpSendAll aes sizes call messages
      pure (later.map fun stream => frame ++ stream)

/-- Successive receives, with the stream behind the last frame. -/
def drpcTcpRecvAll (aes : Option Aes) (sizes : Nat → Nat) :
    Nat → Nat → List UInt8 → Outcome (Option (List (DStruct Element) × List UInt8))
  | 0, _, stream => pure (some ([], stream))
  | count + 1, call, stream => do
    let received ← drpcTcpRecvFrame aes sizes call stream
    match received with
    | none => pure none
    | some (container, stream, call) => do
      let later ← drpcTcpRecvAll aes sizes count call stream
      pure (later.map fun rest => (container :: rest.1, rest.2))

section Loops
variable {sizes : Nat → Nat} (positive : ∀ i, 0 < sizes i)
include positive

/-- When every `send` takes some bytes, all of them leave in order. -/
theorem tcpSendLoop_eq (fuel : Nat) (buf : List UInt8) (enough : buf.length ≤ fuel) (call : Nat) :
    ∃ call', tcpSendLoop sizes fuel call buf = some (buf, call') := by
  induction fuel generalizing call buf with
  | zero =>
    rw [List.eq_nil_of_length_eq_zero (Nat.le_zero.mp enough)]
    exact ⟨call, rfl⟩
  | succ fuel ih =>
    cases buf with
    | nil => exact ⟨call, rfl⟩
    | cons c buf =>
      rw [List.length_cons] at enough
      have taken := positive call
      have some_sent : min (sizes call) (buf.length + 1) ≠ 0 := by omega
      obtain ⟨call', rest⟩ := ih ((c :: buf).drop (min (sizes call) (buf.length + 1))) (by
        rw [List.length_drop, List.length_cons]
        omega) (call + 1)
      refine ⟨call', ?_⟩
      rw [tcpSendLoop, if_neg some_sent, rest]
      dsimp only
      rw [List.take_append_drop]

/-- When every `recv` returns some bytes, the loop takes what it asks for off the stream. -/
theorem tcpRecvLoop_eq (fuel buflen : Nat) (stream : List UInt8) (enough : buflen ≤ fuel)
    (there : buflen ≤ stream.length) (call : Nat) :
    ∃ call', tcpRecvLoop sizes fuel call buflen stream = some (stream.take buflen, stream.drop buflen, call') := by
  induction fuel generalizing call buflen stream with
  | zero =>
    rw [Nat.le_zero.mp enough]
    exact ⟨call, rfl⟩
  | succ fuel ih =>
    cases buflen with
    | zero => exact ⟨call, rfl⟩
    | succ buflen =>
      have taken := positive call
      obtain ⟨cur, same⟩ : ∃ cur, cur = min (sizes call) (min (buflen + 1) stream.length) := ⟨_, rfl⟩
      have some_received : cur ≠ 0 := by omega
      obtain ⟨call', rest⟩ := ih (buflen + 1 - cur) (stream.drop cur) (by omega) (by
        rw [List.length_drop]
        omega) (call + 1)
      refine ⟨call', ?_⟩
      rw [tcpRecvLoop, ← same, if_neg some_received, rest]
      dsimp only
      rw [← List.take_add, List.drop_drop, show cur + (buflen + 1 - cur) = buflen + 1 by omega]

theorem drpcTcpSendFrame_eq {aes : Option Aes} {d : DStruct Element} {frame : List UInt8}
    (sends : drpcTcpSendMessage aes d = .ok frame) (call : Nat) :
    ∃ call', drpcTcpSendFrame aes sizes call d = .ok (some (frame, call')) := by
  obtain ⟨middle, header⟩ := tcpSendLoop_eq positive headerLen (frame.take headerLen)
    (List.length_take_le _ _) call
  obtain ⟨call', body⟩ := tcpSendLoop_eq positive frame.length (frame.drop headerLen) (by
    rw [List.length_drop]
    omega) middle
  refine ⟨call', ?_⟩
  rw [drpcTcpSendFrame, sends, ok_bind, header]
  dsimp only
  rw [body]
  dsimp only
  rw [List.take_append_drop]
  rfl

/-- A receive takes exactly one frame off the stream, and decodes it to the struct that was sent. -/
theorem drpcTcpRecvFrame_eq {aes : Option Aes} {d : DStruct Element} {frame : List UInt8}
    (wf : (Element.dstruct d).Wf) (dense : (Element.dstruct d).Dense) (sends : drpcTcpSendMessage aes d = .ok frame)
    (rest : List UInt8) (call : Nat) :
    ∃ d' call', drpcTcpRecvFrame aes sizes call (frame ++ rest) = .ok (some (d', rest, call')) ∧ d'.value = d.value := by
  obtain ⟨padding, blocks, fits, rfl⟩ := drpcTcpSendMessage_inv wf sends
  have small : (fieldsBuf d.hashtable.bindings).length < 2 ^ 64 := by
    rw [List.length_append] at fits
    omega
  obtain ⟨d', decoded, run⟩ := DStruct.roundTrip wf dense small
  have length := Aes.seal_length aes blocks
  have plain := run padding
  revert blocks fits length plain
  generalize fieldsBuf d.hashtable.bindings ++ padding = buf
  intro blocks fits length plain
  have header : (drpcSignature ++ u64 buf.length).length = headerLen := by
    rw [List.length_append, u64_length]
    rfl
  obtain ⟨middle, first⟩ := tcpRecvLoop_eq positive headerLen headerLen
    (drpcSignature ++ u64 buf.length ++ Aes.seal aes buf ++ rest) le_rfl (by
      rw [List.length_append, List.length_append, header]
      omega) call
  rw [List.append_assoc (drpcSignature ++ u64 buf.length), List.take_left' header, List.drop_left' header] at first
  obtain ⟨call', second⟩ := tcpRecvLoop_eq positive buf.length buf.length (Aes.seal aes buf ++ rest) le_rfl (by
      rw [List.length_append, length]
      omega) middle
  rw [List.take_left' length, List.drop_left' length] at second
  refine ⟨d', call', ?_, decoded.value⟩
  rw [drpcTcpRecvFrame, List.append_assoc (drpcSignature ++ u64 buf.length), drpcTcpRecvMessageBy_frame aes blocks fits
    fits.le first second, plain]
  rfl

end Loops

section Stream
variable {aes : Option Aes} {sizes : Nat → Nat} {messages : List (DStruct Element)} {frames : List (List UInt8)}

/-- Successive sends put the frames of the messages on the wire, one after the other. -/
theorem drpcTcpSendAll_eq (positive : ∀ i, 0 < sizes i) (aes : Option Aes)
    (shape : ∀ d ∈ messages, (Element.dstruct d).Wf)
    (small : ∀ d ∈ messages, (fieldsBuf d.hashtable.bindings).length ≤ 2 ^ 64 - 16) (call : Nat) :
    ∃ frames, List.Forall₂ (fun d frame => drpcTcpSendMessage aes d = .ok frame) messages frames ∧
      drpcTcpSendAll aes sizes call messages = .ok (some frames.flatten) := by
  induction messages generalizing call with
  | nil => exact ⟨[], .nil, rfl⟩
  | cons message messages ih =>
    obtain ⟨wf, shapes⟩ := List.forall_mem_cons.mp shape
    obtain ⟨fits, others⟩ := List.forall_mem_cons.mp small
    obtain ⟨frame, sends⟩ := drpcTcpSendMessage_sends aes wf fits
    obtain ⟨next, sent⟩ := drpcTcpSendFrame_eq positive sends call
    obtain ⟨frames, each, later⟩ := ih shapes others next
    refine ⟨frame :: frames, .cons sends each, ?_⟩
    rw [drpcTcpSendAll, sent, ok_bind]
    dsimp only
    rw [later]
    rfl

/-- Successive receives take the frames off one by one. -/
theorem drpcTcpRecvAll_eq (positive : ∀ i, 0 < sizes i)
    (shape : ∀ d ∈ messages, (Element.dstruct d).Wf ∧ (Element.dstruct d).Dense)
    (sends : List.Forall₂ (fun d frame => drpcTcpSendMessage aes d = .ok frame) messages frames) {n : Nat}
    (bound : n ≤ messages.length) (later : List UInt8) (call : Nat) :
    ∃ received, drpcTcpRecvAll aes sizes n call (frames.flatten ++ later) =
        .ok (some (received, (frames.drop n).flatten ++ later)) ∧
      List.Forall₂ (fun d d' => d'.value = d.value) (messages.take n) received := by
  induction n generalizing messages frames call with
  | zero => exact ⟨[], rfl, .nil⟩
  | succ n ih =>
    cases sends with
    | nil => cases bound
    | @cons d frame messages frames here others =>
      obtain ⟨⟨wf, dense⟩, shapes⟩ := List.forall_mem_cons.mp shape
      obtain ⟨d', next, received, same⟩ := drpcTcpRecvFrame_eq positive wf dense here (frames.flatten ++ later) call
      obtain ⟨rest, run, values⟩ := ih shapes others (Nat.le_of_succ_le_succ bound) next
      refine ⟨d' :: rest, ?_, .cons same values⟩
      rw [drpcTcpRecvAll, List.flatten_cons, List.append_assoc, received, ok_bind]
      dsimp only
      rw [run]
      rfl

end Stream

/-- TCP framing is a faithful message stream: whatever the fragments of the
sends and the receives, the bytes on the wire are one frame for each message,
and the first `n` receives take exactly the first `n` frames and return structs
that mean what was sent. -/
theorem tcpStream_faithful {messages : List (DStruct Element)} {sendSizes recvSizes : Nat → Nat} (aes : Option Aes)
    (sending : ∀ i, 0 < sendSizes i) (receiving : ∀ i, 0 < recvSizes i)
    (shape : ∀ d ∈ messages, (Element.dstruct d).Wf ∧ (Element.dstruct d).Dense)
    (small : ∀ d ∈ messages, (fieldsBuf d.hashtable.bindings).length ≤ 2 ^ 64 - 16) :
    ∃ stream frames, drpcTcpSendAll aes sendSizes 0 messages = .ok (some stream) ∧
      List.Forall₂ (fun d frame => drpcTcpSendMessage aes d = .ok frame) messages frames ∧
      stream = frames.flatten ∧ ∀ n ≤ messages.length, ∀ later,
        ∃ received, drpcTcpRecvAll aes recvSizes n 0 (stream ++ later) =
            .ok (some (received, (frames.drop n).flatten ++ later)) ∧
          List.Forall₂ (fun d d' => d'.value = d.value) (messages.take n) received := by
  obtain ⟨frames, sends, sent⟩ := drpcTcpSendAll_eq sending aes (fun d member => (shape d member).1) small 0
  exact ⟨_, frames, sent, sends, rfl, fun n bound later => drpcTcpRecvAll_eq receiving shape sends bound later 0⟩

/-- A struct with a string and an empty one over an encrypted connection that
sends single bytes and receives seven at a time. -/
theorem tcpStream_faithful_twoMessages : ∃ d stream,
    dStructSet newDStruct (.ofString "a") (.element (Element.str [104, 105, 0])) = .ok d ∧
    drpcTcpSendAll (some (.ofKey iv)) (fun _ => 1) 0 [d, newDStruct] = .ok (some stream) ∧
    ∃ received rest, drpcTcpRecvAll (some (.ofKey iv)) (fun _ => 7) 2 0 (stream ++ []) = .ok (some (received, rest)) ∧
      List.Forall₂ (fun d d' : DStruct Element => d'.value = d.value) [d, newDStruct] received := by
  have empty : (Element.dstruct newDStruct).Wf ∧ (Element.dstruct newDStruct).Dense :=
    ⟨.dstruct newDStruct_wf fun key e member => absurd member List.not_mem_nil,
      .dstruct fun key e member => absurd member List.not_mem_nil⟩
  obtain ⟨d, set, filled⟩ := DStruct.Filled.start.set (.ofString "a") (Element.str [104, 105, 0]) List.not_mem_nil
  have only : ∀ key e, (key, e) ∈ d.hashtable.bindings → e = .str [104, 105, 0] := by
    intro key e member
    cases List.mem_singleton.mp (filled.bindings.mem_iff.mp member)
    rfl
  have shape : (Element.dstruct d).Wf ∧ (Element.dstruct d).Dense :=
    ⟨.dstruct filled.wf fun key e member => only key e member ▸ .str (by decide),
      .dstruct fun key e member => only key e member ▸ .str⟩
  have length : (fieldsBuf d.hashtable.bindings).length ≤ 2 ^ 64 - 16 := by
    rw [fieldsBuf, drpcTypesBuf_length, (((filled.bindings.map fieldRecord).map _).sum_eq)]
    decide
  have none_there : (fieldsBuf (newDStruct : DStruct Element).hashtable.bindings).length ≤ 2 ^ 64 - 16 := by decide
  obtain ⟨stream, frames, sent, -, -, each⟩ := @tcpStream_faithful [d, newDStruct] (fun _ => 1) (fun _ => 7)
    (some (.ofKey iv)) (fun _ => Nat.one_pos) (fun _ => by decide)
    (List.forall_mem_cons.mpr ⟨shape, List.forall_mem_singleton.mpr empty⟩)
    (List.forall_mem_cons.mpr ⟨length, List.forall_mem_singleton.mpr none_there⟩)
  obtain ⟨received, ran, values⟩ := each 2 le_rfl []
  exact ⟨d, stream, set, sent, received, _, ran, values⟩

end DynamicRPC
