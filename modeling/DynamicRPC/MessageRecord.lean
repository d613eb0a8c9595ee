import DynamicRPC.Tcp

namespace DynamicRPC
open Outcome

/-- The two ends of a connection: the container that `recv` at one end hands
out after `send` at the other, or `none` when `recv` does not return 0. -/
structure DrpcIo where
  deliver : DStruct Element → Outcome (Option (DStruct Element))

/-- `drpc_send_message` at one end and `drpc_recv_message` into a record at the
other; `none` is the return value 1 of the latter. -/
def drpcPassMessage (io : DrpcIo) (sent : DrpcMessage) (msg : MessageRecord) : Outcome (Option MessageRecord) := do
  let container ← drpcSendMessage sent
  let arrived ← io.deliver container
  match arrived with
  | none => pure none
  | some container => do
    let msg ← drpcRecvMessageInto container msg
    pure (some msg)

/-- A container arrives as a struct with the same fields, or not at all. -/
def DrpcIo.Delivers (io : DrpcIo) (container : DStruct Element) : Prop :=
  ∀ arrived, io.deliver container = .ok (some arrived) → arrived.hashtable.Open ∧ arrived.value = container.value

/-- The pointer leads to what was sent: a struct of the same meaning, or `NULL` for no payload. -/
def MessagePointer.Holds : MessagePointer → Option (DStruct Element) → Prop
  | .null, none => True
  | .struct d, some sent => d.value = sent.value
  | _, _ => False

/-- A message arrives as it was sent, with `NULL` for no payload, if and only
if it has a payload or the record it is received into held `NULL` before. -/
theorem drpcMessage_received_iff {io : DrpcIo} {sent : DrpcMessage} {prior got : MessageRecord}
    (faithful : ∀ container, drpcSendMessage sent = .ok container → io.Delivers container)
    (ran : drpcPassMessage io sent prior = .ok (some got)) :
    got.messageType = sent.messageType.toUInt8 ∧ got.message.Holds sent.message ↔
      sent.message ≠ none ∨ prior.message = .null := by
  obtain ⟨container, packed, filled⟩ := drpcSendMessage_filled sent
  rw [drpcPassMessage, packed, ok_bind] at ran
  obtain ⟨result, delivered, ran⟩ := bind_eq_ok.mp ran
  cases result with
  | none => cases ran
  | some arrived =>
    obtain ⟨isOpen, same⟩ := faithful container packed arrived delivered
    obtain ⟨message, received, holds⟩ := drpcRecvMessageInto_spec filled isOpen same prior
    dsimp only at ran
    rw [received] at ran
    cases ran
    cases payload : sent.message with
    | some d =>
      rw [payload] at holds
      obtain ⟨d', rfl, sameValue, -⟩ := holds
      exact ⟨fun _ => Or.inl (by simp), fun _ => ⟨rfl, sameValue⟩⟩
    | none =>
      rw [payload] at holds
      rw [show message = prior.message from holds]
      cases prior.message <;> simp [MessagePointer.Holds]

/-- An `io` whose ends share a queue hands over the container itself. -/
def dqueueIo : DrpcIo := ⟨fun container => .ok (some container)⟩

theorem dqueueIo_delivers {sent : DrpcMessage} {container : DStruct Element}
    (packed : drpcSendMessage sent = .ok container) : dqueueIo.Delivers container := by
  obtain ⟨other, again, filled⟩ := drpcSendMessage_filled sent
  rw [packed] at again
  cases again
  intro arrived delivered
  cases delivered
  exact ⟨⟨filled.table, filled.room⟩, rfl⟩

/-- A TCP connection. -/
def tcpIo (aes : Option Aes) : DrpcIo where
  deliver := fun container => do
    let stream ← drpcTcpSendMessage aes container
    drpcTcpRecvMessage aes stream

theorem tcpIo_delivers {aes : Option Aes} {container : DStruct Element} (wf : (Element.dstruct container).Wf) :
    (tcpIo aes).Delivers container := by
  intro arrived delivered
  obtain ⟨stream, sends, received⟩ := bind_eq_ok.mp delivered
  have decoded := drpcTcp_arrives wf sends received
  cases decoded.wf with
  | dstruct table fields =>
    cases decoded.compact with
    | dstruct noDead compact =>
      have filled := table.filled noDead
      exact ⟨⟨filled.table, filled.room⟩, decoded.value⟩

theorem drpcMessage_received_iff_ping : ∃ got, drpcPassMessage dqueueIo ⟨.ping, none⟩ ⟨0, .null⟩ = .ok (some got) ∧
    (got.messageType = DrpcProtocol.ping.toUInt8 ∧ got.message.Holds none ↔
      (none : Option (DStruct Element)) ≠ none ∨ MessagePointer.null = .null) :=
  have ran : drpcPassMessage dqueueIo ⟨.ping, none⟩ ⟨0, .null⟩ = .ok (some ⟨7, .null⟩) := rfl
  ⟨_, ran, drpcMessage_received_iff (fun _ => dqueueIo_delivers) ran⟩

/-- A reply without a payload, received into a record on the stack that nobody
initialised: its `message` is not `NULL`. -/
theorem drpcMessage_keepsGarbage : ∃ got, drpcPassMessage dqueueIo ⟨.notfound, none⟩ ⟨0, .indeterminate⟩ = .ok (some got) ∧
    ¬ (got.messageType = DrpcProtocol.notfound.toUInt8 ∧ got.message.Holds none) :=
  ⟨_, rfl, fun held => held.2⟩

end DynamicRPC
