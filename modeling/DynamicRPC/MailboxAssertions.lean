import DynamicRPC.AssertionFree
import DynamicRPC.MailboxAck

/-! The assertions of the mailbox handlers: which frames of a destination they survive. -/

namespace DynamicRPC
open Outcome

/-- Where the client runs, the frame that answers messages for a mailbox is survived. -/
def DrpcClient.Takes (client : DrpcClient) (mailboxName : CString) (messages : DQueue) : Prop :=
  client.clientStop = 0 → ∀ first payload,
    dStructSet newDStruct (.ofString "receiver_mailbox") (.element (Element.str mailboxName.block)) = .ok first →
    dStructSet first (.ofString "messages") (.element (Element.queue messages)) = .ok payload →
    client.io ⟨.mailboxRecv, some payload⟩ ≠ .recvFaults .assertion

/-- Where the client runs, the frame that answers a fetch is survived, and it is no `drpc_ok`
with a payload that has no queue of messages. -/
def DrpcClient.Sends (client : DrpcClient) (mailboxName : CString) : Prop :=
  client.clientStop = 0 → ∀ payload,
    dStructSet newDStruct (.ofString "sender_mailbox") (.element (Element.str mailboxName.block)) = .ok payload →
    client.io ⟨.mailboxSend, some payload⟩ ≠ .recvFaults .assertion ∧
      ∀ reply, client.io ⟨.mailboxSend, some payload⟩ = .reply ⟨.ok, some reply⟩ →
        dStructGet reply (.ofString "messages") .dQueue ≠ .ok none

/-- The destination of a proxied `drpc_mailbox_recv` event takes the messages, when they get
as far as it. -/
def Mailboxes.DestinationTakes (server : Mailboxes) (ping : DrpcClient → DrpcClient)
    (message : Option (DStruct Element)) : Prop :=
  ∀ received name mailboxName element messages proxy, message = some received →
    dStructGet received (CString.ofString "receiver_mailbox") .dStr = .ok (some name) → name.asStr = .ok mailboxName →
    dStructGet received (CString.ofString "messages") .dQueue = .ok (some element) → element.asQueue = .ok messages →
    dStructGet server.recvMailboxes mailboxName .dQueue = .ok none →
    hashtableGet server.proxyRecvMailboxes mailboxName = .ok (some proxy) → (proxyRecover server proxy).2 = true →
    (ping (proxyRecover server proxy).1).Takes mailboxName messages

/-- The destination of a proxied `drpc_mailbox_send` event sends messages, when the request
gets as far as it. -/
def Mailboxes.DestinationSends (server : Mailboxes) (ping : DrpcClient → DrpcClient)
    (message : Option (DStruct Element)) : Prop :=
  ∀ received name mailboxName proxy, message = some received →
    dStructGet received (CString.ofString "sender_mailbox") .dStr = .ok (some name) → name.asStr = .ok mailboxName →
    dStructGet server.sendMailboxes mailboxName .dQueue = .ok none →
    hashtableGet server.proxySendMailboxes mailboxName = .ok (some proxy) → (proxyRecover server proxy).2 = true →
    (ping (proxyRecover server proxy).1).Sends mailboxName

section Mailbox
variable {server : Mailboxes} {ping : DrpcClient → DrpcClient}

end Mailbox

end DynamicRPC
