import DynamicRPC.Protocol

namespace DynamicRPC

/-- What a client function returns, with the exchanges it made. -/
structure ClientResult where
  ret : DrpcClientErrors
  exchanges : List (DrpcMessage × Exchange)

/-- `drpc_client_mailbox_send`. -/
def drpcClientMailboxSend (client : DrpcClient) (mailboxName : CString) (messages : DQueue) : Outcome ClientResult :=
  if client.clientStop ≠ 0 then pure ⟨.clientstopped, []⟩
  else do
    let payload ← dStructSet newDStruct (CString.ofString "receiver_mailbox") (.element (.str mailboxName.block))
    let payload ← dStructSet payload (CString.ofString "messages") (.element (.queue messages))
    let send : DrpcMessage := ⟨.mailboxRecv, some payload⟩
    match client.io send with
    | .sendFails => pure ⟨.enetwork, [(send, .sendFails)]⟩
    | .recvFails => pure ⟨.enetwork, [(send, .recvFails)]⟩
    | .recvFaults fault => .error fault
    | .reply recv =>
      if recv.messageType ≠ .ok then pure ⟨.enetwork, [(send, .reply recv)]⟩
      else pure ⟨.ok, [(send, .reply recv)]⟩

/-- `drpc_client_mailbox_recv`, with the queue it fills. -/
def drpcClientMailboxRecv (client : DrpcClient) (mailboxName : CString) (output : DQueue) :
    Outcome (ClientResult × DQueue) :=
  if client.clientStop ≠ 0 then pure (⟨.clientstopped, []⟩, output)
  else do
    let payload ← dStructSet newDStruct (CString.ofString "sender_mailbox") (.element (.str mailboxName.block))
    let send : DrpcMessage := ⟨.mailboxSend, some payload⟩
    match client.io send with
    | .sendFails => pure (⟨.enetwork, [(send, .sendFails)]⟩, output)
    | .recvFails => pure (⟨.enetwork, [(send, .recvFails)]⟩, output)
    | .recvFaults fault => .error fault
    | .reply recv =>
      match recv.messageType, recv.message with
      | .ok, some message => do
        let found ← dStructGet message (CString.ofString "messages") .dQueue
        match found with
        | none => .error .assertion
        | some element => do
          let messages ← element.asQueue
          let (_, output) := moveMessages (queueCount messages) messages output
          pure (⟨.ok, [(send, .reply recv)]⟩, output)
      | _, _ => pure (⟨.enetwork, [(send, .reply recv)]⟩, output)

/-- The mailboxes of a server and the clients behind its proxy mailboxes.
`proxy_fail_handler` may do anything to the client it is given. -/
structure Mailboxes where
  recvMailboxes : DStruct Element
  sendMailboxes : DStruct Element
  proxyRecvMailboxes : Hashtable Nat
  proxySendMailboxes : Hashtable Nat
  clients : Nat → DrpcClient
  proxyFailHandler : Option (DrpcClient → DrpcClient × Int)

/-- What a mailbox handler did: the mailboxes it leaves, its reply and the
exchanges with the destination. -/
structure Handled where
  server : Mailboxes
  reply : DrpcMessage
  exchanges : List (DrpcMessage × Exchange)

/-- The test of a stopped proxy client, with the client as the handler leaves
it and whether the request goes on. -/
def proxyRecover (server : Mailboxes) (proxy : Nat) : DrpcClient × Bool :=
  let client := server.clients proxy
  if client.clientStop = 1 then
    match server.proxyFailHandler with
    | some handler =>
      let (client, ret) := handler client
      (client, ret = 0)
    | none => (client, true)
  else (client, true)

def Mailboxes.setClient (server : Mailboxes) (proxy : Nat) (client : DrpcClient) : Mailboxes :=
  { server with clients := Function.update server.clients proxy client }

/-- The reply that the switch over the client's return value leads to. The
values it does not name fall through. -/
def proxyReply : DrpcClientErrors → DrpcProtocol
  | .enetwork => .bad
  | .badreply => .notfound
  | _ => .ok

/-- `drpc_handle_mailbox_recv`. Between the test of `client_stop` and the
exchange the ping thread of the proxy client may run. -/
def drpcHandleMailboxRecv (server : Mailboxes) (ping : DrpcClient → DrpcClient)
    (receivedMessage : Option (DStruct Element)) : Outcome Handled :=
  match receivedMessage with
  | none => pure ⟨server, ⟨.bad, none⟩, []⟩
  | some received => do
    let found ← dStructGet received (CString.ofString "receiver_mailbox") .dStr
    match found with
    | none => pure ⟨server, ⟨.notfound, none⟩, []⟩
    | some name => do
      let mailboxName ← name.asStr
      let found ← dStructGet received (CString.ofString "messages") .dQueue
      match found with
      | none => pure ⟨server, ⟨.notfound, none⟩, []⟩
      | some element => do
        let messages ← element.asQueue
        let mailbox ← dStructGet server.recvMailboxes mailboxName .dQueue
        match mailbox with
        | some mailbox => do
          let receiverMailbox ← mailbox.asQueue
          let (_, receiverMailbox) := moveMessages (queueCount messages) messages receiverMailbox
          let recvMailboxes ← dStructModify server.recvMailboxes mailboxName fun _ => .queue receiverMailbox
          pure ⟨{ server with recvMailboxes := recvMailboxes }, ⟨.ok, none⟩, []⟩
        | none => do
          let proxy ← hashtableGet server.proxyRecvMailboxes mailboxName
          match proxy with
          | none => pure ⟨server, ⟨.notfound, none⟩, []⟩
          | some proxy => do
            let (client, goesOn) := proxyRecover server proxy
            if goesOn then do
              let _ ← dStructUnlink received (CString.ofString "messages")
              let result ← drpcClientMailboxSend (ping client) mailboxName messages
              pure ⟨server.setClient proxy (ping client), ⟨proxyReply result.ret, none⟩, result.exchanges⟩
            else pure ⟨server.setClient proxy client, ⟨.notfound, none⟩, []⟩

/-- `drpc_handle_mailbox_send`. -/
def drpcHandleMailboxSend (server : Mailboxes) (ping : DrpcClient → DrpcClient)
    (receivedMessage : Option (DStruct Element)) : Outcome Handled :=
  match receivedMessage with
  | none => pure ⟨server, ⟨.bad, none⟩, []⟩
  | some received => do
    let found ← dStructGet received (CString.ofString "sender_mailbox") .dStr
    match found with
    | none => pure ⟨server, ⟨.notfound, none⟩, []⟩
    | some name => do
      let mailboxName ← name.asStr
      let mailbox ← dStructGet server.sendMailboxes mailboxName .dQueue
      match mailbox with
      | some mailbox => do
        let extractedMessages ← mailbox.asQueue
        let (extractedMessages, sendedMessages) := moveMessages (queueCount extractedMessages) extractedMessages []
        let sendMailboxes ← dStructModify server.sendMailboxes mailboxName fun _ => .queue extractedMessages
        let message ← dStructSet newDStruct (CString.ofString "messages") (.element (.queue sendedMessages))
        pure ⟨{ server with sendMailboxes := sendMailboxes }, ⟨.ok, some message⟩, []⟩
      | none => do
        let proxy ← hashtableGet server.proxySendMailboxes mailboxName
        match proxy with
        | none => pure ⟨server, ⟨.notfound, none⟩, []⟩
        | some proxy => do
          let (client, goesOn) := proxyRecover server proxy
          if goesOn then do
            let (result, output) ← drpcClientMailboxRecv (ping client) mailboxName []
            let server := server.setClient proxy (ping client)
            if proxyReply result.ret = .ok then do
              let message ← dStructSet newDStruct (CString.ofString "messages") (.element (.queue output))
              pure ⟨server, ⟨.ok, some message⟩, result.exchanges⟩
            else pure ⟨server, ⟨proxyReply result.ret, none⟩, result.exchanges⟩
          else pure ⟨server.setClient proxy client, ⟨.notfound, none⟩, []⟩

end DynamicRPC
