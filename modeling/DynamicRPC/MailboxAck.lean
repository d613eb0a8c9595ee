import DynamicRPC.Mailbox

namespace DynamicRPC
open Outcome

/-- A struct field that a getter reads as a string. -/
def ReadsStr (d : DStruct Element) (key s : CString) : Prop :=
  ∃ e, dStructGet d key .dStr = .ok (some e) ∧ e.asStr = .ok s

/-- A struct field that a getter reads as a queue. -/
def ReadsQueue (d : DStruct Element) (key : CString) (q : DQueue) : Prop :=
  ∃ e, dStructGet d key .dQueue = .ok (some e) ∧ e.asQueue = .ok q

/-- The payload of a request to put messages into a mailbox. -/
def RecvRequest (payload : Option (DStruct Element)) (mailboxName : CString) (messages : DQueue) : Prop :=
  ∃ d, payload = some d ∧ ReadsStr d (.ofString "receiver_mailbox") mailboxName ∧
    ReadsQueue d (.ofString "messages") messages

/-- The payload of a request to fetch from a mailbox. -/
def SendRequest (payload : Option (DStruct Element)) (mailboxName : CString) : Prop :=
  ∃ d, payload = some d ∧ ReadsStr d (.ofString "sender_mailbox") mailboxName

/-- The payload of a reply to a fetch. -/
def Carries (payload : Option (DStruct Element)) (messages : DQueue) : Prop :=
  ∃ d, payload = some d ∧ ReadsQueue d (.ofString "messages") messages

/-- The messages of a request were appended to the local mailbox, or the
destination acknowledged a request with them. -/
def RecvAcked (server : Mailboxes) (received : Option (DStruct Element)) (handled : Handled) : Prop :=
  ∃ mailboxName messages, RecvRequest received mailboxName messages ∧
    ((∃ before, ReadsQueue server.recvMailboxes mailboxName before ∧
        ReadsQueue handled.server.recvMailboxes mailboxName (before ++ messages)) ∨
      ∃ send recv, (send, .reply recv) ∈ handled.exchanges ∧ recv.messageType = .ok ∧
        RecvRequest send.message mailboxName messages)

/-- The messages of a reply were taken out of the local mailbox, or the
destination sent them with its acknowledgement. -/
def SendAcked (server : Mailboxes) (received : Option (DStruct Element)) (handled : Handled) : Prop :=
  ∃ mailboxName messages, SendRequest received mailboxName ∧ Carries handled.reply.message messages ∧
    ((ReadsQueue server.sendMailboxes mailboxName messages ∧ ReadsQueue handled.server.sendMailboxes mailboxName []) ∨
      ∃ send recv, (send, .reply recv) ∈ handled.exchanges ∧ recv.messageType = .ok ∧
        SendRequest send.message mailboxName ∧ Carries recv.message messages)

/-- The request goes on to a proxy client that is stopped when the client
function looks. -/
def ReachesStopped (server : Mailboxes) (ping : DrpcClient → DrpcClient) (mailboxes : DStruct Element)
    (proxies : Hashtable Nat) (mailboxName : CString) : Prop :=
  dStructGet mailboxes mailboxName .dQueue = .ok none ∧ ∃ proxy, hashtableGet proxies mailboxName = .ok (some proxy) ∧
    (proxyRecover server proxy).2 = true ∧ (ping (proxyRecover server proxy).1).clientStop ≠ 0

theorem ReadsStr.unique {d : DStruct Element} {key s s' : CString} (reads : ReadsStr d key s) (again : ReadsStr d key s') :
    s = s' := by
  obtain ⟨e, get, text⟩ := reads
  obtain ⟨e', get', text'⟩ := again
  rw [get] at get'
  cases get'
  rw [text] at text'
  exact Except.ok.inj text'

section Payloads
variable {entries : List (CString × Element)} {d : DStruct Element} {key : CString}

theorem DStruct.Filled.readsStr {s : CString} (filled : d.Filled entries)
    (field : entries.lookup key = some (.str s.block)) : ReadsStr d key s := by
  refine ⟨.str s.block, dStructGet_of_get ?_ rfl, CString.read_block s⟩
  rw [filled.get, field]

theorem DStruct.Filled.readsQueue {q : DQueue} (filled : d.Filled entries) (field : entries.lookup key = some (.queue q)) :
    ReadsQueue d key q := by
  refine ⟨.queue q, dStructGet_of_get ?_ rfl, rfl⟩
  rw [filled.get, field]

end Payloads

/-- `drpc_client_mailbox_send` returns `DRPC_OK` only for a request that the destination
acknowledged. -/
theorem drpcClientMailboxSend_spec {client : DrpcClient} {mailboxName : CString} {messages : DQueue} {result : ClientResult}
    (run : drpcClientMailboxSend client mailboxName messages = .ok result) (runs : client.clientStop = 0)
    (named : proxyReply result.ret = .ok) : ∃ send recv, (send, .reply recv) ∈ result.exchanges ∧
      recv.messageType = .ok ∧ RecvRequest send.message mailboxName messages := by
  unfold drpcClientMailboxSend at run
  obtain ⟨d₁, first, filled₁⟩ := DStruct.Filled.start.set (.ofString "receiver_mailbox") (Element.str mailboxName.block)
    List.not_mem_nil
  obtain ⟨d₂, second, filled₂⟩ := filled₁.set (.ofString "messages") (Element.queue messages) (by simp; decide)
  have request : RecvRequest (some d₂) mailboxName messages :=
    ⟨d₂, rfl, filled₂.readsStr rfl, filled₂.readsQueue (by rfl)⟩
  rw [if_neg (not_not.mpr runs), first, ok_bind, second, ok_bind] at run
  dsimp only at run
  split at run
  · cases run
    cases named
  · cases run
    cases named
  · cases run
  · rename_i recv _
    split at run
    · cases run
      cases named
    · rename_i acked
      cases run
      exact ⟨_, recv, List.mem_singleton.mpr rfl, not_not.mp acked, request⟩

theorem drpcClientMailboxSend_stopped {client : DrpcClient} (mailboxName : CString) (messages : DQueue)
    (stopped : client.clientStop ≠ 0) : drpcClientMailboxSend client mailboxName messages = .ok ⟨.clientstopped, []⟩ :=
  if_pos stopped

/-- The same of `drpc_client_mailbox_recv`, with the messages it fetched. -/
theorem drpcClientMailboxRecv_spec {client : DrpcClient} {mailboxName : CString} {result : ClientResult}
    {output : DQueue} (run : drpcClientMailboxRecv client mailboxName [] = .ok (result, output))
    (runs : client.clientStop = 0) (named : proxyReply result.ret = .ok) :
    ∃ send recv, (send, .reply recv) ∈ result.exchanges ∧ recv.messageType = .ok ∧
      SendRequest send.message mailboxName ∧ Carries recv.message output := by
  unfold drpcClientMailboxRecv at run
  obtain ⟨d, first, filled⟩ := DStruct.Filled.start.set (.ofString "sender_mailbox") (Element.str mailboxName.block)
    List.not_mem_nil
  rw [if_neg (not_not.mpr runs), first, ok_bind] at run
  dsimp only at run
  split at run
  · cases run
    cases named
  · cases run
    cases named
  · cases run
  · rename_i recv _
    split at run
    · rename_i message type payload
      obtain ⟨found, get, run⟩ := bind_eq_ok.mp run
      cases found with
      | none => cases run
      | some element =>
        obtain ⟨messages, queue, run⟩ := bind_eq_ok.mp run
        rw [moveMessages_all] at run
        cases run
        exact ⟨_, recv, List.mem_singleton.mpr rfl, type, ⟨d, rfl, filled.readsStr rfl⟩,
          message, payload, element, get, queue⟩
    · cases run
      cases named

theorem drpcClientMailboxRecv_stopped {client : DrpcClient} (mailboxName : CString) (output : DQueue)
    (stopped : client.clientStop ≠ 0) :
    drpcClientMailboxRecv client mailboxName output = .ok (⟨.clientstopped, []⟩, output) :=
  if_pos stopped

theorem dStructUnlink_returns {d : DStruct Element} {key : CString} {type : DrpcTypes} {e : Element}
    (found : dStructGet d key type = .ok (some e)) : Returns (dStructUnlink d key) := by
  obtain ⟨get, _⟩ := dStructGet_some found
  obtain ⟨index, run, _⟩ := bind_eq_ok.mp get
  rw [dStructUnlink, get, ok_bind]
  dsimp only
  split
  · exact returns_ok _
  · rw [hashtableRemove, run, ok_bind]
    split <;> exact returns_ok _

section Recv
variable {server : Mailboxes} {ping : DrpcClient → DrpcClient} {received : Option (DStruct Element)}

/-- What the handler can do: refuse, push the messages into a mailbox of its
own, or send them on over a proxy client. -/
theorem drpcHandleMailboxRecv_inv {handled : Handled} (run : drpcHandleMailboxRecv server ping received = .ok handled) :
    handled.reply.messageType = .bad ∨ handled.reply.messageType = .notfound ∨
      ∃ mailboxName messages, RecvRequest received mailboxName messages ∧
        ((∃ mailbox before recvMailboxes, dStructGet server.recvMailboxes mailboxName .dQueue = .ok (some mailbox) ∧
            mailbox.asQueue = .ok before ∧
            dStructModify server.recvMailboxes mailboxName (fun _ => .queue (before ++ messages)) = .ok recvMailboxes ∧
            handled = ⟨{ server with recvMailboxes := recvMailboxes }, ⟨.ok, none⟩, []⟩) ∨
          ∃ proxy result, dStructGet server.recvMailboxes mailboxName .dQueue = .ok none ∧
            hashtableGet server.proxyRecvMailboxes mailboxName = .ok (some proxy) ∧
            (proxyRecover server proxy).2 = true ∧
            drpcClientMailboxSend (ping (proxyRecover server proxy).1) mailboxName messages = .ok result ∧
            handled = ⟨server.setClient proxy (ping (proxyRecover server proxy).1), ⟨proxyReply result.ret, none⟩,
              result.exchanges⟩) := by
  cases received with
  | none =>
    cases run
    exact .inl rfl
  | some d =>
    obtain ⟨found, getName, run⟩ := bind_eq_ok.mp run
    cases found with
    | none =>
      cases run
      exact .inr (.inl rfl)
    | some name =>
      obtain ⟨mailboxName, nameStr, run⟩ := bind_eq_ok.mp run
      obtain ⟨found, getMessages, run⟩ := bind_eq_ok.mp run
      cases found with
      | none =>
        cases run
        exact .inr (.inl rfl)
      | some element =>
        obtain ⟨messages, queue, run⟩ := bind_eq_ok.mp run
        have request : RecvRequest (some d) mailboxName messages :=
          ⟨d, rfl, ⟨name, getName, nameStr⟩, element, getMessages, queue⟩
        obtain ⟨mailbox, local_get, run⟩ := bind_eq_ok.mp run
        cases mailbox with
        | some mailbox =>
          obtain ⟨before, mailboxQueue, run⟩ := bind_eq_ok.mp run
          dsimp only at run
          rw [moveMessages_all] at run
          obtain ⟨recvMailboxes, modify, run⟩ := bind_eq_ok.mp run
          cases run
          exact .inr (.inr ⟨mailboxName, messages, request,
            .inl ⟨mailbox, before, recvMailboxes, local_get, mailboxQueue, modify, rfl⟩⟩)
        | none =>
          obtain ⟨proxy, proxyGet, run⟩ := bind_eq_ok.mp run
          cases proxy with
          | none =>
            cases run
            exact .inr (.inl rfl)
          | some proxy =>
            dsimp only at run
            split at run
            · rename_i goesOn
              obtain ⟨_, _, run⟩ := bind_eq_ok.mp run
              obtain ⟨result, sends, run⟩ := bind_eq_ok.mp run
              cases run
              exact .inr (.inr ⟨mailboxName, messages, request,
                .inr ⟨proxy, result, local_get, proxyGet, goesOn, sends, rfl⟩⟩)
            · cases run
              exact .inr (.inl rfl)

/-- Off the stopped proxies an `ok` reply means that the messages arrived. -/
theorem drpcHandleMailboxRecv_acked {handled : Handled} (run : drpcHandleMailboxRecv server ping received = .ok handled)
    (acked : handled.reply.messageType = .ok)
    (apart : ∀ mailboxName messages, RecvRequest received mailboxName messages →
      ¬ ReachesStopped server ping server.recvMailboxes server.proxyRecvMailboxes mailboxName) :
    RecvAcked server received handled := by
  obtain bad | notfound | ⟨mailboxName, messages, request, answered⟩ := drpcHandleMailboxRecv_inv run
  · rw [bad] at acked
    cases acked
  · rw [notfound] at acked
    cases acked
  · refine ⟨mailboxName, messages, request, ?_⟩
    obtain ⟨mailbox, before, recvMailboxes, local_get, mailboxQueue, modify, rfl⟩ |
      ⟨proxy, result, local_get, proxyGet, goesOn, sends, rfl⟩ := answered
    · left
      refine ⟨before, ⟨mailbox, local_get, mailboxQueue⟩, ?_⟩
      obtain ⟨other, again, reads⟩ := dStructModify_get (dStructGet_some local_get).1
        fun _ => .queue (before ++ messages)
      rw [again] at modify
      cases modify
      exact ⟨_, dStructGet_of_get reads rfl, rfl⟩
    · right
      refine drpcClientMailboxSend_spec sends ?_ acked
      by_contra stopped
      exact apart mailboxName messages request ⟨local_get, proxy, proxyGet, goesOn, stopped⟩

/-- At a stopped proxy the reply is `ok` and the messages are gone. -/
theorem drpcHandleMailboxRecv_lost (ping : DrpcClient → DrpcClient) {mailboxName : CString} {messages : DQueue}
    (request : RecvRequest received mailboxName messages)
    (stopped : ReachesStopped server ping server.recvMailboxes server.proxyRecvMailboxes mailboxName) :
    ∃ handled, drpcHandleMailboxRecv server ping received = .ok handled ∧ handled.reply.messageType = .ok ∧
      handled.exchanges = [] ∧ ¬ RecvAcked server received handled := by
  obtain ⟨d, rfl, ⟨name, getName, nameStr⟩, element, getMessages, queue⟩ := request
  obtain ⟨local_get, proxy, proxyGet, goesOn, stop⟩ := stopped
  obtain ⟨unlinked, unlink⟩ := dStructUnlink_returns getMessages
  have sends := drpcClientMailboxSend_stopped mailboxName messages stop
  refine ⟨⟨server.setClient proxy (ping (proxyRecover server proxy).1), ⟨.ok, none⟩, []⟩, ?_, rfl, rfl, ?_⟩
  · unfold drpcHandleMailboxRecv
    dsimp only
    rw [getName, ok_bind]
    dsimp only
    rw [nameStr, ok_bind, getMessages, ok_bind]
    dsimp only
    rw [queue, ok_bind, local_get, ok_bind]
    dsimp only
    rw [proxyGet, ok_bind]
    dsimp only
    rw [if_pos goesOn, unlink, ok_bind, sends]
    rfl
  · rintro ⟨other, held, ⟨_, same, otherReads, _⟩, here | ⟨_, _, none_sent, _⟩⟩
    · cases same
      obtain rfl := ReadsStr.unique ⟨name, getName, nameStr⟩ otherReads
      obtain ⟨_, ⟨mailbox, bound, _⟩, _⟩ := here
      rw [local_get] at bound
      cases bound
    · cases none_sent

end Recv

section Send
variable {server : Mailboxes} {ping : DrpcClient → DrpcClient} {received : Option (DStruct Element)}

theorem carries_set {messages : DQueue} {message : DStruct Element}
    (run : dStructSet newDStruct (.ofString "messages") (.element (.queue messages)) = .ok message) :
    Carries (some message) messages := by
  obtain ⟨d, set, filled⟩ := DStruct.Filled.start.set (.ofString "messages") (Element.queue messages) List.not_mem_nil
  have same : d = message := Except.ok.inj (set.symm.trans run)
  subst same
  exact ⟨d, rfl, filled.readsQueue rfl⟩

/-- What the handler can do: refuse, hand over what a mailbox of its own holds,
or fetch it over a proxy client. -/
theorem drpcHandleMailboxSend_inv {handled : Handled} (run : drpcHandleMailboxSend server ping received = .ok handled) :
    handled.reply.messageType = .bad ∨ handled.reply.messageType = .notfound ∨
      ∃ mailboxName, SendRequest received mailboxName ∧
        ((∃ mailbox before sendMailboxes message, dStructGet server.sendMailboxes mailboxName .dQueue = .ok (some mailbox) ∧
            mailbox.asQueue = .ok before ∧
            dStructModify server.sendMailboxes mailboxName (fun _ => .queue []) = .ok sendMailboxes ∧
            dStructSet newDStruct (.ofString "messages") (.element (.queue before)) = .ok message ∧
            handled = ⟨{ server with sendMailboxes := sendMailboxes }, ⟨.ok, some message⟩, []⟩) ∨
          ∃ proxy result output, dStructGet server.sendMailboxes mailboxName .dQueue = .ok none ∧
            hashtableGet server.proxySendMailboxes mailboxName = .ok (some proxy) ∧
            (proxyRecover server proxy).2 = true ∧
            drpcClientMailboxRecv (ping (proxyRecover server proxy).1) mailboxName [] = .ok (result, output) ∧
            handled.reply.messageType = proxyReply result.ret ∧
            (proxyReply result.ret = .ok → ∃ message,
              dStructSet newDStruct (.ofString "messages") (.element (.queue output)) = .ok message ∧
              handled = ⟨server.setClient proxy (ping (proxyRecover server proxy).1), ⟨.ok, some message⟩,
                result.exchanges⟩)) := by
  cases received with
  | none =>
    cases run
    exact .inl rfl
  | some d =>
    obtain ⟨found, getName, run⟩ := bind_eq_ok.mp run
    cases found with
    | none =>
      cases run
      exact .inr (.inl rfl)
    | some name =>
      obtain ⟨mailboxName, nameStr, run⟩ := bind_eq_ok.mp run
      have request : SendRequest (some d) mailboxName := ⟨d, rfl, name, getName, nameStr⟩
      obtain ⟨mailbox, local_get, run⟩ := bind_eq_ok.mp run
      cases mailbox with
      | some mailbox =>
        obtain ⟨before, mailboxQueue, run⟩ := bind_eq_ok.mp run
        dsimp only at run
        rw [moveMessages_all] at run
        obtain ⟨sendMailboxes, modify, run⟩ := bind_eq_ok.mp run
        obtain ⟨message, set, run⟩ := bind_eq_ok.mp run
        cases run
        exact .inr (.inr ⟨mailboxName, request,
          .inl ⟨mailbox, before, sendMailboxes, message, local_get, mailboxQueue, modify, set, rfl⟩⟩)
      | none =>
        obtain ⟨proxy, proxyGet, run⟩ := bind_eq_ok.mp run
        cases proxy with
        | none =>
          cases run
          exact .inr (.inl rfl)
        | some proxy =>
          dsimp only at run
          split at run
          · rename_i goesOn
            obtain ⟨⟨result, output⟩, fetch, run⟩ := bind_eq_ok.mp run
            refine .inr (.inr ⟨mailboxName, request, .inr ⟨proxy, result, output, local_get, proxyGet, goesOn, fetch, ?_⟩⟩)
            dsimp only at run
            split at run
            · rename_i named
              obtain ⟨message, set, run⟩ := bind_eq_ok.mp run
              cases run
              exact ⟨named.symm, fun _ => ⟨message, set, rfl⟩⟩
            · rename_i unnamed
              cases run
              exact ⟨rfl, fun named => absurd named unnamed⟩
          · cases run
            exact .inr (.inl rfl)

theorem drpcHandleMailboxSend_acked {handled : Handled} (run : drpcHandleMailboxSend server ping received = .ok handled)
    (acked : handled.reply.messageType = .ok)
    (apart : ∀ mailboxName, SendRequest received mailboxName →
      ¬ ReachesStopped server ping server.sendMailboxes server.proxySendMailboxes mailboxName) :
    SendAcked server received handled := by
  obtain bad | notfound | ⟨mailboxName, request, answered⟩ := drpcHandleMailboxSend_inv run
  · rw [bad] at acked
    cases acked
  · rw [notfound] at acked
    cases acked
  · obtain ⟨mailbox, before, sendMailboxes, message, local_get, mailboxQueue, modify, set, rfl⟩ |
      ⟨proxy, result, output, local_get, proxyGet, goesOn, fetch, type, whole⟩ := answered
    · refine ⟨mailboxName, before, request, carries_set set, Or.inl ⟨⟨mailbox, local_get, mailboxQueue⟩, ?_⟩⟩
      obtain ⟨other, again, reads⟩ := dStructModify_get (dStructGet_some local_get).1 fun _ => .queue []
      rw [again] at modify
      cases modify
      exact ⟨_, dStructGet_of_get reads rfl, rfl⟩
    · have named : proxyReply result.ret = .ok := type.symm.trans acked
      have runs : (ping (proxyRecover server proxy).1).clientStop = 0 := by
        by_contra stopped
        exact apart mailboxName request ⟨local_get, proxy, proxyGet, goesOn, stopped⟩
      obtain ⟨message, set, rfl⟩ := whole named
      obtain ⟨send, recv, exchanged, sendType, asked, carried⟩ := drpcClientMailboxRecv_spec fetch runs named
      exact ⟨mailboxName, output, request, carries_set set, Or.inr ⟨send, recv, exchanged, sendType, asked, carried⟩⟩

theorem drpcHandleMailboxSend_lost {mailboxName : CString} (request : SendRequest received mailboxName)
    (stopped : ReachesStopped server ping server.sendMailboxes server.proxySendMailboxes mailboxName) :
    ∃ handled, drpcHandleMailboxSend server ping received = .ok handled ∧ handled.reply.messageType = .ok ∧
      ¬ SendAcked server received handled := by
  obtain ⟨d, rfl, name, getName, nameStr⟩ := request
  obtain ⟨local_get, proxy, proxyGet, goesOn, stop⟩ := stopped
  obtain ⟨message, set, _⟩ := DStruct.Filled.start.set (.ofString "messages") (Element.queue []) List.not_mem_nil
  refine ⟨⟨server.setClient proxy (ping (proxyRecover server proxy).1), ⟨.ok, some message⟩, []⟩, ?_, rfl, ?_⟩
  · unfold drpcHandleMailboxSend
    dsimp only
    rw [getName, ok_bind]
    dsimp only
    rw [nameStr, ok_bind, local_get, ok_bind]
    dsimp only
    rw [proxyGet, ok_bind]
    dsimp only
    rw [if_pos goesOn, drpcClientMailboxRecv_stopped mailboxName [] stop, ok_bind]
    dsimp only
    rw [if_pos (show proxyReply .clientstopped = .ok from rfl), set]
    rfl
  · rintro ⟨other, held, ⟨_, same, otherReads⟩, _, ⟨here, _⟩ | ⟨_, _, none_sent, _⟩⟩
    · cases same
      obtain rfl := ReadsStr.unique ⟨name, getName, nameStr⟩ otherReads
      obtain ⟨mailbox, bound, _⟩ := here
      rw [local_get] at bound
      cases bound
    · cases none_sent

end Send

/-- Both mailbox handlers reply `ok` for what was done only, exactly when the
request does not go on to a proxy client that is stopped. -/
theorem mailboxAck_iff (server : Mailboxes) (ping : DrpcClient → DrpcClient) (received : Option (DStruct Element)) :
    ((∀ handled, drpcHandleMailboxRecv server ping received = .ok handled → handled.reply.messageType = .ok →
        RecvAcked server received handled) ↔
      ∀ mailboxName messages, RecvRequest received mailboxName messages →
        ¬ ReachesStopped server ping server.recvMailboxes server.proxyRecvMailboxes mailboxName) ∧
    ((∀ handled, drpcHandleMailboxSend server ping received = .ok handled → handled.reply.messageType = .ok →
        SendAcked server received handled) ↔
      ∀ mailboxName, SendRequest received mailboxName →
        ¬ ReachesStopped server ping server.sendMailboxes server.proxySendMailboxes mailboxName) := by
  refine ⟨⟨?_, ?_⟩, ⟨?_, ?_⟩⟩
  · intro sound mailboxName messages request stopped
    obtain ⟨handled, run, ok, _, lost⟩ := drpcHandleMailboxRecv_lost ping request stopped
    exact lost (sound handled run ok)
  · intro apart handled run ok
    exact drpcHandleMailboxRecv_acked run ok apart
  · intro sound mailboxName request stopped
    obtain ⟨handled, run, ok, lost⟩ := drpcHandleMailboxSend_lost request stopped
    exact lost (sound handled run ok)
  · intro apart handled run ok
    exact drpcHandleMailboxSend_acked run ok apart

/-- One message for a mailbox whose proxy client is stopped, without a fail
handler: the reply is `ok`, and no exchange took place. -/
theorem mailboxAck_stoppedProxy : ∃ (server : Mailboxes) (received : DStruct Element),
    (server.clients 0).clientStop = 1 ∧ server.proxyFailHandler.isNone ∧
    RecvRequest (some received) (.ofString "m") [some (.str [104, 0])] ∧
    ∃ handled, drpcHandleMailboxRecv server id (some received) = .ok handled ∧ handled.reply.messageType = .ok ∧
      handled.exchanges = [] ∧ ¬ RecvAcked server (some received) handled := by
  obtain ⟨d₁, _, filled₁⟩ := DStruct.Filled.start.set (.ofString "receiver_mailbox")
    (Element.str (CString.ofString "m").block) List.not_mem_nil
  obtain ⟨d₂, _, filled₂⟩ := filled₁.set (.ofString "messages") (Element.queue [some (.str [104, 0])]) (by simp; decide)
  have request : RecvRequest (some d₂) (.ofString "m") [some (.str [104, 0])] :=
    ⟨d₂, rfl, filled₂.readsStr rfl, filled₂.readsQueue (by rfl)⟩
  let server : Mailboxes :=
    { recvMailboxes := newDStruct, sendMailboxes := newDStruct,
      proxyRecvMailboxes := ⟨1, [.null, .null, .live (.ofString "m") 0, .null]⟩, proxySendMailboxes := hashtableCreate,
      clients := fun _ => ⟨1, fun _ => .recvFails⟩, proxyFailHandler := none }
  have absent : dStructGet server.recvMailboxes (.ofString "m") .dQueue = .ok none := by
    rw [dStructGet, DStruct.Filled.start.get]
    rfl
  have found : hashtableGet server.proxyRecvMailboxes (.ofString "m") = .ok (some 0) := by decide
  obtain ⟨handled, run, ok, silent, lost⟩ := drpcHandleMailboxRecv_lost id request
    ⟨absent, 0, found, rfl, by decide⟩
  exact ⟨server, d₂, rfl, rfl, request, handled, run, ok, silent, lost⟩

end DynamicRPC
