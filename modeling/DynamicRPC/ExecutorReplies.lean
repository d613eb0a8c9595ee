import DynamicRPC.HandleClient
import DynamicRPC.MailboxAck

namespace DynamicRPC
open Outcome

/-- A message given to `drpc_send_message` on the connection: the reply of
`drpc_handle_call`, or one of the others. -/
inductive SentMessage
  | ofCall (reply : MemoryMessage)
  | ofEvent (reply : DrpcMessage)

def SentMessage.messageType : SentMessage → DrpcProtocol
  | .ofCall reply => reply.messageType
  | .ofEvent reply => reply.messageType

/-- One pass through the switch: the server it leaves, `stop`, and what it sent. -/
structure Switched where
  server : ServerState
  stop : Bool
  sends : List SentMessage

/-- The reply to a `drpc_servername` event on a server of this name. -/
def servernameReply (name : Option CString) : Outcome DrpcMessage := do
  let name := name.getD (CString.ofString "UNKNOWN_DRPC")
  let message ← dStructSet newDStruct (CString.ofString "drpc_servername") (.element (.str name.block))
  pure ⟨.servername, some message⟩

/-- The switch of `drpc_client_executor`. `sent` says whether the replies that
it sends itself could be sent; the handlers do not look. -/
def executorSwitch (registry : Registry) (s : ServerState) (name : Option CString) (clientPerm : Int)
    (ping : DrpcClient → DrpcClient) (sent : Bool) : ClientMessage → Outcome Switched
  | .call message => do
    let handled ← drpcExecuteCall (s.server registry) clientPerm s.memory message
    pure ⟨{ s with records := handled.records, memory := handled.memory }, handled.handleRet != 0,
      [.ofCall handled.reply]⟩
  | .other .ping _ _ => pure ⟨s, !sent, [.ofEvent ⟨.ping, none⟩]⟩
  | .other .servername _ _ => do
    let reply ← servernameReply name
    pure ⟨s, !sent, [.ofEvent reply]⟩
  | .other .mailboxRecv _ message => do
    let handled ← drpcHandleMailboxRecv s.mailboxes ping message
    pure ⟨{ s with mailboxes := handled.server }, false, [.ofEvent handled.reply]⟩
  | .other .mailboxSend _ message => do
    let handled ← drpcHandleMailboxSend s.mailboxes ping message
    pure ⟨{ s with mailboxes := handled.server }, false, [.ofEvent handled.reply]⟩
  | .other _ _ _ => pure ⟨s, true, []⟩

/-- The reply types of each kind of event. -/
def ClientMessage.replyTypes : ClientMessage → List DrpcProtocol
  | .call _ => [.return, .notfound, .eperm, .bad]
  | .other .ping _ _ => [.ping]
  | .other .servername _ _ => [.servername]
  | .other .mailboxRecv _ _ => [.ok, .notfound, .bad]
  | .other .mailboxSend _ _ => [.ok, .notfound, .bad]
  | .other _ _ _ => []

/-- Pings, servername queries, calls and mailbox requests. -/
def ClientMessage.isRequest : ClientMessage → Bool
  | .call _ => true
  | .other .ping _ _ => true
  | .other .servername _ _ => true
  | .other .mailboxRecv _ _ => true
  | .other .mailboxSend _ _ => true
  | .other _ _ _ => false

theorem servernameReply_ok (name : Option CString) :
    ∃ reply, servernameReply name = .ok reply ∧ reply.messageType = .servername := by
  obtain ⟨message, set, -⟩ := DStruct.Filled.start.set (.ofString "drpc_servername")
    (Element.str (name.getD (CString.ofString "UNKNOWN_DRPC")).block) List.not_mem_nil
  refine ⟨⟨.servername, some message⟩, ?_, rfl⟩
  rw [servernameReply, set, ok_bind, pure_eq_ok]

section Switch
variable {registry : Registry} {s : ServerState} {name : Option CString} {clientPerm : Int}
  {ping : DrpcClient → DrpcClient} {sent : Bool} {event : ClientMessage} {switched : Switched}

/-- The event as the server's runs know it. -/
theorem executorSwitch_forget : s.executeEvent registry clientPerm ping sent event =
    executorSwitch registry s name clientPerm ping sent event >>= fun switched =>
      pure (switched.server, switched.stop) := by
  cases event with
  | call message =>
    rw [ServerState.executeEvent, ServerState.executeCall, executorSwitch, bind_assoc]
    rfl
  | other type notCall message =>
    rw [ServerState.executeEvent]
    cases type with
    | servername =>
      obtain ⟨reply, run, -⟩ := servernameReply_ok name
      rw [executorSwitch, run]
      rfl
    | mailboxRecv =>
      rw [ServerState.executeOther, executorSwitch, bind_assoc]
      rfl
    | mailboxSend =>
      rw [ServerState.executeOther, executorSwitch, bind_assoc]
      rfl
    | _ => rfl

theorem drpcHandleCall_type {server : CallServer} {memory : Memory Element} {message : Option (DStruct Field)}
    {handled : HandledCall} (ran : drpcHandleCall server clientPerm memory message = .ok handled) :
    handled.reply.messageType ∈ [DrpcProtocol.return, .notfound, .eperm, .bad] := by
  cases message with
  | none => cases ran
  | some received =>
    rw [drpcHandleCall_eq] at ran
    obtain ⟨verdict, admitted, finished⟩ := bind_eq_ok.mp ran
    cases verdict with
    | refuse type handleRet =>
      cases finished
      obtain rfl | rfl | rfl := drpcAdmitCall_refuse admitted
      · simp
      · simp
      · simp
    | invoke record arguments slots toRepack =>
      obtain ⟨result, -, finished⟩ := bind_eq_ok.mp finished
      obtain ⟨received, -, finished⟩ := bind_eq_ok.mp finished
      cases finished
      simp

theorem proxyReply_mem (ret : DrpcClientErrors) : proxyReply ret ∈ [DrpcProtocol.ok, .notfound, .bad] := by
  cases ret <;> simp [proxyReply]

/-- Every exit of `drpc_handle_mailbox_recv` leads to one reply of these types. -/
theorem drpcHandleMailboxRecv_type {server : Mailboxes} {message : Option (DStruct Element)} {handled : Handled}
    (ran : drpcHandleMailboxRecv server ping message = .ok handled) :
    handled.reply.messageType ∈ [DrpcProtocol.ok, .notfound, .bad] := by
  obtain bad | notfound | ⟨mailboxName, messages, -, answered⟩ := drpcHandleMailboxRecv_inv ran
  · simp [bad]
  · simp [notfound]
  · obtain ⟨mailbox, before, recvMailboxes, -, -, -, rfl⟩ | ⟨proxy, result, -, -, -, -, rfl⟩ := answered
    · simp
    · exact proxyReply_mem result.ret

/-- The same of `drpc_handle_mailbox_send`. -/
theorem drpcHandleMailboxSend_type {server : Mailboxes} {message : Option (DStruct Element)} {handled : Handled}
    (ran : drpcHandleMailboxSend server ping message = .ok handled) :
    handled.reply.messageType ∈ [DrpcProtocol.ok, .notfound, .bad] := by
  obtain bad | notfound | ⟨mailboxName, -, answered⟩ := drpcHandleMailboxSend_inv ran
  · simp [bad]
  · simp [notfound]
  · obtain ⟨mailbox, before, sendMailboxes, reply, -, -, -, -, rfl⟩ | ⟨proxy, result, output, -, -, -, -, type, -⟩ := answered
    · simp
    · rw [type]
      exact proxyReply_mem result.ret

/-- One pass sends one reply of the event's kind for a request, and nothing for another event. -/
theorem executorSwitch_sends (ran : executorSwitch registry s name clientPerm ping sent event = .ok switched) :
    (event.isRequest = true ∧ ∃ reply, switched.sends = [reply] ∧ reply.messageType ∈ event.replyTypes) ∨
      (event.isRequest = false ∧ switched.sends = []) := by
  cases event with
  | call message =>
    obtain ⟨handled, called, same⟩ := bind_eq_ok.mp ran
    cases same
    obtain ⟨before, inside, same⟩ := bind_eq_ok.mp called
    obtain ⟨memory, -, same⟩ := bind_eq_ok.mp same
    cases same
    have kind := drpcHandleCall_type inside
    exact .inl ⟨rfl, _, rfl, kind⟩
  | other type notCall message =>
    cases type with
    | call => exact absurd rfl notCall
    | ping =>
      cases ran
      exact .inl ⟨rfl, _, rfl, List.mem_singleton_self _⟩
    | servername =>
      obtain ⟨reply, run, kind⟩ := servernameReply_ok name
      rw [executorSwitch, run] at ran
      cases ran
      exact .inl ⟨rfl, _, rfl, List.mem_singleton.mpr kind⟩
    | mailboxRecv =>
      obtain ⟨handled, answered, same⟩ := bind_eq_ok.mp ran
      cases same
      exact .inl ⟨rfl, _, rfl, drpcHandleMailboxRecv_type answered⟩
    | mailboxSend =>
      obtain ⟨handled, answered, same⟩ := bind_eq_ok.mp ran
      cases same
      exact .inl ⟨rfl, _, rfl, drpcHandleMailboxSend_type answered⟩
    | «return» | auth | disconnect | notfound | bad | ok | eperm | unknown =>
      cases ran
      exact .inr ⟨rfl, rfl⟩

end Switch

/-- An event that goes through the switch, with what it finds there: the server, its name, the
proxy clients and whether replies can be sent. -/
structure SwitchPass where
  event : ClientMessage
  server : ServerState
  name : Option CString
  ping : DrpcClient → DrpcClient
  sent : Bool

def SwitchPass.switch (registry : Registry) (clientPerm : Int) (pass : SwitchPass) : Outcome Switched :=
  executorSwitch registry pass.server pass.name clientPerm pass.ping pass.sent pass.event

namespace HandleClient

/-- The event that the executor has popped and not yet taken through its switch. -/
def unanswered (h : HandleClient) : List ClientMessage :=
  match h.executor with
  | .handling event => [event]
  | _ => []

/-- The event that the next step of the executor pops. -/
def pops (h : HandleClient) : List ClientMessage :=
  match h.executor with
  | .popping => (queuePop h.eventQueue).1.toList
  | _ => []

/-- The pass through the switch that the next step of the executor makes. -/
def executorPass (h : HandleClient) (server : ServerState) (name : Option CString) (ping : DrpcClient → DrpcClient)
    (sent : Bool) : Option SwitchPass :=
  match h.executor with
  | .handling event => some ⟨event, server, name, ping, sent⟩
  | _ => none

/-- What the next step of the executor sends. -/
def executorSends (registry : Registry) (h : HandleClient) (server : ServerState) (name : Option CString)
    (ping : DrpcClient → DrpcClient) (sent : Bool) : Outcome (List SentMessage) :=
  match h.executorPass server name ping sent with
  | some pass => do
    let switched ← pass.switch registry h.clientPerm
    pure switched.sends
  | none => pure []

/-- A step of the executor takes the event in its hand through the switch, or
takes in hand what it pops. -/
theorem executorStep_hands {registry : Registry} {h h' : HandleClient} {server : ServerState}
    {ping : DrpcClient → DrpcClient} {sent : Bool} (stepped : h.executorStep registry server ping sent = .ok h') :
    h'.clientPerm = h.clientPerm ∧
      ((∃ event, h.executor = .handling event ∧ h'.unanswered = []) ∨
        ((∀ event, h.executor ≠ .handling event) ∧ h.unanswered = [] ∧ h'.unanswered = h.pops)) := by
  obtain ⟨perm, queue, wait, stop, already, reader, executor, accepted, farewell, handled, drained⟩ := h
  cases executor with
  | counting | testing =>
    simp only [executorStep] at stepped
    split at stepped <;> cases stepped <;> exact ⟨rfl, .inr ⟨by simp, rfl, rfl⟩⟩
  | popping =>
    simp only [executorStep] at stepped
    split at stepped
    · next events popped =>
      cases stepped
      exact ⟨rfl, .inr ⟨by simp, rfl, by simp [unanswered, pops, popped]⟩⟩
    · next event events popped =>
      cases stepped
      exact ⟨rfl, .inr ⟨by simp, rfl, by simp [unanswered, pops, popped]⟩⟩
  | waiting =>
    simp only [executorStep] at stepped
    split at stepped <;> cases stepped <;> exact ⟨rfl, .inr ⟨by simp, rfl, rfl⟩⟩
  | handling event =>
    obtain rfl | ⟨-, rfl⟩ | ⟨-, rfl⟩ := handling_inv rfl stepped <;> exact ⟨rfl, .inl ⟨event, rfl, rfl⟩⟩
  | marking event | stopping event | leaving | exited =>
    cases stepped
    exact ⟨rfl, .inr ⟨by simp, rfl, rfl⟩⟩

end HandleClient

/-- The two threads of a connection with the events that the executor popped, its passes
through the switch and the messages that it sent, in order. -/
structure Conversation where
  client : HandleClient
  popped : List ClientMessage
  passes : List SwitchPass
  sent : List SentMessage

/-- A step of one of the threads, with the name that a `drpc_servername` event finds. -/
structure ConversationAction where
  thread : ThreadAction
  name : Option CString

namespace Conversation

def start (clientPerm : Int) : Conversation := ⟨.start clientPerm, [], [], []⟩

def step (registry : Registry) (c : Conversation) (action : ConversationAction) : Outcome Conversation := do
  let client ← handleClientStep registry c.client action.thread
  match action.thread with
  | .reader _ => pure { c with client := client }
  | .executor server ping sent => do
    let sends ← c.client.executorSends registry server action.name ping sent
    pure ⟨client, c.popped ++ c.client.pops, c.passes ++ (c.client.executorPass server action.name ping sent).toList,
      c.sent ++ sends⟩

end Conversation

def conversationRun (registry : Registry) (clientPerm : Int) (actions : List ConversationAction) : Outcome Conversation :=
  Runs.run (Conversation.step registry) (.start clientPerm) actions

/-- The one message that a pass through the switch sends. -/
def RepliesTo (registry : Registry) (clientPerm : Int) (pass : SwitchPass) (reply : SentMessage) : Prop :=
  reply.messageType ∈ pass.event.replyTypes ∧
    ∃ switched, pass.switch registry clientPerm = .ok switched ∧ switched.sends = [reply]

namespace Conversation
variable {registry : Registry} {clientPerm : Int} {c c' : Conversation}

/-- The events that were popped went through the switch, but for one in the executor's hand, and
the requests among them have their replies, in their order. -/
structure Paired (registry : Registry) (clientPerm : Int) (c : Conversation) : Prop where
  perm : c.client.clientPerm = clientPerm
  popped : c.popped = c.passes.map SwitchPass.event ++ c.client.unanswered
  answered : List.Forall₂ (RepliesTo registry clientPerm) (c.passes.filter fun pass => pass.event.isRequest) c.sent

/-- Forgetting the two records leaves a run of the two threads. -/
theorem run_forget {actions : List ConversationAction} (ran : Runs.run (step registry) c actions = .ok c') :
    Runs.run (handleClientStep registry) c.client (actions.map ConversationAction.thread) = .ok c'.client := by
  induction actions generalizing c with
  | nil =>
    cases ran
    rfl
  | cons action actions ih =>
    obtain ⟨middle, stepped, rest⟩ := bind_eq_ok.mp ran
    obtain ⟨client, threadStep, finish⟩ := bind_eq_ok.mp stepped
    have same : middle.client = client := by
      cases thread : action.thread with
      | reader received =>
        rw [thread] at finish
        cases finish
        rfl
      | executor server ping sent =>
        rw [thread] at finish
        obtain ⟨sends, -, finish⟩ := bind_eq_ok.mp finish
        cases finish
        rfl
    rw [List.map_cons, Runs.run_cons, threadStep, ok_bind, ← same]
    exact ih rest

theorem Paired.start : (Conversation.start clientPerm).Paired registry clientPerm where
  perm := rfl
  popped := rfl
  answered := .nil

/-- A pass through the switch leaves the event answered, if it is a request. -/
theorem Paired.switch {pass : SwitchPass} {switched : Switched} (paired : c.Paired registry clientPerm)
    (ran : pass.switch registry clientPerm = .ok switched) :
    List.Forall₂ (RepliesTo registry clientPerm) ((c.passes ++ [pass]).filter fun pass => pass.event.isRequest)
      (c.sent ++ switched.sends) := by
  rw [List.filter_append]
  obtain ⟨request, reply, one, kind⟩ | ⟨other, none⟩ := executorSwitch_sends ran
  · have last : List.Forall₂ (RepliesTo registry clientPerm) ([pass].filter fun pass => pass.event.isRequest)
        switched.sends := by
      rw [one, List.filter_cons_of_pos (by exact request)]
      exact .cons ⟨kind, switched, ran, one⟩ .nil
    exact List.rel_append paired.answered last
  · have last : ([pass].filter fun pass => pass.event.isRequest) = [] := List.filter_cons_of_neg (by simp [other])
    rw [last, none, List.append_nil, List.append_nil]
    exact paired.answered

theorem Paired.step {action : ConversationAction} (paired : c.Paired registry clientPerm)
    (stepped : Conversation.step registry c action = .ok c') : c'.Paired registry clientPerm := by
  obtain ⟨thread, name⟩ := action
  obtain ⟨client, threadStep, finish⟩ := bind_eq_ok.mp stepped
  cases thread with
  | reader received =>
    cases finish
    obtain ⟨perm, executor, -⟩ := HandleClient.readerStep_frame threadStep
    have hand : client.unanswered = c.client.unanswered := by rw [HandleClient.unanswered, executor, HandleClient.unanswered]
    refine ⟨perm.trans paired.perm, ?_, paired.answered⟩
    rw [hand]
    exact paired.popped
  | executor server ping sent =>
    obtain ⟨sends, ran, finish⟩ := bind_eq_ok.mp finish
    cases finish
    obtain ⟨perm, ⟨event, place, free⟩ | ⟨elsewhere, free, hand⟩⟩ := HandleClient.executorStep_hands threadStep
    · have pass : c.client.executorPass server name ping sent = some ⟨event, server, name, ping, sent⟩ := by
        rw [HandleClient.executorPass, place]
      have nothing : c.client.pops = [] := by rw [HandleClient.pops, place]
      have held : c.client.unanswered = [event] := by rw [HandleClient.unanswered, place]
      rw [HandleClient.executorSends, pass, paired.perm] at ran
      obtain ⟨switched, through, same⟩ := bind_eq_ok.mp ran
      cases same
      refine ⟨perm.trans paired.perm, ?_, ?_⟩
      · dsimp only
        rw [free, nothing, pass, paired.popped, held, List.map_append, List.append_nil, List.append_nil]
        rfl
      · dsimp only
        rw [pass]
        exact paired.switch through
    · have pass : c.client.executorPass server name ping sent = none := by
        unfold HandleClient.executorPass
        split
        · next event place => exact absurd place (elsewhere event)
        · rfl
      rw [HandleClient.executorSends, pass] at ran
      cases ran
      refine ⟨perm.trans paired.perm, ?_, ?_⟩
      · dsimp only
        rw [pass, paired.popped, free, hand, Option.toList_none, List.append_nil, List.append_nil]
      · dsimp only
        rw [pass, Option.toList_none, List.append_nil, List.append_nil]
        exact paired.answered

end Conversation

/-- When the executor of a connection returns, every event that it popped went through the
switch, and it has sent one reply for each pass of a request, the one that this pass makes, in
the order in which they were popped, and nothing for the other events. -/
theorem executor_repliesInOrder (registry : Registry) (clientPerm : Int) (actions : List ConversationAction)
    (c : Conversation) (ran : conversationRun registry clientPerm actions = .ok c)
    (returned : c.client.executor = .exited) :
    c.passes.map SwitchPass.event = c.popped ∧
      List.Forall₂ (RepliesTo registry clientPerm) (c.passes.filter fun pass => pass.event.isRequest) c.sent := by
  have paired := Runs.run_invariant (Conversation.Paired registry clientPerm) (fun _ _ _ paired => paired.step) .start ran
  have through : c.client.unanswered = [] := by rw [HandleClient.unanswered, returned]
  have popped := paired.popped
  rw [through, List.append_nil] at popped
  exact ⟨popped.symm, paired.answered⟩

/-- A ping queued behind a message that stops the executor gets its reply. -/
theorem executor_repliesInOrder_stopped : ∃ actions c, conversationRun bareRegistry 0 actions = .ok c ∧
    c.popped = [.other .auth (by decide) none, .other .ping (by decide) none] ∧
    c.passes.map SwitchPass.event = c.popped ∧
    List.Forall₂ (RepliesTo bareRegistry 0) (c.passes.filter fun pass => pass.event.isRequest) c.sent :=
  let unknown : ClientMessage := .other .auth (by decide) none
  let ping : ClientMessage := .other .ping (by decide) none
  let execute : ConversationAction := ⟨.executor bareServer id true, none⟩
  let read : ConversationAction := ⟨.reader none, none⟩
  let actions : List ConversationAction :=
    [⟨.reader (some unknown), none⟩, read, read, ⟨.reader (some ping), none⟩, read, read, execute, execute, execute,
      execute, execute, execute, execute, execute, execute, execute]
  ⟨actions,
    { client := { clientPerm := 0, eventQueue := [], wait := 2, stop := true, alreadyDisconnected := true,
                  reader := .receiving, executor := .exited, accepted := [unknown, ping], farewell := [],
                  handled := [unknown, ping], drained := [] }
      popped := [unknown, ping]
      passes := [⟨unknown, bareServer, none, id, true⟩, ⟨ping, bareServer, none, id, true⟩]
      sent := [.ofEvent ⟨.ping, none⟩] },
    rfl, rfl, executor_repliesInOrder bareRegistry 0 actions _ rfl rfl⟩

end DynamicRPC
