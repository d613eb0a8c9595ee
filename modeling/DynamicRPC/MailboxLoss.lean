import DynamicRPC.MailboxAck
import DynamicRPC.MailboxFetch

namespace DynamicRPC
open Outcome Runs List

/-- `drpc_handle_mailbox_send` to its end, with the reply that reached the
client. `sent` says whether `drpc_send_message` returned 0, which the handler
does not look at; a reply that is not sent is freed. -/
def drpcMailboxSendReply (server : Mailboxes) (ping : DrpcClient → DrpcClient) (received : Option (DStruct Element))
    (sent : Bool) : Outcome (Mailboxes × Option DrpcMessage) := do
  let handled ← drpcHandleMailboxSend server ping received
  pure (handled.server, if sent then some handled.reply else none)

/-- A reply that is not sent leaves an empty mailbox behind. -/
theorem drpcMailboxSendReply_undelivered {server : Mailboxes} {received : Option (DStruct Element)}
    {mailboxName : CString} {messages : DQueue} (ping : DrpcClient → DrpcClient)
    (request : SendRequest received mailboxName) (holds : ReadsQueue server.sendMailboxes mailboxName messages) :
    ∃ server', drpcMailboxSendReply server ping received false = .ok (server', none) ∧
      (ReadsQueue server'.sendMailboxes mailboxName messages ↔ messages = []) := by
  obtain ⟨d, rfl, name, getName, nameStr⟩ := request
  obtain ⟨mailbox, get, queue⟩ := holds
  obtain ⟨left, modified, reads⟩ := dStructModify_get (dStructGet_some get).1 fun _ => .queue []
  obtain ⟨message, set, -⟩ := DStruct.Filled.start.set (.ofString "messages") (Element.queue messages) List.not_mem_nil
  have emptied : dStructGet left mailboxName .dQueue = .ok (some (.queue [])) := dStructGet_of_get reads rfl
  refine ⟨{ server with sendMailboxes := left }, ?_, ?_⟩
  · unfold drpcMailboxSendReply drpcHandleMailboxSend
    dsimp only
    rw [getName, ok_bind]
    dsimp only
    rw [nameStr, ok_bind, get, ok_bind]
    dsimp only
    rw [queue, ok_bind, moveMessages_all]
    dsimp only
    rw [modified, ok_bind, List.nil_append, set]
    rfl
  · constructor
    · rintro ⟨after, held, kept⟩
      rw [emptied] at held
      cases held
      exact (Except.ok.inj kept).symm
    · rintro rfl
      exact ⟨.queue [], emptied, rfl⟩

section Replies
variable {α : Type}

/-- A mailbox with the executors that fetch from it, and the queues of the
replies that `drpc_send_message` sent. -/
structure MailboxReplies (α : Type) where
  fetches : MailboxFetches α
  sent : List (List (Option α))

/-- A push, or one more call of a fetcher. If it sends its reply, `sent` says
whether `drpc_send_message` returned 0. -/
inductive ReplyStep (α : Type)
  | push (message : α)
  | turn (fetcher : Nat) (sent : Bool)

namespace ReplyStep

def fetch : ReplyStep α → FetchStep α
  | .push message => .push message
  | .turn fetcher _ => .turn fetcher

def isSent : ReplyStep α → Bool
  | .push _ => true
  | .turn _ sent => sent

def pushed : ReplyStep α → Option α
  | .push message => some message
  | .turn _ _ => none

end ReplyStep

namespace MailboxReplies

def step (s : MailboxReplies α) (action : ReplyStep α) : Outcome (MailboxReplies α) := do
  let fetches ← s.fetches.step action.fetch
  let replies := fetches.replies.drop s.fetches.replies.length
  pure ⟨fetches, if action.isSent then s.sent ++ replies else s.sent⟩

def start (messages : List α) (executors : Nat) : MailboxReplies α := ⟨.start messages executors, []⟩

/-- The messages in the mailbox, in the fetches that go on, and in the replies that were sent. -/
def held (s : MailboxReplies α) : List α :=
  s.fetches.mailbox.reduceOption ++ (s.fetches.fetchers.flatMap fun fetcher => fetcher.queue.reduceOption) ++
    s.sent.flatten.reduceOption

/-- The messages of a reply that is about to fail. -/
def lost (s : MailboxReplies α) : ReplyStep α → List α
  | .turn fetcher false =>
    match s.fetches.fetchers[fetcher]? with
    | some (.looping 0 sendedMessages) => sendedMessages.reduceOption
    | _ => []
  | _ => []

/-- A reply that fails carries no message. -/
def Harmless (s : MailboxReplies α) (action : ReplyStep α) : Prop := s.lost action = []

variable {s s' : MailboxReplies α} {action : ReplyStep α}

theorem step_returns (s : MailboxReplies α) (action : ReplyStep α) : Returns (step s action) := by
  obtain ⟨fetches, fetched⟩ := MailboxFetches.step_returns s.fetches action.fetch
  exact ⟨_, by rw [step, fetched]; rfl⟩

/-- A turn of a fetcher keeps the messages of the mailbox and of its queue, in
one of these or in the reply that it makes. -/
theorem turn_keeps (mailbox : List (Option α)) (fetcher : Fetcher α) :
    (fetcher.turn mailbox).1.reduceOption ++
        ((fetcher.turn mailbox).2.1.queue.reduceOption ++ (fetcher.turn mailbox).2.2.flatten.reduceOption) ~
      mailbox.reduceOption ++ fetcher.queue.reduceOption := by
  match fetcher with
  | .idle => simp [Fetcher.turn, Fetcher.queue]
  | .looping 0 sendedMessages => simp [Fetcher.turn, Fetcher.queue]
  | .looping (left + 1) sendedMessages =>
    cases mailbox with
    | nil => simp [Fetcher.turn, Fetcher.queue, queuePop, queuePush, List.reduceOption_append]
    | cons item mailbox =>
      cases item with
      | none => simp [Fetcher.turn, Fetcher.queue, queuePop, queuePush, List.reduceOption_append]
      | some message =>
        have popped : mailbox.reduceOption ++ (sendedMessages.reduceOption ++ [message]) ~
            message :: (mailbox.reduceOption ++ sendedMessages.reduceOption) := by
          rw [← List.append_assoc]
          exact List.perm_append_singleton _ _
        simpa [Fetcher.turn, Fetcher.queue, queuePop, queuePush, List.reduceOption_append] using popped
  | .popped left item sendedMessages => simp [Fetcher.turn, Fetcher.queue]

theorem lost_turn {i : Nat} {fetcher : Fetcher α} (sent : Bool) (at_i : s.fetches.fetchers[i]? = some fetcher) :
    s.lost (.turn i sent) = if sent then [] else (fetcher.turn s.fetches.mailbox).2.2.flatten.reduceOption := by
  cases sent with
  | true => rfl
  | false =>
    simp only [lost, at_i]
    match fetcher with
    | .idle => rfl
    | .looping 0 sendedMessages => simp [Fetcher.turn]
    | .looping (left + 1) sendedMessages => rfl
    | .popped left item sendedMessages => rfl

theorem moved {mailbox mailbox' queue queue' reply : Multiset α} (kept : mailbox' + (queue' + reply) = mailbox + queue)
    (rest sent : Multiset α) : mailbox' + (queue' + rest) + (sent + reply) = mailbox + (queue + rest) + sent :=
  calc mailbox' + (queue' + rest) + (sent + reply)
    _ = mailbox' + (queue' + reply) + rest + sent := by abel
    _ = mailbox + queue + rest + sent := by rw [kept]
    _ = mailbox + (queue + rest) + sent := by abel

/-- Every step holds on to the messages, but for those of a reply that fails. -/
theorem step_held (stepped : s.step action = .ok s') : s'.held ++ s.lost action ~ s.held ++ action.pushed.toList := by
  obtain ⟨fetches, fetched, same⟩ := bind_eq_ok.mp stepped
  cases same
  cases action with
  | push message =>
    cases fetched
    have silent : (if ReplyStep.isSent (.push message) then s.sent ++ s.fetches.replies.drop s.fetches.replies.length
        else s.sent) = s.sent := by
      rw [List.drop_length, List.append_nil, ite_self]
    have waiting : (queuePush s.fetches.mailbox (some message)).reduceOption =
        s.fetches.mailbox.reduceOption ++ [message] := by
      rw [queuePush, List.reduceOption_append]
      rfl
    unfold held
    dsimp only
    rw [silent, waiting, ← Multiset.coe_eq_coe]
    simp only [lost, ReplyStep.pushed, Option.toList_some, ← Multiset.coe_add, Multiset.coe_nil]
    abel
  | turn i sent =>
    cases at_i : s.fetches.fetchers[i]? with
    | none =>
      simp only [MailboxFetches.step, ReplyStep.fetch, at_i] at fetched
      cases fetched
      have none_lost : s.lost (.turn i sent) = [] := by cases sent <;> simp only [lost, at_i]
      simp only [none_lost, List.drop_length, List.append_nil, ite_self, ReplyStep.pushed, Option.toList_none]
      exact List.Perm.refl _
    | some fetcher =>
      simp only [MailboxFetches.step, ReplyStep.fetch, at_i] at fetched
      cases fetched
      have kept := Multiset.coe_eq_coe.mpr (turn_keeps s.fetches.mailbox fetcher)
      obtain ⟨rest, before, after⟩ := Assoc.flatMap_set_perm (fun fetcher => fetcher.queue.reduceOption) at_i
        (fetcher.turn s.fetches.mailbox).2.1
      rw [← Multiset.coe_eq_coe] at before after
      rw [lost_turn sent at_i, ← Multiset.coe_eq_coe]
      unfold held
      cases sent with
      | true =>
        simp only [ReplyStep.isSent, ReplyStep.pushed, if_true, List.drop_left, List.flatten_append,
          List.reduceOption_append, Option.toList_none, ← Multiset.coe_add, Multiset.coe_nil, before, after] at kept ⊢
        rw [add_zero, add_zero]
        exact moved kept rest s.sent.flatten.reduceOption
      | false =>
        simp only [ReplyStep.isSent, ReplyStep.pushed, Bool.false_eq_true, if_false, Option.toList_none,
          ← Multiset.coe_add, Multiset.coe_nil, before, after] at kept ⊢
        rw [add_assoc, add_zero]
        exact moved kept rest s.sent.flatten.reduceOption

/-- Over a run nothing is lost if and only if every reply that failed was empty. -/
theorem run_held {actions : List (ReplyStep α)} (ran : run step s actions = .ok s') :
    ∃ gone, s'.held ++ gone ~ s.held ++ actions.filterMap ReplyStep.pushed ∧
      (gone = [] ↔ Along step Harmless s actions) := by
  induction actions generalizing s with
  | nil =>
    cases ran
    exact ⟨[], List.Perm.refl _, iff_of_true rfl trivial⟩
  | cons action actions ih =>
    rw [run_cons] at ran
    obtain ⟨middle, first, rest⟩ := bind_eq_ok.mp ran
    obtain ⟨gone, later, harmless⟩ := ih rest
    have now := step_held first
    have pushes : (action :: actions).filterMap ReplyStep.pushed =
        action.pushed.toList ++ actions.filterMap ReplyStep.pushed := by
      cases message : action.pushed <;> simp [message]
    refine ⟨s.lost action ++ gone, ?_, ?_⟩
    · rw [pushes]
      calc s'.held ++ (s.lost action ++ gone)
        _ ~ s'.held ++ gone ++ s.lost action := by
          rw [List.append_assoc]
          exact List.perm_append_comm.append_left _
        _ ~ middle.held ++ actions.filterMap ReplyStep.pushed ++ s.lost action := later.append_right _
        _ ~ middle.held ++ s.lost action ++ actions.filterMap ReplyStep.pushed := by
          rw [List.append_assoc, List.append_assoc]
          exact List.perm_append_comm.append_left _
        _ ~ s.held ++ action.pushed.toList ++ actions.filterMap ReplyStep.pushed := now.append_right _
        _ ~ s.held ++ (action.pushed.toList ++ actions.filterMap ReplyStep.pushed) := by rw [List.append_assoc]
    · rw [List.append_eq_nil_iff, harmless]
      constructor
      · rintro ⟨none_lost, along⟩
        refine ⟨none_lost, fun next stepped => ?_⟩
        rw [first] at stepped
        cases stepped
        exact along
      · rintro ⟨none_lost, along⟩
        exact ⟨none_lost, along middle first⟩

theorem start_held (messages : List α) (executors : Nat) : (start messages executors).held = messages := by
  have idle : (List.replicate executors (Fetcher.idle : Fetcher α)).flatMap
      (fun fetcher => fetcher.queue.reduceOption) = [] := by
    refine List.flatMap_eq_nil_iff.mpr fun fetcher member => ?_
    rw [List.eq_of_mem_replicate member]
    rfl
  have waiting : (messages.map some).reduceOption = messages := by simp [List.reduceOption]
  rw [start, MailboxFetches.start, held, idle, waiting]
  simp

end MailboxReplies
end Replies

/-- A fetch whose reply cannot be sent leaves the local mailbox as it was
exactly where that was empty. Whatever the order of the steps of any number of
fetches, each message pushed is in the mailbox, in a fetch that goes on or in a
reply that was sent, if and only if no reply that failed carried a message. -/
theorem undeliveredFetch_keeps_iff (server : Mailboxes) (ping : DrpcClient → DrpcClient)
    (received : Option (DStruct Element)) {α : Type} (messages : List α) (executors : Nat) (actions : List (ReplyStep α)) :
    (∀ mailboxName content, SendRequest received mailboxName → ReadsQueue server.sendMailboxes mailboxName content →
        ∃ server', drpcMailboxSendReply server ping received false = .ok (server', none) ∧
          (ReadsQueue server'.sendMailboxes mailboxName content ↔ content = [])) ∧
      ∃ s, run MailboxReplies.step (.start messages executors) actions = .ok s ∧
        (s.held ~ messages ++ actions.filterMap ReplyStep.pushed ↔
          Along MailboxReplies.step MailboxReplies.Harmless (.start messages executors) actions) := by
  refine ⟨fun mailboxName content => drpcMailboxSendReply_undelivered ping, ?_⟩
  obtain ⟨s, ran⟩ := run_returns MailboxReplies.step_returns (.start messages executors) actions
  obtain ⟨gone, all, harmless⟩ := MailboxReplies.run_held ran
  rw [MailboxReplies.start_held] at all
  refine ⟨s, ran, ?_⟩
  rw [← harmless]
  constructor
  · intro kept
    have counted := all.length_eq
    rw [List.length_append, kept.length_eq] at counted
    exact List.eq_nil_of_length_eq_zero (by omega)
  · rintro rfl
    rwa [List.append_nil] at all

/-- The only message of a mailbox goes into a reply that fails. -/
theorem undeliveredFetch_loses : ∃ s, run MailboxReplies.step (.start [7] 1)
      [.turn 0 true, .turn 0 true, .turn 0 true, .turn 0 false] = .ok s ∧ ¬ s.held ~ [7] :=
  ⟨_, rfl, fun kept => absurd kept.length_eq (by decide)⟩

end DynamicRPC
