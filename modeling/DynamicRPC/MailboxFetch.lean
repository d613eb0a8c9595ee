import DynamicRPC.Library.Assoc
import DynamicRPC.Library.Runs
import DynamicRPC.Protocol
import Mathlib.Data.List.ReduceOption

namespace DynamicRPC
open Runs List
variable {α : Type}

/-- A client executor in `drpc_handle_mailbox_send` on a local mailbox,
between two of its calls on the queues. -/
inductive Fetcher (α : Type)
  | idle
  | looping (left : Nat) (sendedMessages : List (Option α))
  | popped (left : Nat) (item : Option α) (sendedMessages : List (Option α))

/-- The queue that the reply is made of, with the pointer that was popped for it. -/
def Fetcher.queue : Fetcher α → List (Option α)
  | .idle => []
  | .looping _ sendedMessages => sendedMessages
  | .popped _ item sendedMessages => queuePush sendedMessages item

structure MailboxFetches (α : Type) where
  mailbox : List (Option α)
  fetchers : List (Fetcher α)
  replies : List (List (Option α))

inductive FetchStep (α : Type)
  | push (message : α)
  | turn (fetcher : Nat)

/-- One more call of a fetcher: it reads the length, pops, pushes, or sends its reply. -/
def Fetcher.turn (mailbox : List (Option α)) : Fetcher α → List (Option α) × Fetcher α × List (List (Option α))
  | .idle => (mailbox, .looping (queueCount mailbox) [], [])
  | .looping 0 sendedMessages => (mailbox, .idle, [sendedMessages])
  | .looping (left + 1) sendedMessages =>
    let (item, mailbox) := queuePop mailbox
    (mailbox, .popped left item sendedMessages, [])
  | .popped left item sendedMessages => (mailbox, .looping left (queuePush sendedMessages item), [])

def MailboxFetches.step (s : MailboxFetches α) : FetchStep α → Outcome (MailboxFetches α)
  | .push message => pure { s with mailbox := queuePush s.mailbox (some message) }
  | .turn i =>
    match s.fetchers[i]? with
    | none => pure s
    | some fetcher =>
      let (mailbox, fetcher, reply) := fetcher.turn s.mailbox
      pure ⟨mailbox, s.fetchers.set i fetcher, s.replies ++ reply⟩

/-- A mailbox with some messages and any number of executors. -/
def MailboxFetches.start (messages : List α) (executors : Nat) : MailboxFetches α :=
  ⟨messages.map some, List.replicate executors .idle, []⟩

def FetchStep.pushed : FetchStep α → Option α
  | .push message => some message
  | .turn _ => none

/-- The reply queues, the finished ones and those in the making. -/
def MailboxFetches.queues (s : MailboxFetches α) : List (List (Option α)) := s.replies ++ s.fetchers.map Fetcher.queue

/-- A fetcher that pops finds a message. -/
def MailboxFetches.Fresh (s : MailboxFetches α) : FetchStep α → Prop
  | .push _ => True
  | .turn i => ∀ left sendedMessages, s.fetchers[i]? = some (.looping (left + 1) sendedMessages) → s.mailbox ≠ []

/-- Each of the messages taken is in one queue, and each queue has its
messages in their order. -/
def Shares (taken : List α) (queues : List (List (Option α))) : Prop :=
  taken ~ queues.flatten.reduceOption ∧ ∀ queue ∈ queues, queue.reduceOption <+ taken

/-- Of the messages pushed, the first ones went into the replies and the others wait in the mailbox. -/
def MailboxFetches.Delivers (pushed : List α) (s : MailboxFetches α) : Prop :=
  ∃ taken waiting, pushed = taken ++ waiting ∧ s.mailbox = waiting.map some ∧ Shares taken s.queues

section Shares
variable {taken : List α} {queue : List (Option α)} {queues queues' : List (List (Option α))}

theorem Shares.perm (shares : Shares taken queues) (perm : queues ~ queues') : Shares taken queues' :=
  ⟨shares.1.trans (perm.flatten.filterMap id), fun queue member => shares.2 queue (perm.mem_iff.mpr member)⟩

theorem Shares.add_empty (shares : Shares taken queues) : Shares taken ([] :: queues) := by
  refine ⟨by simpa using shares.1, fun queue member => ?_⟩
  rcases List.mem_cons.mp member with rfl | old
  · simp
  · exact shares.2 queue old

theorem Shares.take (shares : Shares taken (queue :: queues)) (item : Option α) :
    Shares (taken ++ item.toList) (queuePush queue item :: queues) := by
  have whole : (queuePush queue item).reduceOption = queue.reduceOption ++ item.toList := by
    rw [queuePush, List.reduceOption_append]
    cases item <;> rfl
  constructor
  · have before := shares.1
    rw [List.flatten_cons, List.reduceOption_append] at before
    rw [List.flatten_cons, List.reduceOption_append, whole, List.append_assoc]
    refine (before.append_right _).trans ?_
    rw [List.append_assoc]
    exact (List.perm_append_comm).append_left _
  · intro other member
    rcases List.mem_cons.mp member with rfl | old
    · rw [whole]
      exact (shares.2 queue (List.mem_cons_self ..)).append (List.Sublist.refl _)
    · exact (shares.2 other (List.mem_cons_of_mem _ old)).trans (List.sublist_append_left ..)

end Shares

theorem queuePop_waiting (waiting : List α) :
    ∃ waiting', waiting = (queuePop (waiting.map some)).1.toList ++ waiting' ∧
      (queuePop (waiting.map some)).2 = waiting'.map some := by
  cases waiting with
  | nil => exact ⟨[], rfl, rfl⟩
  | cons message waiting => exact ⟨waiting, rfl, rfl⟩

namespace MailboxFetches
variable {s s' : MailboxFetches α} {i : Nat} {fetcher : Fetcher α}

/-- A turn of a fetcher changes its own queue and no other. -/
theorem queues_set (at_i : s.fetchers[i]? = some fetcher) (next : Fetcher α) :
    ∃ rest, s.queues ~ fetcher.queue :: rest ∧ s.replies ++ (s.fetchers.set i next).map Fetcher.queue ~ next.queue :: rest := by
  obtain ⟨rest, before, after⟩ := Assoc.flatMap_set_perm (fun fetcher => [fetcher.queue]) at_i next
  rw [← List.map_eq_flatMap] at before after
  exact ⟨s.replies ++ rest, (before.append_left _).trans List.perm_middle, (after.append_left _).trans List.perm_middle⟩

/-- What a turn does, by where the fetcher stands. -/
theorem step_turn (at_i : s.fetchers[i]? = some fetcher) (stepped : s.step (.turn i) = .ok s') :
    (s'.mailbox = s.mailbox ∧ (s'.queues ~ s.queues ∨ s'.queues ~ [] :: s.queues)) ∨
      ∃ left sendedMessages rest, fetcher = .looping (left + 1) sendedMessages ∧
        s'.mailbox = (queuePop s.mailbox).2 ∧ s.queues ~ sendedMessages :: rest ∧
        s'.queues ~ queuePush sendedMessages (queuePop s.mailbox).1 :: rest := by
  simp only [step, at_i] at stepped
  cases stepped
  match fetcher, at_i with
  | .idle, at_i =>
    obtain ⟨rest, before, after⟩ := queues_set at_i (.looping (queueCount s.mailbox) [])
    refine Or.inl ⟨rfl, Or.inl ?_⟩
    simp only [queues, Fetcher.turn, List.append_nil]
    exact after.trans before.symm
  | .looping 0 sendedMessages, at_i =>
    obtain ⟨rest, before, after⟩ := queues_set at_i .idle
    refine Or.inl ⟨rfl, Or.inr ?_⟩
    simp only [queues, Fetcher.turn, List.append_assoc, List.singleton_append]
    exact List.perm_middle.trans ((after.cons _).trans ((List.Perm.swap ..).trans (before.symm.cons _)))
  | .looping (left + 1) sendedMessages, at_i =>
    obtain ⟨rest, before, after⟩ := queues_set at_i (.popped left (queuePop s.mailbox).1 sendedMessages)
    refine Or.inr ⟨left, sendedMessages, rest, rfl, rfl, before, ?_⟩
    simp only [queues, Fetcher.turn, List.append_nil]
    exact after
  | .popped left item sendedMessages, at_i =>
    obtain ⟨rest, before, after⟩ := queues_set at_i (.looping left (queuePush sendedMessages item))
    refine Or.inl ⟨rfl, Or.inl ?_⟩
    simp only [queues, Fetcher.turn, List.append_nil]
    exact after.trans before.symm

theorem Delivers.step {pushed : List α} {action : FetchStep α} (delivers : s.Delivers pushed)
    (stepped : s.step action = .ok s') : s'.Delivers (pushed ++ action.pushed.toList) := by
  obtain ⟨taken, waiting, rfl, mailbox, shares⟩ := delivers
  cases action with
  | push message =>
    cases stepped
    refine ⟨taken, waiting ++ [message], by simp [FetchStep.pushed], ?_, shares⟩
    simp [queuePush, mailbox]
  | turn i =>
    simp only [FetchStep.pushed, Option.toList_none, List.append_nil]
    cases at_i : s.fetchers[i]? with
    | none =>
      simp only [MailboxFetches.step, at_i] at stepped
      cases stepped
      exact ⟨taken, waiting, rfl, mailbox, shares⟩
    | some fetcher =>
      rcases step_turn at_i stepped with ⟨same, perm | perm⟩ | ⟨left, sendedMessages, rest, -, popped, before, after⟩
      · exact ⟨taken, waiting, rfl, same.trans mailbox, shares.perm perm.symm⟩
      · exact ⟨taken, waiting, rfl, same.trans mailbox, shares.add_empty.perm perm.symm⟩
      · obtain ⟨waiting', split, left_over⟩ := queuePop_waiting waiting
        rw [← mailbox] at split left_over
        refine ⟨taken ++ (queuePop s.mailbox).1.toList, waiting', ?_, popped.trans left_over, ?_⟩
        · rw [List.append_assoc, ← split]
        · exact ((shares.perm before).take _).perm after.symm

/-- A fetcher that always finds a message puts no NULL in its queue. -/
theorem step_noNull {action : FetchStep α} (waits : none ∉ s.mailbox) (clean : ∀ queue ∈ s.queues, none ∉ queue)
    (fresh : s.Fresh action) (stepped : s.step action = .ok s') : ∀ queue ∈ s'.queues, none ∉ queue := by
  cases action with
  | push message =>
    cases stepped
    exact clean
  | turn i =>
    cases at_i : s.fetchers[i]? with
    | none =>
      simp only [step, at_i] at stepped
      cases stepped
      exact clean
    | some fetcher =>
      rcases step_turn at_i stepped with ⟨-, perm | perm⟩ | ⟨left, sendedMessages, rest, rfl, -, before, after⟩
      · exact fun queue member => clean queue (perm.mem_iff.mp member)
      · intro queue member
        rcases List.mem_cons.mp (perm.mem_iff.mp member) with rfl | old
        · exact List.not_mem_nil
        · exact clean queue old
      · intro queue member
        rcases List.mem_cons.mp (after.mem_iff.mp member) with rfl | old
        · have held := clean sendedMessages (before.mem_iff.mpr (List.mem_cons_self ..))
          cases shape : s.mailbox with
          | nil => exact absurd shape (fresh left sendedMessages at_i)
          | cons item mailbox =>
            rw [shape, List.mem_cons, not_or] at waits
            simp [queuePush, queuePop, held, waits.1]
        · exact clean queue (before.mem_iff.mpr (List.mem_cons_of_mem _ old))

/-- A fetcher that nobody interrupts empties the mailbox as the loop of the handler does. -/
theorem fetcher_alone (left : Nat) (mailbox sendedMessages : List (Option α)) (at_i : i < s.fetchers.length) :
    run step { s with mailbox := mailbox, fetchers := s.fetchers.set i (.looping left sendedMessages) }
        (List.replicate (2 * left) (.turn i)) =
      .ok { s with
        mailbox := (moveMessages left mailbox sendedMessages).1
        fetchers := s.fetchers.set i (.looping 0 (moveMessages left mailbox sendedMessages).2) } := by
  induction left generalizing mailbox sendedMessages with
  | zero => rfl
  | succ left ih =>
    rw [show 2 * (left + 1) = 2 * left + 1 + 1 by omega, List.replicate_succ, List.replicate_succ, run_cons]
    simp only [run_cons, step, Fetcher.turn, List.getElem?_set_self, List.set_set, at_i, Outcome.pure_eq_ok,
      Outcome.ok_bind, List.append_nil]
    exact ih _ _

/-- A NULL stays in the queue that it was popped for. -/
theorem step_null {action : FetchStep α} (spoilt : ∃ queue ∈ s.queues, none ∈ queue)
    (stepped : s.step action = .ok s') : ∃ queue ∈ s'.queues, none ∈ queue := by
  obtain ⟨queue, member, null⟩ := spoilt
  cases action with
  | push message =>
    cases stepped
    exact ⟨queue, member, null⟩
  | turn i =>
    cases at_i : s.fetchers[i]? with
    | none =>
      simp only [step, at_i] at stepped
      cases stepped
      exact ⟨queue, member, null⟩
    | some fetcher =>
      rcases step_turn at_i stepped with ⟨-, perm | perm⟩ | ⟨left, sendedMessages, rest, -, -, before, after⟩
      · exact ⟨queue, perm.mem_iff.mpr member, null⟩
      · exact ⟨queue, perm.mem_iff.mpr (List.mem_cons_of_mem _ member), null⟩
      · rcases List.mem_cons.mp (before.mem_iff.mp member) with rfl | old
        · exact ⟨_, after.mem_iff.mpr (List.mem_cons_self ..), List.mem_append_left _ null⟩
        · exact ⟨queue, after.mem_iff.mpr (List.mem_cons_of_mem _ old), null⟩

theorem step_stale {action : FetchStep α} (stale : ¬ s.Fresh action) (stepped : s.step action = .ok s') :
    ∃ queue ∈ s'.queues, none ∈ queue := by
  cases action with
  | push message => exact absurd trivial stale
  | turn i =>
    simp only [Fresh, not_forall, not_not] at stale
    obtain ⟨left, sendedMessages, at_i, empty⟩ := stale
    simp only [step, at_i, Fetcher.turn, empty, queuePop] at stepped
    cases stepped
    refine ⟨queuePush sendedMessages none, List.mem_append_right _ (List.mem_map.mpr ?_), by simp [queuePush]⟩
    exact ⟨.popped left none sendedMessages, List.mem_set (List.getElem?_eq_some_iff.mp at_i).1 _, rfl⟩

theorem start_queues (messages : List α) (executors : Nat) :
    (start messages executors).queues = List.replicate executors [] := by
  simp only [queues, start, List.nil_append, List.map_replicate, Fetcher.queue]

theorem start_delivers (messages : List α) (executors : Nat) : (start messages executors).Delivers messages := by
  refine ⟨[], messages, rfl, rfl, ?_⟩
  rw [start_queues]
  constructor
  · simp
  · intro queue member
    rw [List.eq_of_mem_replicate member]
    simp

theorem Delivers.mailbox_full {pushed : List α} (delivers : s.Delivers pushed) : none ∉ s.mailbox := by
  obtain ⟨taken, waiting, -, mailbox, -⟩ := delivers
  simp [mailbox]

theorem step_returns (s : MailboxFetches α) (action : FetchStep α) : Outcome.Returns (step s action) := by
  cases action with
  | push message => exact ⟨_, rfl⟩
  | turn i => cases at_i : s.fetchers[i]? <;> simp [step, at_i]

theorem run_delivers {pushed : List α} {actions : List (FetchStep α)} (delivers : s.Delivers pushed)
    (ran : run step s actions = .ok s') : s'.Delivers (pushed ++ actions.filterMap FetchStep.pushed) := by
  refine run_history (fun past s => s.Delivers (pushed ++ past.filterMap FetchStep.pushed))
    (fun past s action s' held _ stepped => ?_) (by simpa using delivers) (along_of_all (fun _ _ _ => trivial) _) ran
  have next := held.step stepped
  cases message : action.pushed <;> simpa [message] using next

theorem run_noNull {pushed : List α} {actions : List (FetchStep α)} (delivers : s.Delivers pushed)
    (clean : ∀ queue ∈ s.queues, none ∉ queue) (fresh : Along step Fresh s actions)
    (ran : run step s actions = .ok s') : ∀ queue ∈ s'.queues, none ∉ queue := by
  refine (run_keeps (fun s => (∃ pushed, s.Delivers pushed) ∧ ∀ queue ∈ s.queues, none ∉ queue)
    (fun s action s' held fresh stepped => ?_) ⟨⟨pushed, delivers⟩, clean⟩ fresh ran).2
  obtain ⟨⟨pushed, delivers⟩, clean⟩ := held
  exact ⟨⟨_, delivers.step stepped⟩, step_noNull delivers.mailbox_full clean fresh stepped⟩

end MailboxFetches

/-- Whatever the order of the steps, each message pushed is in one reply or
waits in the mailbox, and each reply keeps their order. The replies are free
of NULL if and only if no fetcher popped an empty mailbox. -/
theorem mailboxFetches_deliver (messages : List α) (executors : Nat) (actions : List (FetchStep α)) :
    ∃ s, run MailboxFetches.step (.start messages executors) actions = .ok s ∧
      s.Delivers (messages ++ actions.filterMap FetchStep.pushed) ∧
      ((∀ queue ∈ s.queues, none ∉ queue) ↔
        Along MailboxFetches.step MailboxFetches.Fresh (.start messages executors) actions) := by
  obtain ⟨s, ran⟩ := run_returns MailboxFetches.step_returns (.start messages executors) actions
  have first := MailboxFetches.start_delivers messages executors
  refine ⟨s, ran, MailboxFetches.run_delivers first ran, fun clean => ?_, fun fresh => ?_⟩
  · refine along_of_end (fun s => ∃ queue ∈ s.queues, none ∈ queue) (fun _ _ _ => MailboxFetches.step_stale)
      (fun _ _ _ => MailboxFetches.step_null) ran ?_
    rintro ⟨queue, member, null⟩
    exact clean queue member null
  · refine MailboxFetches.run_noNull first (fun queue member => ?_) fresh ran
    rw [MailboxFetches.start_queues] at member
    rw [List.eq_of_mem_replicate member]
    exact List.not_mem_nil

/-- Two executors that both read the length of a mailbox of one message: the
second pops an empty mailbox and its reply is made of a NULL. -/
theorem mailboxFetches_null :
    ∃ s, run MailboxFetches.step (.start [7] 2) [.turn 0, .turn 1, .turn 0, .turn 1, .turn 0, .turn 1, .turn 1] =
        .ok s ∧ s.replies = [[none]] :=
  ⟨_, rfl, rfl⟩

end DynamicRPC
