import DynamicRPC.Queue
import DynamicRPC.ServerRuns
import DynamicRPC.Library.Runs

namespace DynamicRPC
open Outcome

/-- Where `drpc_handle_client` stands: in the receive loop, at the disconnect
event after it, at `pthread_join`, or at the final drain of the queue. -/
inductive ReaderAt
  | receiving
  | pushing (event : ClientMessage)
  | posting
  | checking
  | pushingDisconnect
  | postingDisconnect
  | joining
  | draining
  | done

/-- Where `drpc_client_executor` stands: at one of the two tests of its loop,
at the queue, at the semaphore, in the switch, or behind the loop. -/
inductive ExecutorAt
  | counting
  | testing
  | popping
  | waiting
  | handling (event : ClientMessage)
  | marking (event : ClientMessage)
  | stopping (event : ClientMessage)
  | leaving
  | exited

/-- What the two threads of a connection share, where each stands, and what they
did: `accepted` is what the receive loop pushed, `farewell` what was pushed after
it, `handled` what the executor is through with, `drained` what was freed at the end. -/
structure HandleClient where
  clientPerm : Int
  eventQueue : List (Option ClientMessage)
  wait : Nat
  stop : Bool
  alreadyDisconnected : Bool
  reader : ReaderAt
  executor : ExecutorAt
  accepted : List ClientMessage
  farewell : List ClientMessage
  handled : List ClientMessage
  drained : List (Option ClientMessage)

def semValueMax : Nat := 2147483647

/-- `sem_post`, whose result is asserted to be 0. -/
def semPost (wait : Nat) : Outcome Nat := if wait < semValueMax then pure (wait + 1) else throw .assertion

theorem semPost_inv {wait posted : Nat} (enough : semPost wait = .ok posted) : posted = wait + 1 := by
  unfold semPost at enough
  split at enough <;> cases enough
  rfl

/-- What the loop over `queue_pop` at the end of `drpc_handle_client` frees. -/
def drainEvents {α : Type} : Nat → List (Option α) → List (Option α)
  | 0, _ => []
  | count + 1, que =>
    let (item, que) := queuePop que
    item :: drainEvents count que

theorem drainEvents_all {α : Type} (que : List (Option α)) : drainEvents (queueCount que) que = que := by
  unfold queueCount
  induction que with
  | nil => rfl
  | cons item que ih =>
    rw [List.length_cons, drainEvents, queuePop]
    exact congrArg (item :: ·) ih

namespace HandleClient

/-- Both threads at their first instruction. -/
def start (clientPerm : Int) : HandleClient where
  clientPerm := clientPerm
  eventQueue := []
  wait := 0
  stop := false
  alreadyDisconnected := false
  reader := .receiving
  executor := .counting
  accepted := []
  farewell := []
  handled := []
  drained := []

variable (registry : Registry) (h : HandleClient)

/-- One step of `drpc_handle_client`. `received` is what the receive loop gets:
a message, or `none` where the loop ends. A thread that has to wait stays where it is. -/
def readerStep (received : Option ClientMessage) : Outcome HandleClient :=
  match h.reader with
  | .receiving =>
    match received with
    | some event => pure { h with reader := .pushing event }
    | none => pure { h with reader := .checking }
  | .pushing event =>
    pure { h with
      eventQueue := queuePush h.eventQueue (some event)
      accepted := h.accepted ++ [event]
      reader := .posting }
  | .posting => do
    let wait ← semPost h.wait
    pure { h with wait := wait, reader := .receiving }
  | .checking =>
    if h.alreadyDisconnected then pure { h with reader := .joining } else pure { h with reader := .pushingDisconnect }
  | .pushingDisconnect =>
    pure { h with
      eventQueue := queuePush h.eventQueue (some .disconnect)
      farewell := h.farewell ++ [.disconnect]
      reader := .postingDisconnect }
  | .postingDisconnect => do
    let wait ← semPost h.wait
    pure { h with wait := wait, reader := .joining }
  | .joining =>
    match h.executor with
    | .exited => pure { h with reader := .draining }
    | _ => pure h
  | .draining =>
    pure { h with
      eventQueue := []
      drained := drainEvents (queueCount h.eventQueue) h.eventQueue
      reader := .done }
  | .done => pure h

/-- One step of `drpc_client_executor`. `server` is the server as the other
connections have left it, and `sent` says whether a reply could be sent. -/
def executorStep (server : ServerState) (ping : DrpcClient → DrpcClient) (sent : Bool) : Outcome HandleClient :=
  match h.executor with
  | .counting =>
    if 0 < queueCount h.eventQueue then pure { h with executor := .popping } else pure { h with executor := .testing }
  | .testing => if h.stop then pure { h with executor := .leaving } else pure { h with executor := .popping }
  | .popping =>
    match queuePop h.eventQueue with
    | (none, events) => pure { h with eventQueue := events, executor := .waiting }
    | (some event, events) => pure { h with eventQueue := events, executor := .handling event }
  | .waiting => if h.wait = 0 then pure h else pure { h with wait := h.wait - 1, executor := .counting }
  | .handling (.other .disconnect notCall message) =>
    let event := ClientMessage.other .disconnect notCall message
    if h.alreadyDisconnected then pure { h with executor := .stopping event }
    else pure { h with executor := .marking event }
  | .handling event => do
    let (_, stop) ← server.executeEvent registry h.clientPerm ping sent event
    if stop then pure { h with executor := .stopping event }
    else pure { h with executor := .counting, handled := h.handled ++ [event] }
  | .marking event => pure { h with alreadyDisconnected := true, executor := .stopping event }
  | .stopping event => pure { h with stop := true, executor := .counting, handled := h.handled ++ [event] }
  | .leaving => pure { h with alreadyDisconnected := true, executor := .exited }
  | .exited => pure h

variable {registry h}

/-- What a step of the reader does to what the executor has and to what is accepted. -/
theorem readerStep_frame {h' : HandleClient} {received : Option ClientMessage}
    (stepped : h.readerStep received = .ok h') :
    h'.clientPerm = h.clientPerm ∧ h'.executor = h.executor ∧ h'.stop = h.stop ∧ h'.handled = h.handled ∧
      (h'.accepted = h.accepted ∨ ∃ event, h.reader = .pushing event ∧ h'.accepted = h.accepted ++ [event]) := by
  unfold readerStep at stepped
  cases place : h.reader with
  | receiving =>
    rw [place] at stepped
    cases received <;> cases stepped <;> exact ⟨rfl, rfl, rfl, rfl, .inl rfl⟩
  | pushing event =>
    rw [place] at stepped
    cases stepped
    exact ⟨rfl, rfl, rfl, rfl, .inr ⟨event, rfl, rfl⟩⟩
  | posting | postingDisconnect =>
    rw [place] at stepped
    obtain ⟨posted, enough, rest⟩ := bind_eq_ok.mp stepped
    cases rest
    exact ⟨rfl, rfl, rfl, rfl, .inl rfl⟩
  | checking =>
    rw [place] at stepped
    dsimp only at stepped
    split at stepped <;> cases stepped <;> exact ⟨rfl, rfl, rfl, rfl, .inl rfl⟩
  | joining =>
    rw [place] at stepped
    dsimp only at stepped
    split at stepped <;> cases stepped <;> exact ⟨rfl, rfl, rfl, rfl, .inl rfl⟩
  | pushingDisconnect | draining | done =>
    rw [place] at stepped
    cases stepped
    exact ⟨rfl, rfl, rfl, rfl, .inl rfl⟩

/-- What the switch can lead to. -/
theorem handling_inv {event : ClientMessage} {server : ServerState} {ping : DrpcClient → DrpcClient} {sent : Bool}
    {h' : HandleClient} (switch : h.executor = .handling event)
    (stepped : h.executorStep registry server ping sent = .ok h') :
    h' = { h with executor := .stopping event } ∨
      (h.alreadyDisconnected = false ∧ h' = { h with executor := .marking event }) ∨
      (event ≠ .disconnect ∧ h' = { h with executor := .counting, handled := h.handled ++ [event] }) := by
  have other (different : ∀ notCall message, event ≠ .other .disconnect notCall message) :
      (server.executeEvent registry h.clientPerm ping sent event >>= fun r =>
        if r.2 then pure { h with executor := .stopping event }
        else pure { h with executor := .counting, handled := h.handled ++ [event] }) = Except.ok h' →
      h' = { h with executor := .stopping event } ∨
        (event ≠ .disconnect ∧ h' = { h with executor := .counting, handled := h.handled ++ [event] }) := by
    intro stepped
    obtain ⟨⟨server', stops⟩, handled, rest⟩ := bind_eq_ok.mp stepped
    cases stops with
    | true =>
      cases rest
      exact .inl rfl
    | false =>
      cases rest
      exact .inr ⟨different _ _, rfl⟩
  unfold executorStep at stepped
  rw [switch] at stepped
  cases event with
  | call message => exact (other nofun stepped).imp_right .inr
  | other type notCall message =>
    by_cases disconnect : type = .disconnect
    · subst disconnect
      dsimp only at stepped
      split at stepped <;> cases stepped
      · exact .inl rfl
      · rename_i unmarked
        exact .inr (.inl ⟨Bool.eq_false_of_not_eq_true unmarked, rfl⟩)
    · refine (other (fun _ _ same => disconnect (by injection same)) ?_).imp_right .inr
      cases type <;> first | exact absurd rfl disconnect | exact stepped

end HandleClient

/-- Which thread goes on, and what it meets. -/
inductive ThreadAction
  | reader (received : Option ClientMessage)
  | executor (server : ServerState) (ping : DrpcClient → DrpcClient) (sent : Bool)

/-- One atomic step of one of the two threads. -/
def handleClientStep (registry : Registry) (h : HandleClient) : ThreadAction → Outcome HandleClient
  | .reader received => h.readerStep received
  | .executor server ping sent => h.executorStep registry server ping sent

def handleClientRun (registry : Registry) (clientPerm : Int) (actions : List ThreadAction) : Outcome HandleClient :=
  Runs.run (handleClientStep registry) (.start clientPerm) actions

namespace HandleClient

/-- The executor is blocked in `sem_wait`. -/
def Blocked (h : HandleClient) : Prop := h.executor = .waiting ∧ h.wait = 0

/-- A step of the executor that returns leads to another state. -/
def Moves (registry : Registry) (h : HandleClient) : Prop :=
  ∀ server ping sent h', h.executorStep registry server ping sent = .ok h' → h' ≠ h

/-- The executor stands still only in `sem_wait` and at its end. -/
theorem moves {registry : Registry} {h : HandleClient} (running : h.executor ≠ .exited) (free : ¬ h.Blocked) :
    h.Moves registry := by
  intro server ping sent h' stepped same
  have place : h'.executor = h.executor := congrArg executor same
  obtain ⟨perm, queue, wait, stop, already, reader, executor, accepted, farewell, handled, drained⟩ := h
  cases executor with
  | counting | testing =>
    simp only [executorStep] at stepped
    split at stepped <;> cases stepped <;> cases place
  | popping =>
    simp only [executorStep] at stepped
    split at stepped <;> cases stepped <;> cases place
  | waiting =>
    simp only [executorStep] at stepped
    split at stepped <;> cases stepped
    · rename_i none
      exact free ⟨rfl, none⟩
    · cases place
  | handling event =>
    obtain rfl | ⟨-, rfl⟩ | ⟨-, rfl⟩ := handling_inv rfl stepped <;> cases place
  | marking event | stopping event | leaving =>
    cases stepped
    cases place
  | exited => exact running rfl

end HandleClient

end DynamicRPC
