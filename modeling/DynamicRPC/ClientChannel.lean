import DynamicRPC.CallClient
import DynamicRPC.Library.Runs

namespace DynamicRPC
open Outcome

/-- The functions that exchange a request for a reply, and the ping thread. A
call has the memory and the queue that its reply is worked on with. -/
inductive ClientFunction
  | call (contents : Contents) (memory : Memory Element) (repackable : List DrpcTypeUpdate)
  | mailboxSend
  | mailboxRecv
  | getServername
  | ping

def ClientFunction.isCall : ClientFunction → Bool
  | .call _ _ _ => true
  | _ => false

def ClientFunction.isPing : ClientFunction → Bool
  | .ping => true
  | _ => false

/-- The type of the message that a function sends. -/
def ClientFunction.request : ClientFunction → DrpcProtocol
  | .call _ _ _ => .call
  | .mailboxSend => .mailboxRecv
  | .mailboxRecv => .mailboxSend
  | .getServername => .servername
  | .ping => .ping

/-- What a function returns on a reply. A NULL from `drpc_client_get_servername`
counts as an error. -/
def ClientFunction.finish (recv : MemoryMessage) : ClientFunction → Outcome DrpcClientErrors
  | .call contents memory repackable => do
    let finish ← drpcClientCallFinish contents memory repackable recv
    pure finish.ret
  | .mailboxSend => pure (if recv.messageType ≠ .ok then .enetwork else .ok)
  | .mailboxRecv =>
    match recv.messageType, recv.message with
    | .ok, some message => do
      let messages ← dStructGet message (CString.ofString "messages") .dQueue
      if messages.isSome then pure .ok else .error .assertion
    | _, _ => pure .enetwork
  | .getServername =>
    match recv.messageType, recv.message with
    | .servername, some _ => pure .ok
    | _, _ => .error .assertion
  | .ping => pure (if recv.messageType ≠ .ping then .badreply else .ok)

/-- A request on its way to the server, by the number of requests before it. -/
structure Request where
  ticket : Nat
  messageType : DrpcProtocol

/-- A reply with the number of the request that the server made it for. -/
structure Reply where
  ticket : Nat
  recv : MemoryMessage

/-- Where a thread is in its function. -/
inductive Progress
  | start
  | locking
  | sending
  | receiving (ticket : Nat)
  | received (ticket : Nat) (reply : Reply)
  | returned (ret : DrpcClientErrors) (taken : Option (Nat × Reply))

/-- The thread is between `pthread_mutex_lock` and `pthread_mutex_unlock`. -/
def Progress.holds : Progress → Bool
  | .sending => true
  | .receiving _ => true
  | .received _ _ => true
  | _ => false

structure ClientThread where
  function : ClientFunction
  progress : Progress

/-- A `struct drpc_client` over a dqueue and its threads. `io` is false once the
ping thread has freed it. -/
structure ClientChannel where
  clientStop : Int
  io : Bool
  connectionMutex : Option Nat
  requests : List Request
  replies : List Reply
  sent : Nat
  threads : List ClientThread
  crashed : Bool

/-- What happens next: a function is called, a thread goes on, with whether its
send or its receive succeeds, or the server answers the oldest request. -/
inductive ClientAction
  | invoke (function : ClientFunction) (notPing : function.isPing = false)
  | turn (thread : Nat) (done : Bool)
  | serve (reply : MemoryMessage)

namespace ClientChannel

/-- A client that has its ping thread and no calls yet. -/
def start : ClientChannel where
  clientStop := 0
  io := true
  connectionMutex := none
  requests := []
  replies := []
  sent := 0
  threads := [⟨.ping, .start⟩]
  crashed := false

def moved (s : ClientChannel) (i : Nat) (thread : ClientThread) (progress : Progress) : List ClientThread :=
  s.threads.set i { thread with progress := progress }

/-- The end of an exchange. The ping thread sleeps and comes back, or stops the
client and frees its `io`. -/
def finish (s : ClientChannel) (i : Nat) (thread : ClientThread) (ret : DrpcClientErrors) (taken : Option (Nat × Reply)) :
    ClientChannel :=
  if thread.function.isPing then
    if ret = .ok then { s with connectionMutex := none, threads := s.moved i thread .start }
    else { s with
      clientStop := 1
      io := false
      connectionMutex := none
      threads := s.moved i thread (.returned ret taken) }
  else { s with connectionMutex := none, threads := s.moved i thread (.returned ret taken) }

/-- The next step of a thread. A receive that fails leaves what it waited for
where it is. -/
def turn (s : ClientChannel) (i : Nat) (thread : ClientThread) (done : Bool) : ClientChannel :=
  match thread.progress with
  | .start =>
    if s.clientStop ≠ 0 then { s with threads := s.moved i thread (.returned .clientstopped none) }
    else { s with threads := s.moved i thread .locking }
  | .locking =>
    match s.connectionMutex with
    | none => { s with connectionMutex := some i, threads := s.moved i thread .sending }
    | some _ => s
  | .sending =>
    if s.io && done then
      { s with
        requests := s.requests ++ [⟨s.sent, thread.function.request⟩]
        sent := s.sent + 1
        threads := s.moved i thread (.receiving s.sent) }
    else s.finish i thread .enetwork none
  | .receiving ticket =>
    if done then
      match s.replies with
      | [] => s
      | reply :: replies => { s with replies := replies, threads := s.moved i thread (.received ticket reply) }
    else s.finish i thread .enetwork none
  | .received ticket reply =>
    match thread.function.finish reply.recv with
    | .error _ => { s with crashed := true }
    | .ok ret => s.finish i thread ret (some (ticket, reply))
  | .returned _ _ => s

def step (s : ClientChannel) (action : ClientAction) : ClientChannel :=
  if s.crashed then s
  else
    match action with
    | .invoke function _ => { s with threads := s.threads ++ [⟨function, .start⟩] }
    | .turn i done =>
      match s.threads[i]? with
      | none => s
      | some thread => s.turn i thread done
    | .serve reply =>
      match s.requests with
      | [] => s
      | request :: requests => { s with requests := requests, replies := s.replies ++ [⟨request.ticket, reply⟩] }

def clientRun (s : ClientChannel) (actions : List ClientAction) : Outcome ClientChannel :=
  Runs.run (fun s action => pure (s.step action)) s actions

end ClientChannel
end DynamicRPC
