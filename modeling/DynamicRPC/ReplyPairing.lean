import DynamicRPC.ClientChannel

namespace DynamicRPC
open Outcome Runs

/-- What a function returned, with the number of its request and of the request
that the reply it took was made for. -/
def Progress.result : Progress → Option (DrpcClientErrors × Option (Nat × Nat))
  | .returned ret taken => some (ret, taken.map fun exchange => (exchange.1, exchange.2.ticket))
  | _ => none

/-- An exchange that has taken a reply has taken its own, and one that has none
does not return 0. -/
def Progress.Own : Progress → Prop
  | .received ticket reply => reply.ticket = ticket
  | .returned ret none => ret ≠ .ok
  | .returned _ (some (ticket, reply)) => reply.ticket = ticket
  | _ => True

namespace ClientChannel
variable {s s' : ClientChannel}

/-- The requests whose replies the client has not read, oldest first. -/
def pending (s : ClientChannel) : List Nat := s.replies.map Reply.ticket ++ s.requests.map Request.ticket

/-- Every `drpc_client_call` that returned 0 took the reply to its own request. -/
def Paired (s : ClientChannel) : Prop :=
  ∀ thread ∈ s.threads, thread.function.isCall = true → ∀ taken, thread.progress.result = some (.ok, taken) →
    ∃ ticket, taken = some (ticket, ticket)

/-- A call sends its request when the reply to no earlier request is due. -/
def Drained (s : ClientChannel) : ClientAction → Prop
  | .turn i true => ∀ thread, s.threads[i]? = some thread → thread.function.isCall = true →
      thread.progress = .sending → s.io = true → s.pending = []
  | _ => True

/-- No receive times out but those of the ping thread. -/
def Timely (s : ClientChannel) : ClientAction → Prop
  | .turn i false => ∀ thread ticket, s.threads[i]? = some thread → thread.progress = .receiving ticket →
      thread.function.isPing = true
  | _ => True

/-- Only the owner of the mutex is inside an exchange. -/
def Exclusive (s : ClientChannel) : Prop :=
  ∀ (i : Nat) (thread : ClientThread), s.threads[i]? = some thread → thread.progress.holds = true →
    s.connectionMutex = some i

/-- Calls have their own replies, and a call that waits for one waits for the
only one that is due. -/
structure Orderly (s : ClientChannel) : Prop where
  exclusive : s.Exclusive
  awaited : ∀ (i : Nat) (thread : ClientThread) (ticket : Nat), s.threads[i]? = some thread →
    thread.function.isCall = true → thread.progress = .receiving ticket → s.pending = [ticket]
  own : ∀ thread ∈ s.threads, thread.function.isCall = true → thread.progress.Own

/-- While the `io` is there, no reply is due but the one that a thread waits for. -/
structure Settled (s : ClientChannel) : Prop where
  exclusive : s.Exclusive
  awaited : s.io = true → s.pending = [] ∨ ∃ (i : Nat) (thread : ClientThread) (ticket : Nat),
    s.threads[i]? = some thread ∧ thread.progress = .receiving ticket ∧ s.pending = [ticket]

theorem Orderly.paired (orderly : s.Orderly) : s.Paired := by
  intro thread member isCall taken result
  have own := orderly.own thread member isCall
  cases progress : thread.progress with
  | returned ret exchange =>
    rw [progress] at own result
    cases exchange with
    | none =>
      cases result
      exact absurd rfl own
    | some exchange =>
      cases result
      have same : exchange.2.ticket = exchange.1 := own
      exact ⟨exchange.1, by rw [Option.map_some, same]⟩
  | _ =>
    rw [progress] at result
    cases result

theorem moved_lookup {i j : Nat} {thread other : ClientThread} {progress : Progress}
    (at_j : (s.moved i thread progress)[j]? = some other) :
    (j = i ∧ other = { thread with progress := progress }) ∨ (j ≠ i ∧ s.threads[j]? = some other) := by
  rw [moved, List.getElem?_set] at at_j
  by_cases same : i = j
  · rw [if_pos same] at at_j
    split at at_j
    · cases at_j
      exact Or.inl ⟨same.symm, rfl⟩
    · cases at_j
  · rw [if_neg same] at at_j
    exact Or.inr ⟨Ne.symm same, at_j⟩

theorem moved_self {i : Nat} {thread : ClientThread} (progress : Progress) (at_i : s.threads[i]? = some thread) :
    (s.moved i thread progress)[i]? = some { thread with progress := progress } := by
  rw [moved, List.getElem?_set_self (List.getElem?_eq_some_iff.mp at_i).choose]

theorem moved_other {i j : Nat} {thread : ClientThread} (progress : Progress) (other : j ≠ i) :
    (s.moved i thread progress)[j]? = s.threads[j]? := by
  rw [moved, List.getElem?_set_ne other.symm]

section Finish
variable {i : Nat} {thread : ClientThread} {ret : DrpcClientErrors} {taken : Option (Nat × Reply)}

@[simp] theorem finish_mutex : (s.finish i thread ret taken).connectionMutex = none := by
  unfold finish
  split
  · split <;> rfl
  · rfl

@[simp] theorem finish_pending : (s.finish i thread ret taken).pending = s.pending := by
  unfold finish
  split
  · split <;> rfl
  · rfl

/-- The end of an exchange leaves its thread before the next one or at its end. -/
theorem finish_threads (s : ClientChannel) (i : Nat) (thread : ClientThread) (ret : DrpcClientErrors)
    (taken : Option (Nat × Reply)) : ∃ progress, (s.finish i thread ret taken).threads = s.moved i thread progress ∧
    progress.holds = false ∧ (progress = .returned ret taken ∨ progress = .start) := by
  unfold finish
  split
  · split
    · exact ⟨.start, rfl, rfl, Or.inr rfl⟩
    · exact ⟨_, rfl, rfl, Or.inl rfl⟩
  · exact ⟨_, rfl, rfl, Or.inl rfl⟩

/-- Only a ping that fails closes the `io`. -/
theorem finish_io (isOpen : (s.finish i thread ret taken).io = true) :
    s.io = true ∧ (thread.function.isPing = true → ret = .ok) := by
  unfold finish at isOpen
  split at isOpen
  · split at isOpen
    · next good => exact ⟨isOpen, fun _ => good⟩
    · cases isOpen
  · next notPing => exact ⟨isOpen, fun isPing => absurd isPing notPing⟩

end Finish

section Update
variable {i : Nat} {thread : ClientThread} {progress : Progress}

theorem Exclusive.update (exclusive : s.Exclusive) (threads : s'.threads = s.moved i thread progress)
    (holds : progress.holds = true → s'.connectionMutex = some i)
    (others : ∀ j ≠ i, s.connectionMutex = some j → s'.connectionMutex = some j) : s'.Exclusive := by
  intro j other at_j inside
  rw [threads] at at_j
  rcases moved_lookup at_j with ⟨rfl, rfl⟩ | ⟨different, old⟩
  · exact holds inside
  · exact others j different (exclusive j other old inside)

theorem Orderly.update (orderly : s.Orderly) (threads : s'.threads = s.moved i thread progress)
    (holds : progress.holds = true → s'.connectionMutex = some i)
    (others : ∀ j ≠ i, s.connectionMutex = some j → s'.connectionMutex = some j ∧ s'.pending = s.pending)
    (awaited : thread.function.isCall = true → ∀ ticket, progress = .receiving ticket → s'.pending = [ticket])
    (own : thread.function.isCall = true → progress.Own) : s'.Orderly where
  exclusive := orderly.exclusive.update threads holds fun j different owner => (others j different owner).1
  awaited := by
    intro j other ticket at_j isCall waits
    rw [threads] at at_j
    rcases moved_lookup at_j with ⟨rfl, rfl⟩ | ⟨different, old⟩
    · exact awaited isCall ticket waits
    · have owner := orderly.exclusive j other old (by rw [waits]; rfl)
      rw [(others j different owner).2]
      exact orderly.awaited j other ticket old isCall waits
  own := by
    intro other member isCall
    obtain ⟨j, at_j⟩ := List.mem_iff_getElem?.mp member
    rw [threads] at at_j
    rcases moved_lookup at_j with ⟨rfl, rfl⟩ | ⟨different, old⟩
    · exact own isCall
    · exact orderly.own other (List.mem_of_getElem? old) isCall

/-- A thread that ends its exchange with its own reply or with an error. -/
theorem Orderly.finish (orderly : s.Orderly) (owner : s.connectionMutex = some i) {ret : DrpcClientErrors}
    {taken : Option (Nat × Reply)} (own : thread.function.isCall = true → (Progress.returned ret taken).Own) :
    (s.finish i thread ret taken).Orderly := by
  obtain ⟨progress, threads, outside, ends⟩ := finish_threads s i thread ret taken
  refine orderly.update threads (fun holds => ?_) (fun j different other => ?_) (fun _ ticket waits => ?_) (fun isCall => ?_)
  · rw [outside] at holds
    cases holds
  · rw [owner] at other
    cases other
    exact absurd rfl different
  · rw [waits] at outside
    cases outside
  · rcases ends with rfl | rfl
    · exact own isCall
    · trivial

end Update

theorem Orderly.turn (orderly : s.Orderly) {i : Nat} {thread : ClientThread} {done : Bool}
    (at_i : s.threads[i]? = some thread) (drained : s.Drained (.turn i done)) : (s.turn i thread done).Orderly := by
  have inside : thread.progress.holds = true → s.connectionMutex = some i := orderly.exclusive i thread at_i
  have alone : s.connectionMutex = some i → ∀ j ≠ i, ¬ s.connectionMutex = some j := by
    intro owner j different other
    rw [owner] at other
    cases other
    exact different rfl
  have before := orderly.own thread (List.mem_of_getElem? at_i)
  unfold ClientChannel.turn
  split
  · split
    · exact orderly.update rfl (by simp [Progress.holds]) (fun j _ owner => ⟨owner, rfl⟩) (by simp) (by simp [Progress.Own])
    · exact orderly.update rfl (by simp [Progress.holds]) (fun j _ owner => ⟨owner, rfl⟩) (by simp) (by simp [Progress.Own])
  · split
    · next free =>
      refine orderly.update rfl (fun _ => rfl) (fun j _ owner => ?_) (by simp) (by simp [Progress.Own])
      rw [free] at owner
      cases owner
    · exact orderly
  · next sends =>
    have owner := inside (by rw [sends]; rfl)
    split
    · next sent =>
      simp only [Bool.and_eq_true] at sent
      obtain ⟨isOpen, rfl⟩ := sent
      refine orderly.update rfl (fun _ => owner) (fun j different other => absurd other (alone owner j different))
        (fun isCall ticket same => ?_) (by simp [Progress.Own])
      cases same
      have empty := drained thread at_i isCall sends isOpen
      simp only [pending, List.map_append] at empty ⊢
      rw [← List.append_assoc, empty]
      rfl
    · exact orderly.finish owner (by simp [Progress.Own])
  · next ticket waits =>
    have owner := inside (by rw [waits]; rfl)
    split
    · split
      · exact orderly
      · next reply replies queued =>
        refine orderly.update rfl (fun _ => owner) (fun j different other => absurd other (alone owner j different)) (by simp)
          (fun isCall => ?_)
        have due := orderly.awaited i thread ticket at_i isCall waits
        rw [pending, queued] at due
        exact (List.cons.inj due).1
    · exact orderly.finish owner (by simp [Progress.Own])
  · next ticket reply received =>
    have owner := inside (by rw [received]; rfl)
    split
    · exact ⟨orderly.exclusive, orderly.awaited, orderly.own⟩
    · refine orderly.finish owner fun isCall => ?_
      rw [received] at before
      exact before isCall
  · exact orderly

/-- A reply takes the place of its request. -/
theorem serve_pending {request : Request} {requests : List Request} (waiting : s.requests = request :: requests)
    (reply : MemoryMessage) :
    pending { s with requests := requests, replies := s.replies ++ [⟨request.ticket, reply⟩] } = s.pending := by
  simp [pending, waiting]

theorem invoked_lookup {function : ClientFunction} {i : Nat} {thread : ClientThread}
    (at_i : (s.threads ++ [⟨function, .start⟩])[i]? = some thread) :
    s.threads[i]? = some thread ∨ thread = ⟨function, .start⟩ := by
  rw [List.getElem?_append] at at_i
  split at at_i
  · exact Or.inl at_i
  · exact Or.inr (List.mem_singleton.mp (List.mem_of_getElem? at_i))

theorem Exclusive.invoke (exclusive : s.Exclusive) (function : ClientFunction) :
    Exclusive { s with threads := s.threads ++ [⟨function, .start⟩] } := by
  intro i thread at_i holds
  rcases invoked_lookup at_i with old | rfl
  · exact exclusive i thread old holds
  · cases holds

theorem Orderly.step (orderly : s.Orderly) {action : ClientAction} (drained : s.Drained action) :
    (s.step action).Orderly := by
  unfold ClientChannel.step
  split
  · exact orderly
  · cases action with
    | invoke function notPing =>
      refine ⟨orderly.exclusive.invoke function, fun i thread ticket at_i isCall waits => ?_, fun thread member isCall => ?_⟩
      · rcases invoked_lookup at_i with old | rfl
        · exact orderly.awaited i thread ticket old isCall waits
        · cases waits
      · rcases List.mem_append.mp member with old | new
        · exact orderly.own thread old isCall
        · rw [List.mem_singleton.mp new]
          trivial
    | turn i done =>
      dsimp only
      split
      · exact orderly
      · next thread at_i => exact orderly.turn at_i drained
    | serve reply =>
      dsimp only
      split
      · exact orderly
      · next request requests waiting =>
        refine ⟨orderly.exclusive, fun i thread ticket at_i isCall waits => ?_, orderly.own⟩
        rw [serve_pending waiting]
        exact orderly.awaited i thread ticket at_i isCall waits

/-- A thread inside an exchange is the only one that may wait for a reply. -/
theorem Settled.mine (settled : s.Settled) (isOpen : s.io = true) {i : Nat} {thread : ClientThread}
    (at_i : s.threads[i]? = some thread) (inside : thread.progress.holds = true) :
    s.pending = [] ∨ ∃ ticket, thread.progress = .receiving ticket ∧ s.pending = [ticket] := by
  rcases settled.awaited isOpen with empty | ⟨j, other, ticket, at_j, waits, due⟩
  · exact Or.inl empty
  · have owner := settled.exclusive j other at_j (by rw [waits]; rfl)
    rw [settled.exclusive i thread at_i inside] at owner
    cases owner
    rw [at_i] at at_j
    cases at_j
    exact Or.inr ⟨ticket, waits, due⟩

/-- A thread that was not waiting goes on and leaves the queues as they are. -/
theorem Settled.update (settled : s.Settled) {i : Nat} {thread : ClientThread} {progress : Progress}
    (at_i : s.threads[i]? = some thread) (threads : s'.threads = s.moved i thread progress)
    (exclusive : s'.Exclusive) (busy : ∀ ticket, thread.progress ≠ .receiving ticket)
    (isOpen : s'.io = true → s.io = true) (pending : s'.pending = s.pending) : s'.Settled := by
  refine ⟨exclusive, fun stillOpen => ?_⟩
  rw [pending]
  refine (settled.awaited (isOpen stillOpen)).imp_right ?_
  rintro ⟨j, other, ticket, at_j, waits, due⟩
  have different : j ≠ i := by
    rintro rfl
    rw [at_i] at at_j
    cases at_j
    exact busy ticket waits
  exact ⟨j, other, ticket, by rw [threads, moved_other progress different, at_j], waits, due⟩

theorem Exclusive.finish (exclusive : s.Exclusive) {i : Nat} {thread : ClientThread}
    (owner : s.connectionMutex = some i) (ret : DrpcClientErrors) (taken : Option (Nat × Reply)) :
    (s.finish i thread ret taken).Exclusive := by
  obtain ⟨progress, threads, outside, -⟩ := finish_threads s i thread ret taken
  refine exclusive.update threads (fun holds => ?_) fun j different other => ?_
  · rw [outside] at holds
    cases holds
  · rw [owner] at other
    cases other
    exact absurd rfl different

theorem Settled.turn (settled : s.Settled) {i : Nat} {thread : ClientThread} {done : Bool}
    (at_i : s.threads[i]? = some thread) (timely : s.Timely (.turn i done)) : (s.turn i thread done).Settled := by
  have inside : thread.progress.holds = true → s.connectionMutex = some i := settled.exclusive i thread at_i
  unfold ClientChannel.turn
  split
  · next starts =>
    have busy : ∀ ticket, thread.progress ≠ .receiving ticket := by simp [starts]
    split
    · exact settled.update at_i rfl (settled.exclusive.update rfl (by simp [Progress.holds]) fun j _ owner => owner) busy id rfl
    · exact settled.update at_i rfl (settled.exclusive.update rfl (by simp [Progress.holds]) fun j _ owner => owner) busy id rfl
  · next locks =>
    have busy : ∀ ticket, thread.progress ≠ .receiving ticket := by simp [locks]
    split
    · next free =>
      refine settled.update at_i rfl (settled.exclusive.update rfl (fun _ => rfl) fun j _ owner => ?_) busy id rfl
      rw [free] at owner
      cases owner
    · exact settled
  · next sends =>
    have owner := inside (by rw [sends]; rfl)
    have busy : ∀ ticket, thread.progress ≠ .receiving ticket := by simp [sends]
    split
    · next sent =>
      simp only [Bool.and_eq_true] at sent
      have empty : s.pending = [] := by
        rcases settled.mine sent.1 at_i (by rw [sends]; rfl) with empty | ⟨ticket, waits, -⟩
        · exact empty
        · exact absurd waits (busy ticket)
      refine ⟨settled.exclusive.update rfl (fun _ => owner) fun j _ other => other, fun _ => Or.inr ?_⟩
      refine ⟨i, _, s.sent, moved_self _ at_i, rfl, ?_⟩
      simp only [pending, List.map_append] at empty ⊢
      rw [← List.append_assoc, empty]
      rfl
    · obtain ⟨progress, threads, -⟩ := finish_threads s i thread .enetwork none
      exact settled.update at_i threads (settled.exclusive.finish owner _ _) busy (fun isOpen => (finish_io isOpen).1)
        finish_pending
  · next ticket waits =>
    have owner := inside (by rw [waits]; rfl)
    cases done with
    | true =>
      rw [if_pos rfl]
      split
      · exact settled
      · next reply replies queued =>
        refine ⟨settled.exclusive.update rfl (fun _ => owner) fun j _ other => other, fun isOpen => Or.inl ?_⟩
        rcases settled.mine isOpen at_i (by rw [waits]; rfl) with empty | ⟨_, -, due⟩
        · rw [pending, queued] at empty
          cases empty
        · rw [pending, queued] at due
          exact (List.cons.inj due).2
    | false =>
      -- only the ping thread times out, and it frees the `io`
      refine ⟨settled.exclusive.finish owner _ _, fun isOpen => ?_⟩
      cases (finish_io isOpen).2 (timely thread ticket at_i waits)
  · next ticket reply received =>
    have owner := inside (by rw [received]; rfl)
    have busy : ∀ ticket, thread.progress ≠ .receiving ticket := by simp [received]
    split
    · exact ⟨settled.exclusive, settled.awaited⟩
    · next ret _ =>
      obtain ⟨progress, threads, -⟩ := finish_threads s i thread ret (some (ticket, reply))
      exact settled.update at_i threads (settled.exclusive.finish owner _ _) busy (fun isOpen => (finish_io isOpen).1)
        finish_pending
  · exact settled

theorem Settled.step (settled : s.Settled) {action : ClientAction} (timely : s.Timely action) :
    (s.step action).Settled := by
  unfold ClientChannel.step
  split
  · exact settled
  · cases action with
    | invoke function notPing =>
      refine ⟨settled.exclusive.invoke function, fun isOpen => (settled.awaited isOpen).imp_right ?_⟩
      rintro ⟨i, thread, ticket, at_i, waits, due⟩
      refine ⟨i, thread, ticket, ?_, waits, due⟩
      dsimp only
      rw [List.getElem?_append_left (List.getElem?_eq_some_iff.mp at_i).choose, at_i]
    | turn i done =>
      dsimp only
      split
      · exact settled
      · next thread at_i => exact settled.turn at_i timely
    | serve reply =>
      dsimp only
      split
      · exact settled
      · next request requests waiting =>
        refine ⟨settled.exclusive, fun isOpen => ?_⟩
        rw [serve_pending waiting]
        exact settled.awaited isOpen

/-- In a settled state a call sends when nothing is due. -/
theorem Settled.drained (settled : s.Settled) (action : ClientAction) : s.Drained action := by
  unfold Drained
  split
  · intro thread at_i _ sends isOpen
    rcases settled.mine isOpen at_i (by rw [sends]; rfl) with empty | ⟨ticket, waits, -⟩
    · exact empty
    · rw [sends] at waits
      cases waits
  · trivial

theorem start_exclusive : start.Exclusive := by
  intro i thread at_i holds
  rw [List.mem_singleton.mp (List.mem_of_getElem? at_i)] at holds
  cases holds

theorem start_orderly : start.Orderly where
  exclusive := start_exclusive
  awaited := fun i thread ticket at_i isCall _ => by
    rw [List.mem_singleton.mp (List.mem_of_getElem? at_i)] at isCall
    cases isCall
  own := fun thread member isCall => by
    rw [List.mem_singleton.mp member] at isCall
    cases isCall

theorem start_settled : start.Settled := ⟨start_exclusive, fun _ => Or.inl rfl⟩

end ClientChannel

/-- In a run in which every `drpc_client_call` sends its request on a drained
channel, a call that returns 0 has the reply to its own request. The channel is
drained whenever no receive outside of the ping thread times out. -/
theorem clientCalls_paired (actions : List ClientAction) :
    ∃ s, ClientChannel.clientRun .start actions = .ok s ∧
      (Along (fun s action => pure (s.step action)) ClientChannel.Drained .start actions → s.Paired) ∧
      (Along (fun s action => pure (s.step action)) ClientChannel.Timely .start actions →
        Along (fun s action => pure (s.step action)) ClientChannel.Drained .start actions) := by
  obtain ⟨s, ran⟩ := run_returns (fun (s : ClientChannel) action => returns_ok (s.step action)) .start actions
  refine ⟨s, ran, fun drained => ?_, fun timely => ?_⟩
  · have orderly := run_keeps ClientChannel.Orderly (fun s action s' orderly drained stepped => by
      cases stepped
      exact orderly.step drained) ClientChannel.start_orderly drained ran
    exact orderly.paired
  · exact along_of_invariant ClientChannel.Settled (fun s action s' settled timely stepped => by
      cases stepped
      exact settled.step timely) (fun s action settled => settled.drained action) ClientChannel.start_settled timely

/-- A call without pointer arguments. -/
def plainCall : ClientAction := .invoke (.call noContents .empty []) rfl

/-- A `drpc_return` without a value. -/
def voidReturn : MemoryMessage := ⟨.return, some newDStruct⟩

/-- A call and a ping at the same time. -/
def pingedCall : List ClientAction :=
  [plainCall, .turn 0 true, .turn 0 true, .turn 1 true, .turn 0 true, .turn 1 true, .serve ⟨.ping, none⟩, .turn 0 true,
    .turn 0 true, .turn 1 true, .turn 1 true, .serve voidReturn, .turn 1 true, .turn 1 true]

theorem clientCalls_paired_ping :
    ∃ s, ClientChannel.clientRun .start pingedCall = .ok s ∧ s.Paired ∧
      s.threads.map (fun thread => thread.progress.result) = [none, some (.ok, some (1, 1))] := by
  obtain ⟨s, ran, paired, drained⟩ := clientCalls_paired pingedCall
  have timely : ∀ action ∈ pingedCall, ∀ s : ClientChannel, s.Timely action := by
    simp [pingedCall, plainCall, ClientChannel.Timely]
  have results : (ClientChannel.clientRun .start pingedCall).map
      (fun s => s.threads.map fun thread => thread.progress.result) = .ok [none, some (.ok, some (1, 1))] := by
    decide +kernel
  rw [ran] at results
  exact ⟨s, ran, paired (drained (along_of_all timely _)), Except.ok.inj results⟩

/-- The first call times out, the server answers it late, and the second call
returns 0 with that reply. -/
theorem clientCalls_lateReply :
    (ClientChannel.clientRun .start [plainCall, .turn 1 true, .turn 1 true, .turn 1 true, .turn 1 false,
        .serve voidReturn, plainCall, .turn 2 true, .turn 2 true, .turn 2 true, .turn 2 true, .turn 2 true]).map
      (fun s => s.threads.map fun thread => thread.progress.result) =
    .ok [none, some (.enetwork, none), some (.ok, some (1, 0))] := by
  decide +kernel

end DynamicRPC
