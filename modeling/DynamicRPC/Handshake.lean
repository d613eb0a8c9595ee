import DynamicRPC.HandleClient

namespace DynamicRPC
open Outcome

namespace HandleClient
variable (h : HandleClient)

/-- The event that the executor has popped and is not through with. -/
def inHand : List ClientMessage :=
  match h.executor with
  | .handling event | .marking event | .stopping event => [event]
  | _ => []

/-- The reader has pushed an event that it has not posted. -/
def unposted : Nat :=
  match h.reader with
  | .posting | .postingDisconnect => 1
  | _ => 0

/-- The executor may have taken a permit for an event that it has not popped. -/
def unclaimed : Nat :=
  match h.executor with
  | .waiting | .handling _ | .marking _ | .stopping _ => 0
  | _ => 1

/-- What the receive loop has left when it is over: a disconnect event, or none
to an executor that has ended without one. -/
def SaidFarewell : Prop := h.farewell = [.disconnect] ∨ h.farewell = [] ∧ h.alreadyDisconnected = true

def ReaderFacts : Prop :=
  match h.reader with
  | .receiving | .pushing _ | .posting | .checking | .pushingDisconnect => h.farewell = [] ∧ h.drained = []
  | .postingDisconnect => h.farewell = [.disconnect] ∧ h.drained = []
  | .joining => h.SaidFarewell ∧ h.drained = []
  | .draining => h.SaidFarewell ∧ h.drained = [] ∧ h.executor = .exited
  | .done => h.SaidFarewell ∧ h.eventQueue = [] ∧ h.executor = .exited

def ExecutorFacts : Prop :=
  match h.executor with
  | .popping => h.eventQueue ≠ [] ∨ h.stop = false
  | .waiting => h.stop = false
  | .leaving | .exited => h.stop = true
  | _ => True

/-- `stop` is set, or the executor is about to set it. -/
def Halting : Prop :=
  match h.executor with
  | .stopping _ => True
  | _ => h.stop = true

/-- What holds whenever either thread may go on. -/
structure Coherent : Prop where
  events : (h.handled ++ h.inHand).map some ++ (h.eventQueue ++ h.drained) = (h.accepted ++ h.farewell).map some
  permits : h.eventQueue.length ≤ h.wait + h.unposted + h.unclaimed
  reader : h.ReaderFacts
  executor : h.ExecutorFacts
  marked : h.alreadyDisconnected = true → h.Halting
  disconnected : .disconnect ∈ h.handled → h.stop = true

theorem start_coherent (clientPerm : Int) : (start clientPerm).Coherent where
  events := rfl
  permits := Nat.zero_le _
  reader := ⟨rfl, rfl⟩
  executor := trivial
  marked := fun marked => by cases marked
  disconnected := fun handled => by cases handled

variable {h}

/-- An event more in the queue. -/
theorem ExecutorFacts.push (facts : h.ExecutorFacts) (item : Option ClientMessage) {h' : HandleClient}
    (queue : h'.eventQueue = queuePush h.eventQueue item) (stop : h'.stop = h.stop)
    (executor : h'.executor = h.executor) : h'.ExecutorFacts := by
  unfold ExecutorFacts at facts ⊢
  rw [executor, stop]
  split at facts
  · exact .inl (by rw [queue]; exact List.append_ne_nil_of_right_ne_nil _ (List.cons_ne_nil item []))
  · exact facts
  · exact facts
  · exact facts
  · trivial

theorem Coherent.reader_step {h' : HandleClient} {received : Option ClientMessage} (coherent : h.Coherent)
    (stepped : h.readerStep received = .ok h') : h'.Coherent := by
  obtain ⟨perm, queue, wait, stop, already, reader, executor, accepted, farewell, handled, drained⟩ := h
  obtain ⟨events, permits, readerFacts, executorFacts, marked, disconnected⟩ := coherent
  cases reader with
  | receiving =>
    cases received <;> cases stepped <;> exact ⟨events, permits, readerFacts, executorFacts, marked, disconnected⟩
  | pushing event =>
    cases stepped
    obtain ⟨rfl, rfl⟩ : farewell = [] ∧ drained = [] := readerFacts
    refine ⟨?_, ?_, ⟨rfl, rfl⟩, executorFacts.push (some event) rfl rfl rfl, marked, disconnected⟩
    · simp only [inHand, queuePush, List.append_nil, List.map_append] at events ⊢
      rw [← List.append_assoc, events]
      rfl
    · simp only [unposted, unclaimed, queuePush, List.length_append, List.length_cons, List.length_nil] at permits ⊢
      omega
  | posting =>
    obtain ⟨posted, enough, rest⟩ := bind_eq_ok.mp stepped
    cases rest
    cases semPost_inv enough
    refine ⟨events, ?_, readerFacts, executorFacts, marked, disconnected⟩
    simp only [unposted, unclaimed] at permits ⊢
    omega
  | checking =>
    obtain ⟨rfl, rfl⟩ : farewell = [] ∧ drained = [] := readerFacts
    simp only [readerStep] at stepped
    split at stepped <;> cases stepped
    · rename_i gone
      exact ⟨events, permits, ⟨.inr ⟨rfl, gone⟩, rfl⟩, executorFacts, marked, disconnected⟩
    · exact ⟨events, permits, ⟨rfl, rfl⟩, executorFacts, marked, disconnected⟩
  | pushingDisconnect =>
    cases stepped
    obtain ⟨rfl, rfl⟩ : farewell = [] ∧ drained = [] := readerFacts
    refine ⟨?_, ?_, ⟨rfl, rfl⟩, executorFacts.push (some .disconnect) rfl rfl rfl, marked, disconnected⟩
    · simp only [inHand, queuePush, List.append_nil, List.nil_append, List.map_append] at events ⊢
      rw [← List.append_assoc, events]
      rfl
    · simp only [unposted, unclaimed, queuePush, List.length_append, List.length_cons, List.length_nil] at permits ⊢
      omega
  | postingDisconnect =>
    obtain ⟨posted, enough, rest⟩ := bind_eq_ok.mp stepped
    cases rest
    cases semPost_inv enough
    obtain ⟨rfl, rfl⟩ : farewell = [.disconnect] ∧ drained = [] := readerFacts
    refine ⟨events, ?_, ⟨.inl rfl, rfl⟩, executorFacts, marked, disconnected⟩
    simp only [unposted, unclaimed] at permits ⊢
    omega
  | joining =>
    obtain ⟨said, rfl⟩ := readerFacts
    cases executor with
    | exited =>
      cases stepped
      exact ⟨events, permits, ⟨said, rfl, rfl⟩, executorFacts, marked, disconnected⟩
    | counting | testing | popping | waiting | handling _ | marking _ | stopping _ | leaving =>
      cases stepped
      exact ⟨events, permits, ⟨said, rfl⟩, executorFacts, marked, disconnected⟩
  | draining =>
    cases stepped
    obtain ⟨said, nothing, rfl⟩ := readerFacts
    cases nothing
    refine ⟨?_, Nat.zero_le _, ⟨said, rfl, rfl⟩, executorFacts, marked, disconnected⟩
    rw [drainEvents_all]
    simpa only [inHand, List.append_nil, List.nil_append] using events
  | done =>
    cases stepped
    exact ⟨events, permits, readerFacts, executorFacts, marked, disconnected⟩

/-- The receive loop is not moved by the executor. -/
theorem ReaderFacts.executor_step {h' : HandleClient} (facts : h.ReaderFacts) (reader : h'.reader = h.reader)
    (farewell : h'.farewell = h.farewell) (drained : h'.drained = h.drained) (running : h.executor ≠ .exited)
    (already : h.alreadyDisconnected = true → h'.alreadyDisconnected = true) : h'.ReaderFacts := by
  have said (before : h.SaidFarewell) : h'.SaidFarewell := by
    unfold SaidFarewell
    rw [farewell]
    exact before.imp_right (And.imp_right already)
  unfold ReaderFacts at facts ⊢
  rw [reader, drained, farewell]
  cases place : h.reader with
  | receiving | pushing _ | posting | checking | pushingDisconnect | postingDisconnect =>
    rw [place] at facts
    exact facts
  | joining =>
    rw [place] at facts
    exact ⟨said facts.1, facts.2⟩
  | draining =>
    rw [place] at facts
    exact absurd facts.2.2 running
  | done =>
    rw [place] at facts
    exact absurd facts.2.2 running

theorem Coherent.executor_step {registry : Registry} {server : ServerState} {ping : DrpcClient → DrpcClient}
    {sent : Bool} {h' : HandleClient} (coherent : h.Coherent)
    (stepped : h.executorStep registry server ping sent = .ok h') : h'.Coherent := by
  obtain ⟨perm, queue, wait, stop, already, reader, executor, accepted, farewell, handled, drained⟩ := h
  obtain ⟨events, permits, readerFacts, executorFacts, marked, disconnected⟩ := coherent
  have unmoved := @ReaderFacts.executor_step _ h' readerFacts
  cases executor with
  | counting =>
    simp only [executorStep] at stepped
    split at stepped <;> cases stepped
    · rename_i some
      exact ⟨events, permits, unmoved rfl rfl rfl (by simp) id, .inl (List.ne_nil_of_length_pos some), marked, disconnected⟩
    · exact ⟨events, permits, unmoved rfl rfl rfl (by simp) id, trivial, marked, disconnected⟩
  | testing =>
    simp only [executorStep] at stepped
    split at stepped <;> cases stepped
    · rename_i stops
      exact ⟨events, permits, unmoved rfl rfl rfl (by simp) id, stops, marked, disconnected⟩
    · rename_i goes
      exact ⟨events, permits, unmoved rfl rfl rfl (by simp) id, .inr (Bool.eq_false_of_not_eq_true goes), marked, disconnected⟩
  | popping =>
    cases queue with
    | nil =>
      cases stepped
      have goes : stop = false := executorFacts.resolve_left fun some => some rfl
      exact ⟨events, Nat.zero_le _, unmoved rfl rfl rfl (by simp) id, goes, marked, disconnected⟩
    | cons item queue =>
      cases item with
      | none =>
        have impossible : none ∈ (accepted ++ farewell).map some := by
          rw [← events]
          exact List.mem_append_right _ (List.mem_append_left _ List.mem_cons_self)
        simp at impossible
      | some event =>
        cases stepped
        refine ⟨?_, ?_, unmoved rfl rfl rfl (by simp) id, trivial, marked, disconnected⟩
        · simp only [inHand, List.append_nil, List.map_append] at events ⊢
          rw [← events, List.append_assoc]
          rfl
        · simp only [unposted, unclaimed, List.length_cons] at permits ⊢
          omega
  | waiting =>
    simp only [executorStep] at stepped
    split at stepped <;> cases stepped
    · exact ⟨events, permits, readerFacts, executorFacts, marked, disconnected⟩
    · rename_i some
      refine ⟨events, ?_, unmoved rfl rfl rfl (by simp) id, trivial, marked, disconnected⟩
      simp only [unposted, unclaimed] at permits some ⊢
      omega
  | handling event =>
    obtain rfl | ⟨unmarked, rfl⟩ | ⟨different, rfl⟩ := handling_inv rfl stepped
    · exact ⟨events, permits, unmoved rfl rfl rfl (by simp) id, trivial, fun _ => trivial, disconnected⟩
    · exact ⟨events, permits, unmoved rfl rfl rfl (by simp) id, trivial, marked, disconnected⟩
    · refine ⟨?_, ?_, unmoved rfl rfl rfl (by simp) id, trivial, marked, ?_⟩
      · simpa only [inHand, List.append_nil] using events
      · simp only [unposted, unclaimed] at permits ⊢
        omega
      · intro handled
        obtain before | new := List.mem_append.mp handled
        · exact disconnected before
        · exact absurd (List.mem_singleton.mp new).symm different
  | marking event =>
    cases stepped
    exact ⟨events, permits, unmoved rfl rfl rfl (by simp) fun _ => rfl, trivial, fun _ => trivial, disconnected⟩
  | stopping event =>
    cases stepped
    refine ⟨?_, ?_, unmoved rfl rfl rfl (by simp) id, trivial, fun _ => rfl, fun _ => rfl⟩
    · simpa only [inHand, List.append_nil] using events
    · simp only [unposted, unclaimed] at permits ⊢
      omega
  | leaving =>
    cases stepped
    exact ⟨events, permits, unmoved rfl rfl rfl (by simp) fun _ => rfl, executorFacts, fun _ => executorFacts, disconnected⟩
  | exited =>
    cases stepped
    exact ⟨events, permits, readerFacts, executorFacts, marked, disconnected⟩

theorem Coherent.step {registry : Registry} {h' : HandleClient} (action : ThreadAction) (coherent : h.Coherent)
    (stepped : handleClientStep registry h action = .ok h') : h'.Coherent := by
  cases action with
  | reader received => exact coherent.reader_step stepped
  | executor server ping sent => exact coherent.executor_step stepped

theorem run_coherent {registry : Registry} {clientPerm : Int} {actions : List ThreadAction}
    (ran : handleClientRun registry clientPerm actions = .ok h) : h.Coherent :=
  Runs.run_invariant Coherent (fun _ action _ coherent => coherent.step action) (start_coherent clientPerm) ran

/-- A blocked executor has nothing to handle but an event that is not posted yet. -/
theorem Coherent.blocked_queue (coherent : h.Coherent) (blocked : h.Blocked) (some : h.eventQueue ≠ []) :
    h.reader = .posting ∨ h.reader = .postingDisconnect := by
  obtain ⟨waits, empty⟩ := blocked
  have length := List.length_pos_of_ne_nil some
  have permits := coherent.permits
  simp only [unposted, unclaimed, waits, empty] at permits
  cases place : h.reader with
  | posting => exact .inl rfl
  | postingDisconnect => exact .inr rfl
  | receiving | pushing _ | checking | pushingDisconnect | joining | draining | done =>
    rw [place] at permits
    dsimp only at permits
    omega

/-- Whoever is joined has been told to stop. -/
theorem Coherent.not_blocked (coherent : h.Coherent) (joins : h.reader = .joining) : ¬ h.Blocked := by
  intro blocked
  have goes : h.stop = false := by
    have facts := coherent.executor
    rwa [ExecutorFacts, blocked.1] at facts
  have facts := coherent.reader
  rw [ReaderFacts, joins] at facts
  obtain ⟨said | ⟨-, marked⟩, nothing⟩ := facts
  · have empty : h.eventQueue = [] := by
      by_contra some
      have := coherent.blocked_queue blocked some
      simp [joins] at this
    have events := coherent.events
    rw [empty, nothing, said, inHand, blocked.1, List.append_nil, List.append_nil, List.append_nil] at events
    have all : h.handled = h.accepted ++ [.disconnect] := List.map_injective_iff.mpr (Option.some_injective _) events
    have stops := coherent.disconnected (by rw [all]; exact List.mem_append_right _ List.mem_cons_self)
    rw [goes] at stops
    cases stops
  · have stops := coherent.marked marked
    rw [Halting, blocked.1, goes] at stops
    cases stops

end HandleClient

/-- The handshake of the receive loop and the executor does not deadlock. -/
theorem handleClient_handshake (registry : Registry) (clientPerm : Int) (actions : List ThreadAction) (h : HandleClient)
    (ran : handleClientRun registry clientPerm actions = .ok h) :
    (h.Blocked → h.eventQueue ≠ [] → h.reader = .posting ∨ h.reader = .postingDisconnect) ∧
      (h.reader = .joining → h.executor = .exited ∨ ¬ h.Blocked ∧ h.Moves registry) := by
  have coherent := HandleClient.run_coherent ran
  refine ⟨coherent.blocked_queue, fun joins => ?_⟩
  by_cases gone : h.executor = .exited
  · exact .inl gone
  · have free := coherent.not_blocked joins
    exact .inr ⟨free, HandleClient.moves gone free⟩

/-- A client that sends a ping and leaves while the executor waits: the reader
reaches `pthread_join` with both events in the queue. -/
theorem handleClient_handshake_ping :
    ∃ h : HandleClient, h.reader = .joining ∧
      (h.Blocked → h.eventQueue ≠ [] → h.reader = .posting ∨ h.reader = .postingDisconnect) ∧
      (h.reader = .joining → h.executor = .exited ∨ ¬ h.Blocked ∧ h.Moves bareRegistry) := by
  refine ⟨_, rfl, handleClient_handshake bareRegistry 0
    [.executor bareServer id true, .executor bareServer id true, .executor bareServer id true,
      .reader (some (.other .ping (by decide) none)), .reader none, .reader none,
      .reader none, .reader none, .reader none, .reader none]
    { clientPerm := 0, eventQueue := [some (.other .ping (by decide) none), some .disconnect], wait := 2, stop := false,
      alreadyDisconnected := false, reader := .joining, executor := .waiting,
      accepted := [.other .ping (by decide) none], farewell := [.disconnect], handled := [], drained := [] } rfl⟩

end DynamicRPC
