import DynamicRPC.Handshake

namespace DynamicRPC
open Outcome Runs

namespace HandleClient
variable {h : HandleClient}

/-- The executor is done with its loop: it has found the queue empty and `stop` set. -/
def OutOfLoop (h : HandleClient) : Prop :=
  match h.executor with
  | .testing => h.stop = true
  | .leaving | .exited => True
  | _ => False

/-- The receive loop pushes a message to an executor that still pops. -/
def PushedInTime (h : HandleClient) : ThreadAction → Prop
  | .reader _ =>
    match h.reader with
    | .pushing _ => ¬ h.OutOfLoop
    | _ => True
  | .executor _ _ _ => True

/-- Nothing that the receive loop pushed waits for an executor that is done. -/
def Unspoilt (h : HandleClient) : Prop := h.OutOfLoop → h.accepted.length ≤ h.handled.length

theorem OutOfLoop.reader_step {h' : HandleClient} {received : Option ClientMessage}
    (stepped : h.readerStep received = .ok h') : h'.OutOfLoop ↔ h.OutOfLoop := by
  obtain ⟨-, executor, stop, -, -⟩ := readerStep_frame stepped
  unfold OutOfLoop
  rw [executor, stop]

/-- Whoever is out of the loop stays out and handles nothing. -/
theorem OutOfLoop.executor_step {registry : Registry} {server : ServerState} {ping : DrpcClient → DrpcClient}
    {sent : Bool} {h' : HandleClient} (out : h.OutOfLoop)
    (stepped : h.executorStep registry server ping sent = .ok h') :
    h'.OutOfLoop ∧ h'.accepted = h.accepted ∧ h'.handled = h.handled := by
  unfold OutOfLoop at out
  unfold executorStep at stepped
  cases place : h.executor with
  | testing =>
    rw [place] at stepped out
    dsimp only at stepped out
    rw [if_pos out] at stepped
    cases stepped
    exact ⟨trivial, rfl, rfl⟩
  | leaving =>
    rw [place] at stepped
    cases stepped
    exact ⟨trivial, rfl, rfl⟩
  | exited =>
    rw [place] at stepped
    cases stepped
    exact ⟨by rw [OutOfLoop, place]; trivial, rfl, rfl⟩
  | counting | popping | waiting | handling _ | marking _ | stopping _ =>
    rw [place] at out
    exact out.elim

/-- The loop is only left at an empty queue. -/
theorem executorStep_outOfLoop {registry : Registry} {server : ServerState} {ping : DrpcClient → DrpcClient}
    {sent : Bool} {h' : HandleClient} (stepped : h.executorStep registry server ping sent = .ok h')
    (out : h'.OutOfLoop) : h.OutOfLoop ∨ h.executor = .counting ∧ h.eventQueue = [] ∧ h'.accepted = h.accepted ∧
      h'.handled = h.handled := by
  obtain ⟨perm, queue, wait, stop, already, reader, executor, accepted, farewell, handled, drained⟩ := h
  cases executor with
  | counting =>
    simp only [executorStep] at stepped
    split at stepped <;> cases stepped
    · exact out.elim
    · rename_i none
      exact .inr ⟨rfl, List.length_eq_zero_iff.mp (Nat.eq_zero_of_not_pos none), rfl, rfl⟩
  | testing =>
    simp only [executorStep] at stepped
    split at stepped
    · rename_i stops
      exact .inl stops
    · cases stepped
      exact out.elim
  | popping =>
    simp only [executorStep] at stepped
    split at stepped <;> cases stepped <;> exact out.elim
  | waiting =>
    simp only [executorStep] at stepped
    split at stepped <;> cases stepped <;> exact out.elim
  | handling event => obtain rfl | ⟨-, rfl⟩ | ⟨-, rfl⟩ := handling_inv rfl stepped <;> exact out.elim
  | marking event | stopping event =>
    cases stepped
    exact out.elim
  | leaving | exited => exact .inl trivial

/-- Events are freed undone only behind the loop of the executor. -/
theorem Coherent.drained_nil (coherent : h.Coherent) (running : h.executor ≠ .exited) : h.drained = [] := by
  have facts := coherent.reader
  unfold ReaderFacts at facts
  cases place : h.reader with
  | receiving | pushing _ | posting | checking | pushingDisconnect | postingDisconnect | joining =>
    rw [place] at facts
    exact facts.2
  | draining =>
    rw [place] at facts
    exact facts.2.1
  | done =>
    rw [place] at facts
    exact absurd facts.2.2 running

theorem Coherent.length_eq (coherent : h.Coherent) :
    h.handled.length + h.inHand.length + (h.eventQueue.length + h.drained.length) =
      h.accepted.length + h.farewell.length := by
  simpa only [List.length_append, List.length_map] using congrArg List.length coherent.events

/-- A message pushed in time is handled before the executor leaves its loop. -/
theorem Unspoilt.step {registry : Registry} {h' : HandleClient} {action : ThreadAction} (coherent : h.Coherent)
    (unspoilt : h.Unspoilt) (timely : h.PushedInTime action)
    (stepped : handleClientStep registry h action = .ok h') : h'.Unspoilt := by
  intro out
  cases action with
  | reader received =>
    have before := (OutOfLoop.reader_step stepped).mp out
    obtain ⟨-, -, -, handled, accepted | ⟨event, pushes, -⟩⟩ := readerStep_frame stepped
    · rw [accepted, handled]
      exact unspoilt before
    · simp only [PushedInTime, pushes] at timely
      exact absurd before timely
  | executor server ping sent =>
    obtain before | ⟨counts, empty, accepted, handled⟩ := executorStep_outOfLoop stepped out
    · obtain ⟨-, accepted, handled⟩ := before.executor_step stepped
      rw [accepted, handled]
      exact unspoilt before
    · have length := coherent.length_eq
      rw [coherent.drained_nil (by rw [counts]; nofun), empty, inHand, counts] at length
      rw [accepted, handled]
      simp only [List.length_nil] at length
      omega

/-- A message pushed too late stays in the queue. -/
theorem Coherent.spoilt {registry : Registry} {h' : HandleClient} {action : ThreadAction} (coherent : h.Coherent)
    (late : ¬ h.PushedInTime action) (stepped : handleClientStep registry h action = .ok h') : ¬ h'.Unspoilt := by
  have after := coherent.step action stepped
  cases action with
  | executor server ping sent => exact absurd trivial late
  | reader received =>
    obtain ⟨perm, queue, wait, stop, already, reader, executor, accepted, farewell, handled, drained⟩ := h
    cases reader with
    | pushing event =>
      have before : OutOfLoop _ := not_not.mp late
      cases stepped
      obtain ⟨rfl, -⟩ : farewell = [] ∧ drained = [] := after.reader
      have length := after.length_eq
      intro unspoilt
      have short := unspoilt before
      simp only [queuePush, List.length_append, List.length_cons, List.length_nil] at length short
      omega
    | receiving | posting | checking | pushingDisconnect | postingDisconnect | joining | draining | done =>
      exact absurd trivial late

theorem spoilt_step {registry : Registry} {h' : HandleClient} {action : ThreadAction} (spoilt : ¬ h.Unspoilt)
    (stepped : handleClientStep registry h action = .ok h') : ¬ h'.Unspoilt := by
  unfold Unspoilt at spoilt ⊢
  rw [Classical.not_imp, Nat.not_le] at spoilt ⊢
  obtain ⟨out, short⟩ := spoilt
  cases action with
  | reader received =>
    refine ⟨(OutOfLoop.reader_step stepped).mpr out, ?_⟩
    obtain ⟨-, -, -, handled, accepted | ⟨event, -, accepted⟩⟩ := readerStep_frame stepped
    · rwa [accepted, handled]
    · rw [accepted, handled, List.length_append]
      exact Nat.lt_add_right _ short
  | executor server ping sent =>
    obtain ⟨still, accepted, handled⟩ := out.executor_step stepped
    exact ⟨still, by rwa [accepted, handled]⟩

/-- What the end of a connection looks like when nothing was pushed too late. -/
theorem Coherent.unspoilt_iff (coherent : h.Coherent) (finished : h.reader = .done) :
    h.Unspoilt ↔ h.accepted <+: h.handled ∧ (h.drained = [] ∨ h.drained = [some .disconnect]) := by
  have facts := coherent.reader
  rw [ReaderFacts, finished] at facts
  obtain ⟨said, empty, gone⟩ := facts
  have events := coherent.events
  rw [inHand, gone, empty, List.append_nil, List.nil_append] at events
  constructor
  · intro unspoilt
    have long : h.accepted.length ≤ h.handled.length := unspoilt (by rw [OutOfLoop, gone]; trivial)
    obtain ⟨first, rest, split, handled, drained⟩ := List.map_eq_append_iff.mp events.symm
    obtain rfl : first = h.handled := List.map_injective_iff.mpr (Option.some_injective _) handled
    obtain ⟨more, answered⟩ : h.accepted <+: h.handled :=
      List.prefix_of_prefix_length_le (split ▸ List.prefix_append h.accepted h.farewell) (List.prefix_append _ rest) long
    refine ⟨⟨more, answered⟩, ?_⟩
    rw [← answered, List.append_assoc, List.append_cancel_left_eq] at split
    rw [← drained]
    obtain some | ⟨none, -⟩ := said
    · rw [some] at split
      obtain ⟨-, rfl⟩ | ⟨-, rfl⟩ := List.append_eq_singleton_iff.mp split.symm
      · exact .inr rfl
      · exact .inl rfl
    · rw [none] at split
      rw [(List.append_eq_nil_iff.mp split.symm).2]
      exact .inl rfl
  · intro both _
    exact both.1.length_le

end HandleClient

/-- At the end of a connection all that the receive loop pushed has been
handled, in its order, and at most the disconnect event is freed undone, if and
only if the loop never pushed to an executor that was done with its own loop. -/
theorem handleClient_answersAll_iff (registry : Registry) (clientPerm : Int) (actions : List ThreadAction)
    (h : HandleClient) (ran : handleClientRun registry clientPerm actions = .ok h) (finished : h.reader = .done) :
    (h.accepted <+: h.handled ∧ (h.drained = [] ∨ h.drained = [some .disconnect])) ↔
      Along (handleClientStep registry) HandleClient.PushedInTime (.start clientPerm) actions := by
  have coherent := HandleClient.run_coherent ran
  rw [← coherent.unspoilt_iff finished]
  constructor
  · intro unspoilt
    exact along_of_end_within HandleClient.Coherent (fun h => ¬ h.Unspoilt)
      (fun _ action _ coherent => coherent.step action) (fun _ _ _ coherent => coherent.spoilt)
      (fun _ _ _ => HandleClient.spoilt_step) (HandleClient.start_coherent clientPerm) ran (not_not.mpr unspoilt)
  · intro timely
    have kept := run_keeps (fun h : HandleClient => h.Coherent ∧ h.Unspoilt)
      (fun _ action _ held timely stepped =>
        ⟨held.1.step action stepped, held.2.step held.1 timely stepped⟩)
      ⟨HandleClient.start_coherent clientPerm, fun out => out.elim⟩ timely ran
    exact kept.2

/-- A ping is answered before its client hangs up. -/
theorem handleClient_answersAll_iff_ping :
    ∃ actions, ∃ h : HandleClient, h.accepted = [.other .ping (by decide) none] ∧
      ((h.accepted <+: h.handled ∧ (h.drained = [] ∨ h.drained = [some .disconnect])) ↔
        Along (handleClientStep bareRegistry) HandleClient.PushedInTime (.start 0) actions) :=
  let ping : ClientMessage := .other .ping (by decide) none
  let execute : ThreadAction := .executor bareServer id true
  let read : ThreadAction := .reader none
  ⟨[.reader (some ping), read, read, execute, execute, execute, read, read, read, read, execute, execute, execute,
      execute, execute, execute, execute, execute, read, read],
    { clientPerm := 0, eventQueue := [], wait := 2, stop := true, alreadyDisconnected := true, reader := .done,
      executor := .exited, accepted := [ping], farewell := [.disconnect], handled := [ping, .disconnect],
      drained := [] },
    rfl, handleClient_answersAll_iff bareRegistry 0 _ _ rfl rfl⟩

/-- A message of a type that the executor does not know ends it. The receive
loop still takes the ping that follows, and nobody answers it. -/
theorem handleClient_dropsPing :
    ¬ ∀ (registry : Registry) (clientPerm : Int) (actions : List ThreadAction) (h : HandleClient),
      handleClientRun registry clientPerm actions = .ok h → h.reader = .done →
        h.accepted <+: h.handled ∧ (h.drained = [] ∨ h.drained = [some .disconnect]) := by
  intro answersAll
  let unknown : ClientMessage := .other .auth (by decide) none
  let ping : ClientMessage := .other .ping (by decide) none
  let execute : ThreadAction := .executor bareServer id true
  let read : ThreadAction := .reader none
  obtain ⟨answered, -⟩ := answersAll bareRegistry 0
    [.reader (some unknown), read, read, execute, execute, execute, execute, execute, execute, execute,
      .reader (some ping), read, read, read, read, read, read]
    { clientPerm := 0, eventQueue := [], wait := 2, stop := true, alreadyDisconnected := true, reader := .done,
      executor := .exited, accepted := [unknown, ping], farewell := [], handled := [unknown], drained := [some ping] }
    rfl rfl
  exact absurd answered.length_le (by decide)

end DynamicRPC
