import DynamicRPC.Library.Runs
import DynamicRPC.Protocol

namespace DynamicRPC
open Outcome Runs

/-! The life of a `struct drpc_client` and of its `io`: the ping thread closes and
frees the `io`, `drpc_client_disconnect` frees the client, and the threads that
call functions of the client use both. -/

/-- Where a thread is with `drpc_send_message` and `drpc_recv_message`: about to
read `client->io` for one of them, or inside it with the pointer. -/
inductive ExchangeAt
  | send
  | sending
  | recv
  | receiving
  deriving DecidableEq

/-- Where the ping thread is in `drpc_ping_server`: in its loop, behind an exchange
that `failed`, or behind the loop. -/
inductive PingAt
  | testing
  | locking
  | exchange (place : ExchangeAt)
  | unlocking
  | stopping
  | closing (failed : Bool)
  | freeing (failed : Bool)
  | clearing (failed : Bool)
  | leaving
  | lastLocking
  | lastSend
  | lastSending
  | lastUnlocking
  | ended
  deriving DecidableEq

/-- Where a thread is in a function that exchanges a request for a reply. -/
inductive CallerAt
  | testing
  | locking
  | exchange (place : ExchangeAt)
  | unlocking (ret : DrpcClientErrors)
  | returned (ret : DrpcClientErrors)
  deriving DecidableEq

/-- Where a thread is in `drpc_client_disconnect`. -/
inductive DisconnectAt
  | testing
  | stopping
  | joining
  | freeing
  | returned
  deriving DecidableEq

inductive UserThread
  | caller (place : CallerAt)
  | disconnect (place : DisconnectAt)
  deriving DecidableEq

inductive MutexOwner
  | ping
  | user (i : Nat)
  deriving DecidableEq

/-- The client and the object behind its `io` pointer, each there until it is
freed, with the calls of `close` and `free` on the latter. -/
structure ClientLifetime where
  client : Bool
  clientStop : Bool
  ioPointer : Bool
  io : Bool
  closes : Nat
  frees : Nat
  connectionMutex : Option MutexOwner
  ping : PingAt
  threads : List UserThread

/-- A function of the client is called, or a thread goes on. `done` says whether
what it is inside of succeeds. -/
inductive LifetimeAction
  | call
  | disconnect
  | ping (done : Bool)
  | turn (i : Nat) (done : Bool)

namespace ClientLifetime

/-- A client that `drpc_client_connect` returns. -/
def start : ClientLifetime where
  client := true
  clientStop := false
  ioPointer := true
  io := true
  closes := 0
  frees := 0
  connectionMutex := none
  ping := .testing
  threads := []

variable (s : ClientLifetime)

/-- A step of an exchange: the next place, or the end with its success. A NULL
`io` makes both functions return 1. -/
def exchangeStep (place : ExchangeAt) (done : Bool) : Outcome (ExchangeAt ⊕ Bool) :=
  match place with
  | .send => pure (if s.ioPointer then .inl .sending else .inr false)
  | .sending => if !s.io then .error .outside else pure (if done then .inl .recv else .inr false)
  | .recv => pure (if s.ioPointer then .inl .receiving else .inr false)
  | .receiving => if !s.io then .error .outside else pure (.inr done)

/-- A step of `drpc_ping_server`. A thread that has to wait stays where it is. -/
def pingStep (done : Bool) : Outcome ClientLifetime :=
  match s.ping with
  | .testing => pure { s with ping := if s.clientStop then .lastLocking else .locking }
  | .locking =>
    match s.connectionMutex with
    | none => pure { s with connectionMutex := some .ping, ping := .exchange .send }
    | some _ => pure s
  | .exchange place => do
    let next ← s.exchangeStep place done
    match next with
    | .inl place => pure { s with ping := .exchange place }
    | .inr true => pure { s with ping := .unlocking }
    | .inr false => pure { s with ping := .stopping }
  | .unlocking => pure { s with connectionMutex := none, ping := .testing }
  | .stopping => pure { s with clientStop := true, ping := .closing true }
  | .closing failed =>
    if !(s.ioPointer && s.io) then .error .outside else pure { s with closes := s.closes + 1, ping := .freeing failed }
  | .freeing failed =>
    if !s.io then .error .outside else pure { s with io := false, frees := s.frees + 1, ping := .clearing failed }
  | .clearing failed => pure { s with ioPointer := false, ping := if failed then .leaving else .ended }
  | .leaving => pure { s with connectionMutex := none, ping := .ended }
  | .lastLocking =>
    match s.connectionMutex with
    | none => pure { s with connectionMutex := some .ping, ping := .lastSend }
    | some _ => pure s
  | .lastSend => pure { s with ping := if s.ioPointer then .lastSending else .lastUnlocking }
  | .lastSending => if !s.io then .error .outside else pure { s with ping := .lastUnlocking }
  | .lastUnlocking => pure { s with connectionMutex := none, ping := .closing false }
  | .ended => pure s

def setThread (i : Nat) (thread : UserThread) : ClientLifetime := { s with threads := s.threads.set i thread }

/-- A step of a function that exchanges a request for a reply. -/
def callerStep (i : Nat) (place : CallerAt) (done : Bool) : Outcome ClientLifetime :=
  match place with
  | .testing => pure (s.setThread i (.caller (if s.clientStop then .returned .clientstopped else .locking)))
  | .locking =>
    match s.connectionMutex with
    | none => pure { s.setThread i (.caller (.exchange .send)) with connectionMutex := some (.user i) }
    | some _ => pure s
  | .exchange place => do
    let next ← s.exchangeStep place done
    match next with
    | .inl place => pure (s.setThread i (.caller (.exchange place)))
    | .inr true => pure (s.setThread i (.caller (.unlocking .ok)))
    | .inr false => pure (s.setThread i (.caller (.unlocking .enetwork)))
  | .unlocking ret => pure { s.setThread i (.caller (.returned ret)) with connectionMutex := none }
  | .returned _ => pure s

/-- A step of `drpc_client_disconnect`. -/
def disconnectStep (i : Nat) (place : DisconnectAt) : Outcome ClientLifetime :=
  match place with
  | .testing => pure (s.setThread i (.disconnect (if s.clientStop then .returned else .stopping)))
  | .stopping => pure { s.setThread i (.disconnect .joining) with clientStop := true }
  | .joining => if s.ping = .ended then pure (s.setThread i (.disconnect .freeing)) else pure s
  | .freeing => pure { s.setThread i (.disconnect .returned) with client := false }
  | .returned => pure s

/-- The thread has left the functions of the client. -/
def finished : UserThread → Bool
  | .caller (.returned _) => true
  | .disconnect .returned => true
  | _ => false

/-- Every step of a thread that has not left reads the client. -/
def step : LifetimeAction → Outcome ClientLifetime
  | .call => pure { s with threads := s.threads ++ [.caller .testing] }
  | .disconnect => pure { s with threads := s.threads ++ [.disconnect .testing] }
  | .ping done => if s.ping = .ended then pure s else if s.client then s.pingStep done else .error .outside
  | .turn i done =>
    match s.threads[i]? with
    | none => pure s
    | some thread =>
      if finished thread then pure s
      else if s.client then
        match thread with
        | .caller place => s.callerStep i place done
        | .disconnect place => s.disconnectStep i place
      else .error .outside

end ClientLifetime

def lifetimeRun (s : ClientLifetime) (actions : List LifetimeAction) : Outcome ClientLifetime :=
  run ClientLifetime.step s actions

namespace PingAt

@[simp] def ioClosed : PingAt → Bool
  | .freeing _ | .clearing _ | .leaving | .ended => true
  | _ => false

@[simp] def ioFreed : PingAt → Bool
  | .clearing _ | .leaving | .ended => true
  | _ => false

@[simp] def ioCleared : PingAt → Bool
  | .leaving | .ended => true
  | _ => false

/-- The ping thread holds the mutex. -/
@[simp] def inside : PingAt → Bool
  | .exchange _ | .unlocking | .stopping | .closing true | .freeing true | .clearing true | .leaving | .lastSend
  | .lastSending | .lastUnlocking => true
  | _ => false

/-- The ping thread is behind its loop. -/
@[simp] def last : PingAt → Bool
  | .lastLocking | .lastSend | .lastSending | .lastUnlocking | .closing false | .freeing false | .clearing false => true
  | _ => false

/-- The ping thread has stopped the client. -/
@[simp] def failed : PingAt → Bool
  | .closing true | .freeing true | .clearing true | .leaving => true
  | _ => false

end PingAt

/-- The steps that are left of an exchange. -/
def ExchangeAt.left : ExchangeAt → Nat
  | .send => 4
  | .sending => 3
  | .recv => 2
  | .receiving => 1

namespace PingAt

/-- The steps that the ping thread of a stopped client has left. -/
@[simp] def left : PingAt → Nat
  | .locking => 14
  | .exchange place => 9 + place.left
  | .unlocking => 9
  | .testing => 8
  | .lastLocking => 7
  | .lastSend => 6
  | .lastSending => 5
  | .stopping => 5
  | .lastUnlocking => 4
  | .closing true => 4
  | .closing false => 3
  | .freeing true => 3
  | .freeing false => 2
  | .clearing true => 2
  | .clearing false => 1
  | .leaving => 1
  | .ended => 0

theorem left_le (place : PingAt) : place.left ≤ 14 := by
  cases place with
  | exchange place => cases place <;> decide
  | closing failed | freeing failed | clearing failed => cases failed <;> decide
  | _ => decide

end PingAt

namespace UserThread

/-- The thread holds the mutex. -/
@[simp] def inside : UserThread → Bool
  | .caller (.exchange _) | .caller (.unlocking _) => true
  | _ => false

/-- The thread is inside a function with the `io`. -/
@[simp] def holding : UserThread → Bool
  | .caller (.exchange .sending) | .caller (.exchange .receiving) => true
  | _ => false

end UserThread

namespace ClientLifetime

/-- Whoever disconnects is alone: all calls have returned, and none follows. -/
def Quiet (s : ClientLifetime) : LifetimeAction → Prop
  | .call => ∀ place, .disconnect place ∉ s.threads
  | .disconnect => ∀ thread ∈ s.threads, ∃ ret, thread = .caller (.returned ret)
  | _ => True

/-- What every step keeps: the place of the ping thread says what has become of
the `io`, the mutex excludes, and a disconnect runs alone. -/
structure Sound (s : ClientLifetime) : Prop where
  io : s.io = !s.ping.ioFreed
  pointer : s.ioPointer = !s.ping.ioCleared
  closes : s.closes = s.ping.ioClosed.toNat
  frees : s.frees = s.ping.ioFreed.toNat
  pingInside : s.ping.inside = true → s.connectionMutex = some .ping
  userInside : ∀ (i : Nat) (thread : UserThread), s.threads[i]? = some thread → thread.inside = true →
    s.connectionMutex = some (.user i)
  pingHeld : s.connectionMutex = some .ping → s.ping.inside = true
  userHeld : ∀ i : Nat, s.connectionMutex = some (.user i) →
    ∃ thread, s.threads[i]? = some thread ∧ thread.inside = true
  holding : ∀ (i : Nat) (thread : UserThread), s.threads[i]? = some thread → thread.holding = true →
    s.ping.ioFreed = false
  alone : ∀ (i : Nat) (place : DisconnectAt), s.threads[i]? = some (.disconnect place) →
    ∀ (j : Nat) (thread : UserThread), s.threads[j]? = some thread → j ≠ i → ∃ ret, thread = .caller (.returned ret)
  last : s.ping.last = true → ∃ (i : Nat) (place : DisconnectAt), s.threads[i]? = some (.disconnect place)
  stopped : s.clientStop = true → s.ping.failed = true ∨ s.ping = .ended ∨
    ∃ (i : Nat) (place : DisconnectAt), s.threads[i]? = some (.disconnect place)
  waiting : ∀ i : Nat, s.threads[i]? = some (.disconnect .joining) → s.clientStop = true
  joined : ∀ i : Nat, s.threads[i]? = some (.disconnect .freeing) → s.ping = .ended
  freed : s.client = false → s.ping = .ended ∧
    (∃ (i : Nat) (place : DisconnectAt), s.threads[i]? = some (.disconnect place)) ∧
    ∀ (i : Nat) (thread : UserThread), s.threads[i]? = some thread → finished thread = true

section Steps
variable {s s' : ClientLifetime}

theorem start_sound : start.Sound where
  io := rfl
  pointer := rfl
  closes := rfl
  frees := rfl
  pingInside := fun inside => by cases inside
  userInside := fun i thread at_i => by cases at_i
  pingHeld := fun held => by cases held
  userHeld := fun i held => by cases held
  holding := fun i thread at_i => by cases at_i
  alone := fun i place at_i => by cases at_i
  last := fun last => by cases last
  stopped := fun stopped => by cases stopped
  waiting := fun i at_i => by cases at_i
  joined := fun i at_i => by cases at_i
  freed := fun freed => by cases freed

theorem UserThread.inside_of_holding {thread : UserThread} (holding : thread.holding = true) : thread.inside = true := by
  cases thread with
  | caller place => cases place <;> first | rfl | cases holding
  | disconnect place => cases holding

/-- While the ping thread has the mutex or is behind its loop, no other thread is in an exchange. -/
theorem Sound.nobodyInside (sound : s.Sound) (busy : s.ping.inside = true ∨ s.ping.last = true) {i : Nat}
    {thread : UserThread} (at_i : s.threads[i]? = some thread) : thread.inside = false := by
  by_contra held
  have inside : thread.inside = true := Bool.not_eq_false _ ▸ held
  rcases busy with busy | last
  · have mine := sound.userInside i thread at_i inside
    rw [sound.pingInside busy] at mine
    cases mine
  · obtain ⟨j, place, at_j⟩ := sound.last last
    by_cases same : i = j
    · subst same
      rw [at_j] at at_i
      cases at_i
      cases inside
    · obtain ⟨ret, rfl⟩ := sound.alone j place at_j i thread at_i same
      cases inside

/-- A step of the ping thread: what it does follows from where it goes. -/
structure PingMove (s s' : ClientLifetime) : Prop where
  threads : s'.threads = s.threads
  client : s'.client = s.client
  io : s'.io = !s'.ping.ioFreed
  pointer : s'.ioPointer = !s'.ping.ioCleared
  closes : s'.closes = s'.ping.ioClosed.toNat
  frees : s'.frees = s'.ping.ioFreed.toNat
  inside : s'.ping.inside = true → s'.connectionMutex = some .ping
  others : ∀ i, s'.connectionMutex = some (.user i) ↔ s.connectionMutex = some (.user i)
  held : s'.connectionMutex = some .ping → s'.ping.inside = true
  freed : s'.ping.ioFreed = true → s.ping.inside = true ∨ s.ping.last = true
  last : s'.ping.last = true → s.ping.last = true ∨ s.ping = .testing ∧ s.clientStop = true
  stopped : s'.clientStop = true → s.clientStop = true ∨ s'.ping.failed = true
  failed : s.ping.failed = true → s'.ping.failed = true ∨ s'.ping = .ended
  stays : s.clientStop = true → s'.clientStop = true
  left : s.clientStop = true → (∀ i, s.connectionMutex ≠ some (.user i)) → s'.ping.left < s.ping.left

theorem PingMove.sound (move : s.PingMove s') (sound : s.Sound) (live : s.client = true) (going : s.ping ≠ .ended) :
    s'.Sound where
  io := move.io
  pointer := move.pointer
  closes := move.closes
  frees := move.frees
  pingInside := move.inside
  userInside := fun i thread at_i inside => by
    rw [move.threads] at at_i
    exact (move.others i).mpr (sound.userInside i thread at_i inside)
  pingHeld := move.held
  userHeld := fun i held => by
    rw [move.threads]
    exact sound.userHeld i ((move.others i).mp held)
  holding := fun i thread at_i holding => by
    rw [move.threads] at at_i
    by_contra freed
    have nobody := sound.nobodyInside (move.freed (Bool.not_eq_false _ ▸ freed)) at_i
    rw [UserThread.inside_of_holding holding] at nobody
    cases nobody
  alone := by
    rw [move.threads]
    exact sound.alone
  last := fun last => by
    rw [move.threads]
    rcases move.last last with before | ⟨testing, stop⟩
    · exact sound.last before
    · rcases sound.stopped stop with failed | ended | disconnected
      · rw [testing] at failed
        cases failed
      · exact absurd ended going
      · exact disconnected
  stopped := fun stop => by
    rw [move.threads]
    rcases move.stopped stop with before | failed
    · rcases sound.stopped before with failed | ended | disconnected
      · rcases move.failed failed with failed | ended
        · exact Or.inl failed
        · exact Or.inr (Or.inl ended)
      · exact absurd ended going
      · exact Or.inr (Or.inr disconnected)
    · exact Or.inl failed
  waiting := fun i at_i => by
    rw [move.threads] at at_i
    exact move.stays (sound.waiting i at_i)
  joined := fun i at_i => by
    rw [move.threads] at at_i
    exact absurd (sound.joined i at_i) going
  freed := fun freed => by
    rw [move.client, live] at freed
    cases freed

/-- An exchange goes on while the `io` is there for the function it is inside
of, and it enters one only with a pointer. -/
theorem exchangeStep_spec {place : ExchangeAt} (there : place = .sending ∨ place = .receiving → s.io = true) (done : Bool) :
    ∃ next, s.exchangeStep place done = .ok next ∧ ∀ place', next = .inl place' →
      place'.left < place.left ∧ (place' = .sending ∨ place' = .receiving → s.ioPointer = true) := by
  cases place with
  | send | recv =>
    refine ⟨_, rfl, fun place' same => ?_⟩
    cases pointer : s.ioPointer with
    | true =>
      rw [pointer] at same
      cases same
      exact ⟨by decide, fun _ => rfl⟩
    | false =>
      rw [pointer] at same
      cases same
  | sending =>
    rw [exchangeStep, there (Or.inl rfl)]
    refine ⟨_, rfl, fun place' same => ?_⟩
    cases done <;> cases same
    exact ⟨by decide, fun entered => by rcases entered with entered | entered <;> cases entered⟩
  | receiving =>
    rw [exchangeStep, there (Or.inr rfl)]
    refine ⟨_, rfl, fun place' same => ?_⟩
    cases same

theorem pingStep_spec (sound : s.Sound) (going : s.ping ≠ .ended) (done : Bool) :
    ∃ s', s.pingStep done = .ok s' ∧ s.PingMove s' := by
  obtain ⟨client, clientStop, ioPointer, io, closes, frees, mutex, ping, threads⟩ := s
  have hio := sound.io
  have pointer := sound.pointer
  have hcloses := sound.closes
  have hfrees := sound.frees
  have inside := sound.pingInside
  dsimp only at hio pointer hcloses hfrees inside going
  subst hio pointer hcloses hfrees
  have held := sound.pingHeld
  cases ping with
  | testing =>
    have other : ¬ mutex = some .ping := fun mine => by cases held mine
    exact ⟨_, rfl, by cases clientStop <;> constructor <;> simp [other]⟩
  | locking | lastLocking =>
    cases mutex with
    | none => exact ⟨_, rfl, by constructor <;> simp [ExchangeAt.left]⟩
    | some owner =>
      cases owner with
      | ping => cases held rfl
      | user i => exact ⟨_, rfl, by constructor <;> simp⟩
  | exchange place =>
    cases inside rfl
    obtain ⟨next, ran, decreases⟩ := @exchangeStep_spec ⟨client, clientStop, true, true, 0, 0, some .ping, .exchange place, threads⟩
      place (fun _ => rfl) done
    simp only [pingStep, PingAt.ioCleared, PingAt.ioFreed, PingAt.ioClosed, Bool.not_false, Bool.toNat_false, ran, ok_bind]
    rcases next with place' | success
    · have less := (decreases place' rfl).1
      exact ⟨_, rfl, by constructor <;> simp [less]⟩
    · cases success with
      | true => exact ⟨_, rfl, by constructor <;> cases place <;> simp [ExchangeAt.left]⟩
      | false => exact ⟨_, rfl, by constructor <;> cases place <;> simp [ExchangeAt.left]⟩
  | unlocking | stopping | leaving | lastSend | lastSending | lastUnlocking =>
    cases inside rfl
    exact ⟨_, rfl, by constructor <;> simp⟩
  | closing failed | freeing failed | clearing failed =>
    cases failed with
    | true =>
      cases inside rfl
      exact ⟨_, rfl, by constructor <;> simp⟩
    | false =>
      have other : ¬ mutex = some .ping := fun mine => by cases held mine
      exact ⟨_, rfl, by constructor <;> simp [other]⟩
  | ended => exact absurd rfl going

/-- A step of the `i`-th thread: what holds of the others follows from where it goes. -/
structure UserMove (s s' : ClientLifetime) (i : Nat) (thread thread' : UserThread) : Prop where
  threads : s'.threads = s.threads.set i thread'
  ping : s'.ping = s.ping
  io : s'.io = s.io
  pointer : s'.ioPointer = s.ioPointer
  closes : s'.closes = s.closes
  frees : s'.frees = s.frees
  inside : thread'.inside = true → s'.connectionMutex = some (.user i)
  others : ∀ owner ≠ .user i, s'.connectionMutex = some owner ↔ s.connectionMutex = some owner
  held : s'.connectionMutex = some (.user i) → thread'.inside = true
  holding : thread'.holding = true → thread.holding = true ∨ thread.inside = true ∧ s.ioPointer = true
  sort : (∀ place, thread' = .disconnect place → ∃ place', thread = .disconnect place') ∧
    ∀ place, thread = .disconnect place → ∃ place', thread' = .disconnect place'
  stopped : s'.clientStop = true → s.clientStop = true ∨ ∃ place, thread' = .disconnect place
  waiting : thread' = .disconnect .joining → s'.clientStop = true
  stays : s.clientStop = true → s'.clientStop = true
  joined : thread' = .disconnect .freeing → s.ping = .ended
  freed : s'.client = false → s.client = false ∨ s.ping = .ended ∧ thread' = .disconnect .returned

theorem set_lookup {i j : Nat} {thread other : UserThread} (at_j : (s.threads.set i thread)[j]? = some other) :
    (j = i ∧ other = thread) ∨ (j ≠ i ∧ s.threads[j]? = some other) := by
  rw [List.getElem?_set] at at_j
  split at at_j
  · next same =>
    split at at_j
    · cases at_j
      exact Or.inl ⟨same.symm, rfl⟩
    · cases at_j
  · next different => exact Or.inr ⟨fun same => different same.symm, at_j⟩

theorem set_self {i : Nat} {thread thread' : UserThread} (at_i : s.threads[i]? = some thread) :
    (s.threads.set i thread')[i]? = some thread' := by
  rw [List.getElem?_set_self (List.getElem?_eq_some_iff.mp at_i).choose]

theorem owner_ne {i j : Nat} (different : j ≠ i) : MutexOwner.user j ≠ .user i := fun same => by
  cases same
  exact different rfl

/-- A thread that reads a pointer inside its exchange reads one to an `io` that is there. -/
theorem Sound.notFreed (sound : s.Sound) {i : Nat} {thread : UserThread} (at_i : s.threads[i]? = some thread)
    (inside : thread.inside = true) (pointer : s.ioPointer = true) : s.ping.ioFreed = false := by
  have busy : ¬ (s.ping.inside = true ∨ s.ping.last = true) := fun busy => by
    have nobody := sound.nobodyInside busy at_i
    rw [inside] at nobody
    cases nobody
  have cleared := sound.pointer
  rw [pointer] at cleared
  revert busy cleared
  cases s.ping with
  | clearing failed => cases failed <;> simp
  | _ => simp

theorem UserMove.disconnected {i : Nat} {thread thread' : UserThread} (move : s.UserMove s' i thread thread')
    (at_i : s.threads[i]? = some thread)
    (found : ∃ (j : Nat) (place : DisconnectAt), s.threads[j]? = some (.disconnect place)) :
    ∃ (j : Nat) (place : DisconnectAt), s'.threads[j]? = some (.disconnect place) := by
  obtain ⟨j, place, at_j⟩ := found
  rw [move.threads]
  by_cases same : i = j
  · subst same
    rw [at_j] at at_i
    cases at_i
    obtain ⟨place', goes⟩ := move.sort.2 place rfl
    exact ⟨i, place', by rw [set_self at_j, goes]⟩
  · exact ⟨j, place, by rw [List.getElem?_set_ne same, at_j]⟩

theorem UserMove.sound {i : Nat} {thread thread' : UserThread} (move : s.UserMove s' i thread thread')
    (at_i : s.threads[i]? = some thread) (going : finished thread = false) (sound : s.Sound) (live : s.client = true) :
    s'.Sound where
  io := by rw [move.io, move.ping, sound.io]
  pointer := by rw [move.pointer, move.ping, sound.pointer]
  closes := by rw [move.closes, move.ping, sound.closes]
  frees := by rw [move.frees, move.ping, sound.frees]
  pingInside := fun inside => by
    rw [move.ping] at inside
    exact (move.others .ping fun same => by cases same).mpr (sound.pingInside inside)
  userInside := fun j other at_j inside => by
    rw [move.threads] at at_j
    rcases set_lookup at_j with ⟨rfl, rfl⟩ | ⟨different, at_j⟩
    · exact move.inside inside
    · exact (move.others (.user j) (owner_ne different)).mpr (sound.userInside j other at_j inside)
  pingHeld := fun held => by
    rw [move.ping]
    exact sound.pingHeld ((move.others .ping fun same => by cases same).mp held)
  userHeld := fun j held => by
    rw [move.threads]
    by_cases same : j = i
    · subst same
      exact ⟨thread', set_self at_i, move.held held⟩
    · rw [List.getElem?_set_ne fun equal => same equal.symm]
      exact sound.userHeld j ((move.others (.user j) (owner_ne same)).mp held)
  holding := fun j other at_j holding => by
    rw [move.threads] at at_j
    rw [move.ping]
    rcases set_lookup at_j with ⟨rfl, rfl⟩ | ⟨different, at_j⟩
    · rcases move.holding holding with before | ⟨inside, pointer⟩
      · exact sound.holding j thread at_i before
      · exact sound.notFreed at_i inside pointer
    · exact sound.holding j other at_j holding
  alone := fun j place at_j k other at_k different => by
    rw [move.threads] at at_j at_k
    rcases set_lookup at_j with ⟨rfl, same⟩ | ⟨-, before⟩
    · obtain ⟨place', was⟩ := move.sort.1 place same.symm
      subst was
      rcases set_lookup at_k with ⟨equal, -⟩ | ⟨-, at_k⟩
      · exact absurd equal different
      · exact sound.alone j place' at_i k other at_k different
    · rcases set_lookup at_k with ⟨equal, -⟩ | ⟨-, at_k⟩
      · subst equal
        obtain ⟨ret, rfl⟩ := sound.alone j place before k thread at_i different
        cases going
      · exact sound.alone j place before k other at_k different
  last := fun last => by
    rw [move.ping] at last
    exact move.disconnected at_i (sound.last last)
  stopped := fun stop => by
    rw [move.ping]
    rcases move.stopped stop with before | ⟨place, same⟩
    · rcases sound.stopped before with failed | ended | disconnected
      · exact Or.inl failed
      · exact Or.inr (Or.inl ended)
      · exact Or.inr (Or.inr (move.disconnected at_i disconnected))
    · exact Or.inr (Or.inr ⟨i, place, by rw [move.threads, set_self at_i, same]⟩)
  waiting := fun j at_j => by
    rw [move.threads] at at_j
    rcases set_lookup at_j with ⟨rfl, same⟩ | ⟨-, at_j⟩
    · exact move.waiting same.symm
    · exact move.stays (sound.waiting j at_j)
  joined := fun j at_j => by
    rw [move.threads] at at_j
    rw [move.ping]
    rcases set_lookup at_j with ⟨rfl, same⟩ | ⟨-, at_j⟩
    · exact move.joined same.symm
    · exact sound.joined j at_j
  freed := fun freed => by
    rcases move.freed freed with before | ⟨ended, same⟩
    · rw [live] at before
      cases before
    · refine ⟨move.ping.trans ended, ⟨i, .returned, by rw [move.threads, set_self at_i, same]⟩, fun j other at_j => ?_⟩
      obtain ⟨place, was⟩ := move.sort.1 .returned same
      subst was
      rw [move.threads] at at_j
      rcases set_lookup at_j with ⟨rfl, rfl⟩ | ⟨different, at_j⟩
      · rw [same]
        rfl
      · obtain ⟨ret, rfl⟩ := sound.alone i place at_i j other at_j different
        rfl

theorem Sound.notMine (sound : s.Sound) {i : Nat} {thread : UserThread} (at_i : s.threads[i]? = some thread)
    (outside : thread.inside = false) : ¬ s.connectionMutex = some (.user i) := fun mine => by
  obtain ⟨other, found, inside⟩ := sound.userHeld i mine
  rw [at_i] at found
  cases found
  rw [outside] at inside
  cases inside

theorem callerStep_spec (sound : s.Sound) {i : Nat} {place : CallerAt} (at_i : s.threads[i]? = some (.caller place))
    (done : Bool) : ∃ s', s.callerStep i place done = .ok s' ∧
      (s' = s ∨ ∃ thread', s.UserMove s' i (.caller place) thread') := by
  cases place with
  | testing =>
    refine ⟨_, rfl, Or.inr ⟨.caller (if s.clientStop then .returned .clientstopped else .locking), ?_⟩⟩
    have other := sound.notMine at_i rfl
    cases stop : s.clientStop <;> constructor <;> simp [setThread, stop, other]
  | locking =>
    cases free : s.connectionMutex with
    | none =>
      refine ⟨_, by rw [callerStep, free]; rfl, Or.inr ⟨.caller (.exchange .send), ?_⟩⟩
      constructor <;> simp [setThread, free]
      exact fun owner different same => different same.symm
    | some owner => exact ⟨s, by rw [callerStep, free]; rfl, Or.inl rfl⟩
  | exchange place =>
    have mine := sound.userInside i _ at_i rfl
    have there : place = .sending ∨ place = .receiving → s.io = true := fun entered => by
      have kept : s.ping.ioFreed = false := sound.holding i _ at_i (by rcases entered with rfl | rfl <;> rfl)
      rw [sound.io, kept]
      rfl
    obtain ⟨next, ran, entering⟩ := exchangeStep_spec there done
    rw [callerStep, ran, ok_bind]
    rcases next with place' | success
    · refine ⟨_, rfl, Or.inr ⟨.caller (.exchange place'), ?_⟩⟩
      have entered := (entering place' rfl).2
      constructor <;> simp [setThread, mine]
      cases place' <;> simp_all
    · cases success with
      | true =>
        refine ⟨_, rfl, Or.inr ⟨.caller (.unlocking .ok), ?_⟩⟩
        constructor <;> simp [setThread, mine]
      | false =>
        refine ⟨_, rfl, Or.inr ⟨.caller (.unlocking .enetwork), ?_⟩⟩
        constructor <;> simp [setThread, mine]
  | unlocking ret =>
    have mine := sound.userInside i _ at_i rfl
    refine ⟨_, rfl, Or.inr ⟨.caller (.returned ret), ?_⟩⟩
    constructor <;> simp [setThread, mine]
    exact fun owner different same => different same.symm
  | returned ret => exact ⟨s, rfl, Or.inl rfl⟩

theorem disconnectStep_spec (sound : s.Sound) {i : Nat} {place : DisconnectAt}
    (at_i : s.threads[i]? = some (.disconnect place)) : ∃ s', s.disconnectStep i place = .ok s' ∧
      (s' = s ∨ ∃ thread', s.UserMove s' i (.disconnect place) thread') := by
  have other := sound.notMine at_i rfl
  cases place with
  | testing =>
    refine ⟨_, rfl, Or.inr ⟨.disconnect (if s.clientStop then .returned else .stopping), ?_⟩⟩
    cases stop : s.clientStop <;> constructor <;> simp [setThread, stop, other]
    exact Or.inl
  | stopping =>
    refine ⟨_, rfl, Or.inr ⟨.disconnect .joining, ?_⟩⟩
    constructor <;> simp [setThread, other]
  | joining =>
    by_cases ended : s.ping = .ended
    · refine ⟨_, by rw [disconnectStep, if_pos ended]; rfl, Or.inr ⟨.disconnect .freeing, ?_⟩⟩
      constructor <;> simp [setThread, ended, other]
    · exact ⟨s, by rw [disconnectStep, if_neg ended]; rfl, Or.inl rfl⟩
  | freeing =>
    refine ⟨_, rfl, Or.inr ⟨.disconnect .returned, ?_⟩⟩
    have ended := sound.joined i at_i
    constructor <;> simp [setThread, ended, other]
  | returned => exact ⟨s, rfl, Or.inl rfl⟩

theorem invoke_lookup {i : Nat} {thread other : UserThread} (at_i : (s.threads ++ [thread])[i]? = some other) :
    (i < s.threads.length ∧ s.threads[i]? = some other) ∨ (i = s.threads.length ∧ other = thread) := by
  rw [List.getElem?_append] at at_i
  split at at_i
  · next within => exact Or.inl ⟨within, at_i⟩
  · next beyond =>
    obtain ⟨last, -⟩ := List.getElem?_eq_some_iff.mp at_i
    rw [List.length_singleton] at last
    have first : i - s.threads.length = 0 := by omega
    rw [first] at at_i
    cases at_i
    exact Or.inr ⟨by omega, rfl⟩

/-- A thread that has not begun holds nothing. It is alone if it is to disconnect. -/
theorem invoke_sound (sound : s.Sound) {thread : UserThread}
    (fresh : (∀ place, .disconnect place ∉ s.threads) ∧ thread = .caller .testing ∨
      (∀ other ∈ s.threads, ∃ ret, other = .caller (.returned ret)) ∧ thread = .disconnect .testing) :
    Sound { s with threads := s.threads ++ [thread] } where
  io := sound.io
  pointer := sound.pointer
  closes := sound.closes
  frees := sound.frees
  pingInside := sound.pingInside
  userInside := fun i other at_i inside => by
    rcases invoke_lookup at_i with ⟨-, old⟩ | ⟨-, rfl⟩
    · exact sound.userInside i other old inside
    · rcases fresh with ⟨-, rfl⟩ | ⟨-, rfl⟩ <;> cases inside
  pingHeld := sound.pingHeld
  userHeld := fun i held => by
    obtain ⟨other, at_i, inside⟩ := sound.userHeld i held
    exact ⟨other, by rw [List.getElem?_append_left (List.getElem?_eq_some_iff.mp at_i).choose, at_i], inside⟩
  holding := fun i other at_i holding => by
    rcases invoke_lookup at_i with ⟨-, old⟩ | ⟨-, rfl⟩
    · exact sound.holding i other old holding
    · rcases fresh with ⟨-, rfl⟩ | ⟨-, rfl⟩ <;> cases holding
  alone := fun i place at_i j other at_j different => by
    rcases fresh with ⟨nobody, rfl⟩ | ⟨left, rfl⟩
    · rcases invoke_lookup at_i with ⟨-, old⟩ | ⟨-, same⟩
      · exact absurd (List.mem_of_getElem? old) (nobody place)
      · cases same
    · rcases invoke_lookup at_j with ⟨-, old⟩ | ⟨last, rfl⟩
      · exact left other (List.mem_of_getElem? old)
      · rcases invoke_lookup at_i with ⟨-, old⟩ | ⟨equal, -⟩
        · obtain ⟨ret, same⟩ := left _ (List.mem_of_getElem? old)
          cases same
        · omega
  last := fun last => by
    obtain ⟨i, place, at_i⟩ := sound.last last
    exact ⟨i, place, by rw [List.getElem?_append_left (List.getElem?_eq_some_iff.mp at_i).choose, at_i]⟩
  stopped := fun stop => by
    rcases sound.stopped stop with failed | ended | ⟨i, place, at_i⟩
    · exact Or.inl failed
    · exact Or.inr (Or.inl ended)
    · exact Or.inr (Or.inr ⟨i, place,
        by rw [List.getElem?_append_left (List.getElem?_eq_some_iff.mp at_i).choose, at_i]⟩)
  waiting := fun i at_i => by
    rcases invoke_lookup at_i with ⟨-, old⟩ | ⟨-, same⟩
    · exact sound.waiting i old
    · rcases fresh with ⟨-, rfl⟩ | ⟨-, rfl⟩ <;> cases same
  joined := fun i at_i => by
    rcases invoke_lookup at_i with ⟨-, old⟩ | ⟨-, same⟩
    · exact sound.joined i old
    · rcases fresh with ⟨-, rfl⟩ | ⟨-, rfl⟩ <;> cases same
  freed := fun freed => by
    obtain ⟨-, ⟨i, place, at_i⟩, -⟩ := sound.freed freed
    rcases fresh with ⟨nobody, -⟩ | ⟨left, -⟩
    · exact absurd (List.mem_of_getElem? at_i) (nobody place)
    · obtain ⟨ret, same⟩ := left _ (List.mem_of_getElem? at_i)
      cases same

/-- No step uses what was freed, and every step keeps the invariant. -/
theorem step_sound (sound : s.Sound) {action : LifetimeAction} (quiet : s.Quiet action) :
    ∃ s', s.step action = .ok s' ∧ s'.Sound := by
  cases action with
  | call => exact ⟨_, rfl, invoke_sound sound (Or.inl ⟨quiet, rfl⟩)⟩
  | disconnect => exact ⟨_, rfl, invoke_sound sound (Or.inr ⟨quiet, rfl⟩)⟩
  | ping done =>
    rw [step]
    by_cases ended : s.ping = .ended
    · exact ⟨s, if_pos ended, sound⟩
    · rw [if_neg ended]
      cases live : s.client with
      | false => exact absurd (sound.freed live).1 ended
      | true =>
        obtain ⟨s', ran, move⟩ := pingStep_spec sound ended done
        exact ⟨s', ran, move.sound sound live ended⟩
  | turn i done =>
    rw [step]
    cases at_i : s.threads[i]? with
    | none => exact ⟨s, rfl, sound⟩
    | some thread =>
      dsimp only
      cases going : finished thread with
      | true => exact ⟨s, rfl, sound⟩
      | false =>
        cases live : s.client with
        | false =>
          have left := (sound.freed live).2.2 i thread at_i
          rw [going] at left
          cases left
        | true =>
          cases thread with
          | caller place =>
            obtain ⟨s', ran, stays | ⟨thread', move⟩⟩ := callerStep_spec sound at_i done
            · exact ⟨s', ran, stays ▸ sound⟩
            · exact ⟨s', ran, move.sound at_i going sound live⟩
          | disconnect place =>
            obtain ⟨s', ran, stays | ⟨thread', move⟩⟩ := disconnectStep_spec sound at_i
            · exact ⟨s', ran, stays ▸ sound⟩
            · exact ⟨s', ran, move.sound at_i going sound live⟩

/-- The ping thread of a stopped client, with nobody else in an exchange: its
next step brings it nearer to its end, whatever comes of it. -/
theorem ping_left (sound : s.Sound) (stopped : s.clientStop = true)
    (alone : ∀ i, s.connectionMutex ≠ some (.user i)) (live : s.client = true) (done : Bool) :
    ∃ s', s.step (.ping done) = .ok s' ∧ s'.Sound ∧ s'.clientStop = true ∧
      (∀ i, s'.connectionMutex ≠ some (.user i)) ∧ s'.client = true ∧ s'.threads = s.threads ∧
      s'.ping.left ≤ s.ping.left - 1 := by
  rw [step]
  by_cases ended : s.ping = .ended
  · rw [if_pos ended, ended]
    exact ⟨s, rfl, sound, stopped, alone, live, rfl, by rw [ended]; exact Nat.le_refl _⟩
  · obtain ⟨s', ran, move⟩ := pingStep_spec sound ended done
    rw [if_neg ended, if_pos live]
    refine ⟨s', ran, move.sound sound live ended, move.stays stopped, fun i mine => alone i ((move.others i).mp mine),
      move.client.trans live, move.threads, ?_⟩
    have less := move.left stopped alone
    omega

theorem pings_end {results : List Bool} (sound : s.Sound) (stopped : s.clientStop = true)
    (alone : ∀ i, s.connectionMutex ≠ some (.user i)) (live : s.client = true) (enough : s.ping.left ≤ results.length) :
    ∃ s', lifetimeRun s (results.map .ping) = .ok s' ∧ s'.Sound ∧ s'.client = true ∧ s'.threads = s.threads ∧
      s'.ping = .ended := by
  induction results generalizing s with
  | nil =>
    refine ⟨s, rfl, sound, live, rfl, ?_⟩
    have none_left := Nat.le_zero.mp enough
    revert none_left
    cases s.ping with
    | exchange place => simp
    | closing failed | freeing failed | clearing failed => cases failed <;> simp
    | _ => simp
  | cons done results ih =>
    obtain ⟨middle, first, sound', stopped', alone', live', threads, less⟩ := ping_left sound stopped alone live done
    rw [List.length_cons] at enough
    obtain ⟨last, rest, result⟩ := ih sound' stopped' alone' live' (by omega)
    rw [threads] at result
    exact ⟨last, by rw [lifetimeRun, List.map_cons, run_cons, first, ok_bind]; exact rest, result⟩

/-- While a thread disconnects, only the ping thread takes the mutex. -/
theorem Sound.nobodyHolds (sound : s.Sound) {i : Nat} {place : DisconnectAt}
    (at_i : s.threads[i]? = some (.disconnect place)) (j : Nat) : s.connectionMutex ≠ some (.user j) := fun held => by
  obtain ⟨thread, at_j, inside⟩ := sound.userHeld j held
  by_cases same : j = i
  · subst same
    rw [at_i] at at_j
    cases at_j
    cases inside
  · obtain ⟨ret, rfl⟩ := sound.alone i place at_i j thread at_j same
    cases inside

end Steps

/-- However the ping thread, the callers and one disconnect interleave, nothing
uses the client or its `io` after it was freed, if every call has returned before
the disconnect begins; the `io` is closed and freed once, by the ping thread. -/
theorem lifetime_safe {actions : List LifetimeAction} (quiet : Along step Quiet start actions) :
    ∃ s, lifetimeRun start actions = .ok s ∧ s.closes ≤ 1 ∧ s.frees ≤ 1 ∧
      (s.ping = .ended → s.closes = 1 ∧ s.frees = 1 ∧ s.ioPointer = false) ∧
      (s.client = false → s.ping = .ended ∧ ∀ thread ∈ s.threads, finished thread = true) := by
  obtain ⟨s, ran, sound⟩ := run_along (fun _ _ sound quiet => step_sound sound quiet) start_sound quiet
  have once (b : Bool) : b.toNat ≤ 1 := by cases b <;> decide
  refine ⟨s, ran, sound.closes ▸ once _, sound.frees ▸ once _, fun ended => ?_, fun freed => ?_⟩
  · rw [sound.closes, sound.frees, sound.pointer, ended]
    exact ⟨rfl, rfl, rfl⟩
  · obtain ⟨ended, -, left⟩ := sound.freed freed
    refine ⟨ended, fun thread member => ?_⟩
    obtain ⟨i, at_i⟩ := List.mem_iff_getElem?.mp member
    exact left i thread at_i

theorem quiet_of_turns {s : ClientLifetime} {actions : List LifetimeAction}
    (turns : ∀ action ∈ actions, (∃ done, action = .ping done) ∨ ∃ i done, action = .turn i done) :
    Along step Quiet s actions := by
  refine along_of_all (fun action member s => ?_) s
  rcases turns action member with ⟨done, rfl⟩ | ⟨i, done, rfl⟩ <;> trivial

/-- A client that is disconnected while the ping thread sleeps. -/
theorem lifetime_safe_disconnect : ∃ s, lifetimeRun start ([.disconnect, .turn 0 true, .turn 0 true] ++
      List.replicate 8 (.ping true) ++ [.turn 0 true, .turn 0 true]) = .ok s ∧ s.closes ≤ 1 ∧ s.frees ≤ 1 ∧
    (s.client = false → s.ping = .ended) := by
  have quiet : Along step Quiet start ([.disconnect, .turn 0 true, .turn 0 true] ++ List.replicate 8 (.ping true) ++
      [.turn 0 true, .turn 0 true]) := by
    refine ⟨fun thread member => ?_, fun s _ => quiet_of_turns (by simp)⟩
    cases member
  obtain ⟨s, ran, closes, frees, -, freed⟩ := lifetime_safe quiet
  exact ⟨s, ran, closes, frees, fun dead => (freed dead).1⟩

/-- A disconnect that waits for the ping thread is not kept waiting: whatever
comes of its sends and receives, 14 steps of the ping thread are enough, and the
disconnect frees the client. -/
theorem disconnect_ends {actions : List LifetimeAction} (quiet : Along step Quiet start actions) {s : ClientLifetime}
    (ran : lifetimeRun start actions = .ok s) {i : Nat} (joining : s.threads[i]? = some (.disconnect .joining))
    (results : List Bool) (enough : 14 ≤ results.length) :
    ∃ s', lifetimeRun s (results.map .ping ++ [.turn i true, .turn i true]) = .ok s' ∧ s'.client = false ∧
      s'.io = false ∧ s'.closes = 1 ∧ s'.frees = 1 := by
  obtain ⟨last, again, sound⟩ := run_along (fun _ _ sound quiet => step_sound sound quiet) start_sound quiet
  rw [lifetimeRun, again] at ran
  cases ran
  have live : s.client = true := by
    by_contra dead
    have left := (sound.freed (Bool.not_eq_true _ ▸ dead)).2.2 i _ joining
    cases left
  obtain ⟨s', ended, sound', live', threads, ping⟩ := pings_end sound (sound.waiting i joining)
    (sound.nobodyHolds joining) live (s.ping.left_le.trans enough)
  rw [← threads] at joining
  have joined : s'.step (.turn i true) = .ok (s'.setThread i (.disconnect .freeing)) := by
    rw [step, joining]
    dsimp only
    rw [if_neg (by decide), if_pos live', disconnectStep, if_pos ping]
    rfl
  have freed : (s'.setThread i (.disconnect .freeing)).step (.turn i true) =
      .ok { (s'.setThread i (.disconnect .freeing)).setThread i (.disconnect .returned) with client := false } := by
    have at_i : (s'.setThread i (.disconnect .freeing)).threads[i]? = some (.disconnect .freeing) := set_self joining
    rw [step, at_i]
    dsimp only
    rw [if_neg (by decide), if_pos (show (s'.setThread i (.disconnect .freeing)).client = true from live')]
    rfl
  refine ⟨{ (s'.setThread i (.disconnect .freeing)).setThread i (.disconnect .returned) with client := false }, ?_, rfl,
    ?_, ?_, ?_⟩
  · rw [lifetimeRun, run_append, show run step s (results.map .ping) = .ok s' from ended, ok_bind, run_cons, joined,
      ok_bind, run_cons, freed]
    rfl
  · exact sound'.io.trans (by rw [ping]; rfl)
  · exact sound'.closes.trans (by rw [ping]; rfl)
  · exact sound'.frees.trans (by rw [ping]; rfl)

/-- No reply comes any more when the client is disconnected. -/
theorem disconnect_ends_deaf : ∃ s s', lifetimeRun start [.ping true, .disconnect, .turn 0 true, .turn 0 true] = .ok s ∧
    lifetimeRun s ((List.replicate 14 false).map .ping ++ [.turn 0 true, .turn 0 true]) = .ok s' ∧
      s'.client = false ∧ s'.frees = 1 := by
  have quiet : Along step Quiet start [.ping true, .disconnect, .turn 0 true, .turn 0 true] := by
    refine ⟨trivial, fun s same => ?_⟩
    cases same
    refine ⟨fun thread member => ?_, fun s _ => quiet_of_turns (by simp)⟩
    cases member
  obtain ⟨s', ran, freed, -, -, frees⟩ := @disconnect_ends _ quiet _ rfl 0 rfl (List.replicate 14 false) (by simp)
  exact ⟨_, s', rfl, ran, freed, frees⟩

end ClientLifetime

end DynamicRPC
