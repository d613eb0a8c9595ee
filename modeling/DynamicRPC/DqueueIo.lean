import DynamicRPC.HandleClient
import DynamicRPC.Library.Assoc
import DynamicRPC.Library.ThreadLog
import DynamicRPC.QueueDrain
import DynamicRPC.UnsupportedType

namespace DynamicRPC
open Outcome ThreadLog

/-- Where a thread stands in `drpc_dqueue_send_message`: at the tests of `io_data`
and `send`, at the push, at `sem_post`, or behind it with what it returned. -/
inductive SenderAt
  | testing
  | pushing
  | posting
  | returned (ret : Int)
  deriving DecidableEq

structure Sender where
  message : DStruct Element
  place : SenderAt

/-- Where a thread stands in `drpc_dqueue_recv_message`. The message is what it
has stored for its caller; without one it returns 1. -/
inductive Receiver
  | locking
  | waiting
  | popping
  | unlocking (output : Option (DStruct Element))
  | returned (output : Option (DStruct Element))

/-- One endpoint, which nobody closes: its `recv` queue, its `recv_wait` and the thread that
holds its `wait_lock`, with all threads that send to it or receive from it. `pushed` and
`received` are what they pushed and popped, in order. -/
structure DqueueIo where
  recv : DQueue
  recvWait : Nat
  waitLock : Option Nat
  senders : List Sender
  receivers : List Receiver
  pushed : List (Nat × DStruct Element)
  received : List (Nat × DStruct Element)

/-- A thread calls one of the two functions, or goes on. `connected` says that the sender's
own end is open; `woken` that `sem_timedwait` is not given up. -/
inductive DqueueAction
  | send (message : DStruct Element)
  | receive
  | sender (i : Nat) (connected : Bool)
  | receiver (i : Nat) (woken : Bool)

namespace DqueueIo

def start : DqueueIo := ⟨[], 0, none, [], [], [], []⟩

variable (s : DqueueIo)

def setSender (i : Nat) (sender : Sender) (place : SenderAt) : List Sender :=
  s.senders.set i { sender with place := place }

/-- One step of `drpc_dqueue_send_message`. -/
def senderStep (i : Nat) (sender : Sender) (connected : Bool) : Outcome DqueueIo :=
  match sender.place with
  | .testing => pure { s with senders := s.setSender i sender (if connected then .pushing else .returned 1) }
  | .pushing => do
    let recv ← dQueuePush s.recv (.element (.dstruct sender.message))
    pure { s with
      recv := recv
      pushed := s.pushed ++ [(i, sender.message)]
      senders := s.setSender i sender .posting }
  | .posting => do
    let recvWait ← semPost s.recvWait
    pure { s with recvWait := recvWait, senders := s.setSender i sender (.returned 0) }
  | .returned _ => pure s

/-- One step of `drpc_dqueue_recv_message`. A thread that has to wait stays where it is. -/
def receiverStep (i : Nat) (place : Receiver) (woken : Bool) : Outcome DqueueIo :=
  match place with
  | .locking =>
    match s.waitLock with
    | none => pure { s with waitLock := some i, receivers := s.receivers.set i .waiting }
    | some _ => pure s
  | .waiting =>
    if !woken then pure { s with receivers := s.receivers.set i (.unlocking none) }
    else if s.recvWait = 0 then pure s
    else pure { s with recvWait := s.recvWait - 1, receivers := s.receivers.set i .popping }
  | .popping => do
    let (recv, result) ← dQueuePop s.recv (promoteChar DrpcTypes.dStruct.toChar)
    match result with
    | none => pure { s with recv := recv, receivers := s.receivers.set i (.unlocking none) }
    | some (.pointer (.dstruct message)) =>
      pure { s with
        recv := recv
        received := s.received ++ [(i, message)]
        receivers := s.receivers.set i (.unlocking (some message)) }
    | some _ => .error .outside
  | .unlocking output => pure { s with waitLock := none, receivers := s.receivers.set i (.returned output) }
  | .returned _ => pure s

def step : DqueueAction → Outcome DqueueIo
  | .send message => pure { s with senders := s.senders ++ [⟨message, .testing⟩] }
  | .receive => pure { s with receivers := s.receivers ++ [.locking] }
  | .sender i connected =>
    match s.senders[i]? with
    | none => pure s
    | some sender => s.senderStep i sender connected
  | .receiver i woken =>
    match s.receivers[i]? with
    | none => pure s
    | some place => s.receiverStep i place woken

end DqueueIo

def dqueueRun (actions : List DqueueAction) : Outcome DqueueIo := Runs.run DqueueIo.step .start actions

/-- The sender has pushed a message that it has not posted. -/
def Sender.unposted (sender : Sender) : Bool := sender.place = .posting

/-- The receiver has taken a permit for a message that it has not popped. -/
def Receiver.unpopped : Receiver → Bool
  | .popping => true
  | _ => false

/-- What a sender has pushed. -/
def Sender.pushed (sender : Sender) : List (DStruct Element) :=
  if sender.place = .posting ∨ sender.place = .returned 0 then [sender.message] else []

/-- What a receiver has taken. -/
def Receiver.taken : Receiver → List (DStruct Element)
  | .unlocking output | .returned output => output.toList
  | _ => []

/-- The receiver holds `wait_lock`. -/
def Receiver.inside : Receiver → Bool
  | .waiting | .popping | .unlocking _ => true
  | _ => false

/-- The messages that wait in the queue. -/
def structQueue (waiting : List (DStruct Element)) : DQueue := waiting.map fun message => some (.dstruct message)

/-- What holds of an endpoint in every state: each permit stands for a message in the queue that
no receiver has claimed and whose sender is through with its post. -/
structure DqueueIo.Sound (s : DqueueIo) : Prop where
  fifo : ∃ waiting, s.recv = structQueue waiting ∧ s.pushed.map Prod.snd = s.received.map Prod.snd ++ waiting
  permits : s.recvWait + s.receivers.countP Receiver.unpopped + s.senders.countP Sender.unposted = s.recv.length
  pushes : Agrees Sender.pushed s.senders s.pushed
  takes : Agrees Receiver.taken s.receivers s.received
  locked : ∀ i place, s.receivers[i]? = some place → place.inside = true → s.waitLock = some i

theorem dQueuePop_structQueue (message : DStruct Element) (rest : List (DStruct Element)) :
    dQueuePop (structQueue (message :: rest)) (promoteChar DrpcTypes.dStruct.toChar) =
      .ok (structQueue rest, some (.pointer (.dstruct message))) := rfl

/-- When one receiver moves, the lock is with whoever is inside. -/
theorem locked_set {receivers : List Receiver} {i : Nat} {new : Receiver} {waitLock : Option Nat}
    (holder : new.inside = true → waitLock = some i)
    (others : ∀ j place, j ≠ i → receivers[j]? = some place → place.inside = true → waitLock = some j) (j : Nat)
    (place : Receiver) (at_j : (receivers.set i new)[j]? = some place) (inside : place.inside = true) :
    waitLock = some j := by
  by_cases here : i = j
  · subst here
    have bound := (List.getElem?_eq_some_iff.mp at_j).choose
    rw [List.length_set] at bound
    have same : some new = some place := (List.getElem?_set_self bound).symm.trans at_j
    rw [← Option.some.inj same] at inside
    exact holder inside
  · exact others j place (Ne.symm here) ((List.getElem?_set_ne here).symm.trans at_j) inside

namespace DqueueIo.Sound
variable {s s' : DqueueIo} {i : Nat}

theorem start : DqueueIo.start.Sound where
  fifo := ⟨[], rfl, rfl⟩
  permits := rfl
  pushes := .start
  takes := .start
  locked := fun i place at_i => by cases at_i

/-- A step that changes nothing but the place of a sender, to one with the same history. -/
theorem moveSender {sender : Sender} {place : SenderAt} {recvWait : Nat} (sound : s.Sound)
    (at_i : s.senders[i]? = some sender) (history : { sender with place := place }.pushed = sender.pushed)
    (permits : recvWait + ({ sender with place := place }.unposted).toNat = s.recvWait + sender.unposted.toNat) :
    { s with recvWait := recvWait, senders := s.setSender i sender place }.Sound := by
  have count := Assoc.countP_set Sender.unposted at_i { sender with place := place }
  have balance := sound.permits
  refine ⟨sound.fifo, ?_, sound.pushes.silent at_i history, sound.takes, sound.locked⟩
  change recvWait + s.receivers.countP Receiver.unpopped + (s.setSender i sender place).countP Sender.unposted = s.recv.length
  rw [setSender]
  omega

theorem senderStep {sender : Sender} {connected : Bool} (sound : s.Sound) (at_i : s.senders[i]? = some sender)
    (stepped : s.senderStep i sender connected = .ok s') : s'.Sound := by
  obtain ⟨message, place⟩ := sender
  cases place with
  | testing =>
    cases connected with
    | true =>
      cases stepped
      exact sound.moveSender at_i rfl rfl
    | false =>
      cases stepped
      exact sound.moveSender at_i rfl rfl
  | pushing =>
    cases stepped
    obtain ⟨waiting, queue, order⟩ := sound.fifo
    have count := Assoc.countP_set Sender.unposted at_i ⟨message, .posting⟩
    have balance := sound.permits
    have before : (Sender.unposted ⟨message, .pushing⟩).toNat = 0 := rfl
    have after : (Sender.unposted ⟨message, .posting⟩).toNat = 1 := rfl
    refine ⟨⟨waiting ++ [message], ?_, ?_⟩, ?_, sound.pushes.enter at_i rfl, sound.takes, sound.locked⟩
    · rw [queuePush, queue, structQueue, structQueue, List.map_append]
      rfl
    · rw [List.map_append, order, List.append_assoc]
      rfl
    · change s.recvWait + s.receivers.countP Receiver.unpopped +
        (s.senders.set i ⟨message, .posting⟩).countP Sender.unposted = (queuePush s.recv _).length
      rw [queuePush, List.length_append, List.length_singleton]
      omega
  | posting =>
    obtain ⟨recvWait, posted, same⟩ := bind_eq_ok.mp stepped
    cases same
    rw [semPost_inv posted]
    exact sound.moveSender at_i rfl rfl
  | returned ret =>
    cases stepped
    exact sound

/-- A permit that a receiver has taken stands for a message in the queue. -/
theorem exists_waiting (sound : s.Sound) (at_i : s.receivers[i]? = some .popping) :
    ∃ message rest, s.recv = structQueue (message :: rest) ∧
      s.pushed.map Prod.snd = s.received.map Prod.snd ++ message :: rest := by
  obtain ⟨waiting, queue, order⟩ := sound.fifo
  have claimed : 0 < s.receivers.countP Receiver.unpopped :=
    List.countP_pos_iff.mpr ⟨_, List.mem_of_getElem? at_i, rfl⟩
  have balance := sound.permits
  cases waiting with
  | nil =>
    have empty : s.recv.length = 0 := by rw [queue]; rfl
    omega
  | cons message rest => exact ⟨message, rest, queue, order⟩

/-- A receiver that goes on under the lock, or outside it, with the same history. -/
theorem moveReceiver {old new : Receiver} {recvWait : Nat} {waitLock : Option Nat} (sound : s.Sound)
    (at_i : s.receivers[i]? = some old) (history : new.taken = old.taken)
    (permits : recvWait + new.unpopped.toNat = s.recvWait + old.unpopped.toNat)
    (holder : new.inside = true → waitLock = some i)
    (others : ∀ j place, j ≠ i → s.receivers[j]? = some place → place.inside = true → waitLock = some j) :
    { s with recvWait := recvWait, waitLock := waitLock, receivers := s.receivers.set i new }.Sound := by
  have count := Assoc.countP_set Receiver.unpopped at_i new
  have balance := sound.permits
  refine ⟨sound.fifo, ?_, sound.pushes, sound.takes.silent at_i history, locked_set holder others⟩
  change recvWait + (s.receivers.set i new).countP Receiver.unpopped + s.senders.countP Sender.unposted = s.recv.length
  omega

theorem receiverStep {place : Receiver} {woken : Bool} (sound : s.Sound) (at_i : s.receivers[i]? = some place)
    (stepped : s.receiverStep i place woken = .ok s') : s'.Sound := by
  -- who is inside stays the holder of the lock
  have kept : ∀ j other, j ≠ i → s.receivers[j]? = some other → other.inside = true → s.waitLock = some j :=
    fun j other _ at_j inside => sound.locked j other at_j inside
  cases place with
  | locking =>
    simp only [DqueueIo.receiverStep] at stepped
    split at stepped
    · next free =>
      cases stepped
      refine sound.moveReceiver at_i rfl rfl (fun _ => rfl) fun j other _ at_j inside => ?_
      have held := sound.locked j other at_j inside
      rw [free] at held
      cases held
    · cases stepped
      exact sound
  | waiting =>
    have mine := sound.locked i _ at_i rfl
    simp only [DqueueIo.receiverStep] at stepped
    split at stepped
    · cases stepped
      exact sound.moveReceiver at_i rfl rfl (fun _ => mine) kept
    · split at stepped
      · cases stepped
        exact sound
      · next positive =>
        cases stepped
        refine sound.moveReceiver at_i rfl ?_ (fun _ => mine) kept
        change s.recvWait - 1 + 1 = s.recvWait + 0
        omega
  | popping =>
    obtain ⟨message, rest, queue, order⟩ := sound.exists_waiting at_i
    have mine := sound.locked i _ at_i rfl
    have count := Assoc.countP_set Receiver.unpopped at_i (.unlocking (some message))
    have before : Receiver.popping.unpopped.toNat = 1 := rfl
    have after : (Receiver.unlocking (some message)).unpopped.toNat = 0 := rfl
    have balance := sound.permits
    rw [DqueueIo.receiverStep, queue, dQueuePop_structQueue] at stepped
    cases stepped
    refine ⟨⟨rest, rfl, ?_⟩, ?_, sound.pushes, sound.takes.enter at_i rfl, locked_set (fun _ => mine) kept⟩
    · rw [List.map_append, List.append_assoc]
      exact order
    · have shorter : s.recv.length = (structQueue rest).length + 1 := by rw [queue]; rfl
      change s.recvWait + (s.receivers.set i (.unlocking (some message))).countP Receiver.unpopped +
        s.senders.countP Sender.unposted = (structQueue rest).length
      omega
  | unlocking output =>
    have mine := sound.locked i _ at_i rfl
    cases stepped
    refine sound.moveReceiver at_i rfl rfl nofun fun j other different at_j inside => ?_
    have held := sound.locked j other at_j inside
    rw [mine] at held
    exact absurd (Option.some.inj held).symm different
  | returned output =>
    cases stepped
    exact sound

theorem step {action : DqueueAction} (sound : s.Sound) (stepped : s.step action = .ok s') : s'.Sound := by
  cases action with
  | send message =>
    cases stepped
    refine ⟨sound.fifo, ?_, sound.pushes.spawn rfl, sound.takes, sound.locked⟩
    have balance := sound.permits
    change s.recvWait + s.receivers.countP Receiver.unpopped + (s.senders ++ [_]).countP Sender.unposted = s.recv.length
    rw [List.countP_append]
    exact balance
  | receive =>
    cases stepped
    refine ⟨sound.fifo, ?_, sound.pushes, sound.takes.spawn rfl, fun j place at_j inside => ?_⟩
    · have balance := sound.permits
      change s.recvWait + (s.receivers ++ [_]).countP Receiver.unpopped + s.senders.countP Sender.unposted = s.recv.length
      rw [List.countP_append]
      exact balance
    · rw [List.getElem?_append] at at_j
      split at at_j
      · exact sound.locked j place at_j inside
      · have last := List.mem_of_getElem? at_j
        rw [List.mem_singleton.mp last] at inside
        cases inside
  | sender i connected =>
    simp only [DqueueIo.step] at stepped
    split at stepped
    · cases stepped
      exact sound
    · next sender at_i => exact sound.senderStep at_i stepped
  | receiver i woken =>
    simp only [DqueueIo.step] at stepped
    split at stepped
    · cases stepped
      exact sound
    · next place at_i => exact sound.receiverStep at_i stepped

end DqueueIo.Sound

/-- In every run of senders and receivers on an endpoint that nobody closes: the messages popped
are the first of those pushed, in their order, and the others wait in the queue; whoever took a
permit finds a message; a receiver took the one message that it returns, or none when it returns
1; and a sender that returns 0 has pushed its message once. -/
theorem dqueueIo_reliable (actions : List DqueueAction) (s : DqueueIo) (ran : dqueueRun actions = .ok s) :
    (∃ waiting, s.recv = structQueue waiting ∧ s.pushed.map Prod.snd = s.received.map Prod.snd ++ waiting) ∧
    (∀ i : Nat, s.receivers[i]? = some Receiver.popping → ∃ message rest,
      dQueuePop s.recv (promoteChar DrpcTypes.dStruct.toChar) = .ok (rest, some (.pointer (.dstruct message)))) ∧
    (∀ (i : Nat) output, s.receivers[i]? = some (Receiver.returned output) → entries s.received i = output.toList) ∧
    (∀ i sender ret, s.senders[i]? = some sender → sender.place = .returned ret →
      entries s.pushed i = if ret = 0 then [sender.message] else []) := by
  have sound := Runs.run_invariant DqueueIo.Sound (fun _ _ _ sound => sound.step) .start ran
  refine ⟨sound.fifo, fun i at_i => ?_, fun i output at_i => ?_, fun i sender ret at_i place => ?_⟩
  · obtain ⟨message, rest, queue, -⟩ := sound.exists_waiting at_i
    refine ⟨message, structQueue rest, ?_⟩
    rw [queue, dQueuePop_structQueue]
  · exact sound.takes.entries_eq at_i
  · have history : sender.pushed = if ret = 0 then [sender.message] else [] := by simp [Sender.pushed, place]
    rw [← history]
    exact sound.pushes.entries_eq at_i

/-- A message goes through while a second receiver gives up its wait. -/
theorem dqueueIo_reliable_timeout : ∃ actions s, dqueueRun actions = .ok s ∧
    s.receivers = [.returned none, .returned (some newDStruct)] ∧
    (∃ waiting, s.recv = structQueue waiting ∧ s.pushed.map Prod.snd = s.received.map Prod.snd ++ waiting) ∧
    (∀ (i : Nat) output, s.receivers[i]? = some (Receiver.returned output) → entries s.received i = output.toList) :=
  let actions : List DqueueAction :=
    [.receive, .receiver 0 true, .receive, .receiver 1 true, .receiver 0 false, .receiver 0 true, .send newDStruct,
      .sender 0 true, .sender 0 true, .receiver 1 true, .receiver 1 true, .sender 0 true, .receiver 1 true,
      .receiver 1 true, .receiver 1 true]
  let s : DqueueIo :=
    { recv := [], recvWait := 0, waitLock := none, senders := [⟨newDStruct, .returned 0⟩],
      receivers := [.returned none, .returned (some newDStruct)], pushed := [(0, newDStruct)],
      received := [(1, newDStruct)] }
  have reliable := dqueueIo_reliable actions s rfl
  ⟨actions, s, rfl, rfl, reliable.1, reliable.2.2.1⟩

end DynamicRPC
