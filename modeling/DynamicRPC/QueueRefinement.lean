import DynamicRPC.DequeRuns
import DynamicRPC.Queue

namespace DynamicRPC
open Outcome Paged Runs
variable {β : Type}

/-- `struct queue` without its mutex: a deque of pointers, where `none` is `NULL`. -/
structure QueueT (β : Type) where
  que : InternalDeque
  heap : Memory (DequeBlock (Option β))

/-- `queue_create`; `granted` says whether the calls of `malloc` in `impl_queue_init` succeed. -/
def queueTCreate (granted : Bool) (heap : Memory (DequeBlock (Option β))) : Option (QueueT β) :=
  (dequeInit granted 8 heap).map fun made => ⟨made.1, made.2⟩

/-- `queue_push`, which asserts that `impl_queue_push` succeeds. -/
def queueTPush (realloc malloc : Bool) (q : QueueT β) (val : Option β) : Outcome (QueueT β) := do
  let r ← dequePushBack realloc malloc q.que q.heap val
  if r.err = .ok then pure ⟨r.me, r.heap⟩ else .error .assertion

/-- `queue_pop`, which returns `NULL` where `impl_queue_pop` finds nothing. -/
def queueTPop (q : QueueT β) : Outcome (Option β × QueueT β) := do
  let r ← dequePopFront q.que q.heap
  pure (r.1.getD none, ⟨r.2, q.heap⟩)

def queueTCount (q : QueueT β) : Nat := dequeSize q.que

/-- `queue_free`: what is left of the memory. -/
def queueTFree (q : QueueT β) : Outcome (Memory (DequeBlock (Option β))) := dequeDestroy q.que q.heap

/-- A call on a queue, with what the allocations of a push do. -/
inductive QueueCall (β : Type)
  | push (realloc malloc : Bool) (val : Option β)
  | pop
  | count

inductive QueueAnswer (β : Type)
  | popped (val : Option β)
  | counted (count : Nat)
  deriving DecidableEq

/-- A call on the blocks, with the answers so far. -/
def QueueCall.run (s : QueueT β × List (QueueAnswer β)) : QueueCall β → Outcome (QueueT β × List (QueueAnswer β))
  | .push realloc malloc val => do
    let q ← queueTPush realloc malloc s.1 val
    pure (q, s.2)
  | .pop => do
    let r ← queueTPop s.1
    pure (r.2, s.2 ++ [.popped r.1])
  | .count => pure (s.1, s.2 ++ [.counted (queueTCount s.1)])

/-- The same call on a list. -/
def QueueCall.onList (s : List (Option β) × List (QueueAnswer β)) : QueueCall β → List (Option β) × List (QueueAnswer β)
  | .push _ _ val => (queuePush s.1 val, s.2)
  | .pop => ((queuePop s.1).2, s.2 ++ [.popped (queuePop s.1).1])
  | .count => (s.1, s.2 ++ [.counted (queueCount s.1)])

def QueueCall.Granted : QueueCall β → Prop
  | .push realloc malloc _ => realloc ∧ malloc
  | _ => True

def QueueCall.IsPush : QueueCall β → Prop
  | .push .. => True
  | _ => False

/-- The queue of blocks holds the list, and has answered what the list has. -/
structure QueueRefines (B : Nat) (base : Memory (DequeBlock (Option β))) (s : QueueT β × List (QueueAnswer β))
    (l : List (Option β) × List (QueueAnswer β)) : Prop where
  rep : DequeRep B base s.1.que s.1.heap l.1
  answers : s.2 = l.2

section Step
variable {B peak : Nat} {base : Memory (DequeBlock (Option β))} {s s' : QueueT β × List (QueueAnswer β)}
  {l : List (Option β) × List (QueueAnswer β)}

/-- A call that returns answers as the list does. -/
theorem QueueRefines.step (refines : QueueRefines B base s l) {call : QueueCall β} (run : call.run s = .ok s') :
    QueueRefines B base s' (call.onList l) := by
  cases call with
  | push realloc malloc val =>
    obtain ⟨q, push, same⟩ := bind_eq_ok.mp run
    cases same
    obtain ⟨r, here, result, -⟩ := refines.rep.pushBack realloc malloc val
    rw [queueTPush, here, ok_bind] at push
    split at push
    · next ok =>
      cases push
      rcases result with ⟨-, held⟩ | ⟨refused, -⟩
      · exact ⟨held, refines.answers⟩
      · exact absurd ok refused
    · cases push
  | pop =>
    obtain ⟨r, pop, same⟩ := bind_eq_ok.mp run
    cases same
    obtain ⟨me', here, held, -⟩ := refines.rep.popFront
    rw [queueTPop, here, ok_bind] at pop
    cases pop
    have answers := refines.answers
    obtain ⟨items, answered⟩ := l
    cases items with
    | nil => exact ⟨held, by rw [answers]; rfl⟩
    | cons item items => exact ⟨held, by rw [answers]; rfl⟩
  | count =>
    cases run
    refine ⟨refines.rep, ?_⟩
    have size := refines.rep.size
    simp only [QueueCall.onList, refines.answers, queueTCount, queueCount, size]

/-- A call whose allocations succeed returns, as long as the indices suffice. -/
theorem QueueRefines.returns (refines : QueueRefines B base s l) (frugal : DequeFrugal peak B s.1.que)
    (few : l.1.length ≤ peak) (room : peak + 11 * B < 2 ^ 64) {call : QueueCall β} (granted : call.Granted) :
    ∃ s', call.run s = .ok s' ∧ DequeFrugal peak B s'.1.que := by
  cases call with
  | push realloc malloc val =>
    obtain ⟨r, here, -, pushed⟩ := refines.rep.pushBack realloc malloc val
    have ok : r.err = .ok := by
      by_contra refused
      rcases pushed.refusal refused with ⟨-, failed⟩ | erange
      · exact failed granted
      · exact Nat.not_le_of_lt room (crowded refines.rep.shape.positive (pushed.full erange frugal))
    refine ⟨(⟨r.me, r.heap⟩, s.2), ?_, refines.rep.frugal_pushed frugal few pushed⟩
    simp only [QueueCall.run, queueTPush, here, ok_bind, if_pos ok, pure_eq_ok]
  | pop =>
    obtain ⟨me', here, -, blocks, entries⟩ := refines.rep.popFront
    refine ⟨(⟨me', s.1.heap⟩, s.2 ++ [.popped (l.1.head?.getD none)]), ?_, frugal.same blocks entries⟩
    simp only [QueueCall.run, queueTPop, here, ok_bind, pure_eq_ok]
  | count => exact ⟨_, rfl, frugal⟩

end Step

section Create
variable {base : Memory (DequeBlock (Option β))} {q : QueueT β} (made : queueTCreate true base = some q)
include made

/-- In every run of calls on a new queue the calls answer what they answer on a
list, and freeing the queue leaves the memory as it was; a push that does not
get its memory ends the program. -/
theorem queue_run {calls : List (QueueCall β)} {s : QueueT β × List (QueueAnswer β)}
    (runs : run QueueCall.run (q, []) calls = .ok s) :
    s.2 = (calls.foldl QueueCall.onList ([], [])).2 ∧
      queueTCount s.1 = queueCount (calls.foldl QueueCall.onList ([], [])).1 ∧
      ∃ last, queueTFree s.1 = .ok last ∧ last.cells = base.cells := by
  obtain ⟨first, init, rfl⟩ := Option.map_eq_some_iff.mp made
  have refines := run_history
    (fun past s => QueueRefines first.1.blockSize base s (past.foldl QueueCall.onList ([], [])))
    (fun past s call s' held (_ : True) here => by
      rw [List.foldl_append]
      exact held.step here)
    ⟨dequeInit_rep init, rfl⟩ (along_of_all (fun _ _ _ => trivial) _) runs
  exact ⟨refines.answers, refines.rep.size, refines.rep.destroy⟩

/-- Where every allocation succeeds and no push finds 2^60 pointers in the queue, every run returns. -/
theorem queue_returns {calls : List (QueueCall β)}
    (served : Along QueueCall.run (fun s call => call.Granted ∧ (call.IsPush → queueTCount s.1 < 2 ^ 60)) (q, []) calls) :
    Returns (run QueueCall.run (q, []) calls) := by
  obtain ⟨first, init, rfl⟩ := Option.map_eq_some_iff.mp made
  have block : first.1.blockSize = 512 := by
    rw [(dequeInit_inv init).1]
    rfl
  have start : QueueRefines first.1.blockSize base (⟨first.1, first.2⟩, []) ([], []) := ⟨dequeInit_rep init, rfl⟩
  obtain ⟨s, runs, -⟩ := @run_along _ _ QueueCall.run _
    (fun s => ∃ l, QueueRefines first.1.blockSize base s l ∧ DequeFrugal (2 ^ 60) first.1.blockSize s.1.que ∧
      l.1.length ≤ 2 ^ 60)
    (fun s call good safe => by
      obtain ⟨l, refines, frugal, few⟩ := good
      obtain ⟨s', here, frugal'⟩ := refines.returns frugal few (by rw [block]; decide) safe.1
      refine ⟨s', here, call.onList l, refines.step here, frugal', ?_⟩
      cases call with
      | push realloc malloc val =>
        have below := safe.2 trivial
        rw [queueTCount, refines.rep.size] at below
        simp only [QueueCall.onList, queuePush, List.length_append, List.length_singleton]
        omega
      | pop =>
        have shorter : (queuePop l.1).2.length ≤ l.1.length := by
          cases l.1 <;> simp [queuePop]
        exact Nat.le_trans shorter few
      | count => exact few)
    _ _ ⟨([], []), start, dequeInit_frugal init _, Nat.zero_le _⟩ served
  exact ⟨s, runs⟩

end Create

set_option maxRecDepth 4000 in
/-- A push and a pop of a new queue. -/
theorem queue_run_pushPop :
    ∃ s : QueueT Nat × List (QueueAnswer Nat), run QueueCall.run (⟨.initial 8 512 1, (mallocBlock Memory.empty 512).2⟩, [])
        [.push true true (some 5), .pop] = .ok s ∧
      s.2 = ([.push true true (some 5), .pop].foldl QueueCall.onList ([], [])).2 ∧
      queueTCount s.1 = queueCount ([.push true true (some 5), .pop].foldl QueueCall.onList ([], [])).1 ∧
      ∃ last, queueTFree s.1 = .ok last ∧ last.cells = (Memory.empty : Memory (DequeBlock (Option Nat))).cells :=
  ⟨_, rfl, @queue_run Nat Memory.empty _ rfl _ _ rfl⟩

theorem queue_returns_push :
    Returns (run QueueCall.run ((⟨.initial 8 512 1, (mallocBlock Memory.empty 512).2⟩ : QueueT Nat), [])
      [.push true true (some 5)]) :=
  @queue_returns Nat Memory.empty _ rfl _ ⟨⟨⟨rfl, rfl⟩, fun _ => by decide⟩, fun _ _ => trivial⟩

end DynamicRPC
