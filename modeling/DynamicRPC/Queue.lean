import DynamicRPC.Library.Outcome

namespace DynamicRPC
variable {α : Type}

/-- `queue_push`: a null pointer is queued like any other. -/
def queuePush (que : List (Option α)) (item : Option α) : List (Option α) := que ++ [item]

/-- `queue_pop`: the first pointer, or `NULL` out of an empty queue. -/
def queuePop : List (Option α) → Option α × List (Option α)
  | [] => (none, [])
  | item :: que => (item, que)

def queueCount (que : List (Option α)) : Nat := que.length

/-- The loops that move every message from one queue to another. -/
def moveMessages : Nat → List (Option α) → List (Option α) → List (Option α) × List (Option α)
  | 0, source, target => (source, target)
  | count + 1, source, target =>
    let (item, source) := queuePop source
    moveMessages count source (queuePush target item)

theorem moveMessages_all (source target : List (Option α)) :
    moveMessages (queueCount source) source target = ([], target ++ source) := by
  unfold queueCount
  induction source generalizing target with
  | nil => simp [moveMessages]
  | cons item source ih =>
    have rest := ih (target ++ [item])
    rw [List.append_assoc, List.singleton_append] at rest
    rw [List.length_cons, moveMessages, queuePop]
    exact rest

end DynamicRPC
