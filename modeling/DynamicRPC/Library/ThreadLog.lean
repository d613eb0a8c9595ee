import Mathlib.Data.List.Basic

/-! A log that numbered threads write to, where the state of each thread says
what it has entered. -/

namespace ThreadLog
variable {τ β : Type}

/-- What a thread has entered. -/
def entries (log : List (Nat × β)) (i : Nat) : List β :=
  log.filterMap fun entry => if entry.1 = i then some entry.2 else none

/-- The log holds the entries that the states of the threads speak of, and no others. -/
def Agrees (entered : τ → List β) (threads : List τ) (log : List (Nat × β)) : Prop :=
  ∀ i, entries log i = (threads[i]?.map entered).getD []

theorem entries_append (log : List (Nat × β)) (i j : Nat) (value : β) :
    entries (log ++ [(i, value)]) j = entries log j ++ if i = j then [value] else [] := by
  by_cases same : i = j
  · simp [entries, same]
  · simp [entries, same]

variable {entered : τ → List β} {threads : List τ} {log : List (Nat × β)} {i : Nat} {old new : τ} {value : β}

theorem Agrees.start : Agrees entered [] [] := fun _ => rfl

/-- A new thread has entered nothing. -/
theorem Agrees.spawn (agrees : Agrees entered threads log) (fresh : entered new = []) :
    Agrees entered (threads ++ [new]) log := by
  intro j
  rw [agrees j]
  obtain before | rfl | after := Nat.lt_trichotomy j threads.length
  · rw [List.getElem?_append_left before]
  · simp [fresh]
  · have long : (threads ++ [new]).length ≤ j := by
      rw [List.length_append, List.length_singleton]
      omega
    rw [List.getElem?_eq_none (Nat.le_of_lt after), List.getElem?_eq_none long]

theorem Agrees.silent (agrees : Agrees entered threads log) (at_i : threads[i]? = some old)
    (same : entered new = entered old) : Agrees entered (threads.set i new) log := by
  intro j
  obtain ⟨bound, value⟩ := List.getElem?_eq_some_iff.mp at_i
  rw [agrees j]
  by_cases here : i = j
  · subst here
    simp [bound, value, same]
  · rw [List.getElem?_set_ne here]

theorem Agrees.enter (agrees : Agrees entered threads log) (at_i : threads[i]? = some old)
    (more : entered new = entered old ++ [value]) : Agrees entered (threads.set i new) (log ++ [(i, value)]) := by
  intro j
  obtain ⟨bound, state⟩ := List.getElem?_eq_some_iff.mp at_i
  rw [entries_append, agrees j]
  by_cases here : i = j
  · subst here
    simp [bound, state, more]
  · rw [List.getElem?_set_ne here, if_neg here, List.append_nil]

/-- What a thread has entered stands in the log as often as its state says. -/
theorem Agrees.entries_eq (agrees : Agrees entered threads log) (at_i : threads[i]? = some old) :
    entries log i = entered old := by
  rw [agrees i, at_i]
  rfl

end ThreadLog
