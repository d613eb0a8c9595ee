import Mathlib.Data.List.Basic

/-- What an execution of C code can run into instead of a result: a failed
assertion, an access outside every live object, a read of memory that nothing
has written, or a loop that never leaves. -/
inductive Fault
  | assertion
  | outside
  | uninitialised
  | diverges
  deriving DecidableEq, Repr

/-- A C function that either returns or meets a fault. -/
abbrev Outcome (α : Type) := Except Fault α

namespace Outcome
variable {α β γ : Type}

@[simp] theorem pure_eq_ok (a : α) : (pure a : Outcome α) = .ok a := rfl

@[simp] theorem ok_bind (a : α) (f : α → Outcome β) : ((.ok a : Outcome α) >>= f) = f a := rfl

@[simp] theorem error_bind (fault : Fault) (f : α → Outcome β) :
    ((.error fault : Outcome α) >>= f) = .error fault := rfl

theorem bind_eq_ok {x : Outcome α} {f : α → Outcome β} {b : β} :
    x >>= f = .ok b ↔ ∃ a, x = .ok a ∧ f a = .ok b := by
  cases x with
  | ok a => simp
  | error fault => simp

theorem map_eq_ok {x : Outcome α} {f : α → β} {b : β} : x.map f = .ok b ↔ ∃ a, x = .ok a ∧ f a = b := by
  cases x with
  | ok a => simp [Except.map]
  | error fault => simp [Except.map]

/-- The C function returns. -/
def Returns (x : Outcome α) : Prop := ∃ a, x = .ok a

@[simp] theorem returns_ok (a : α) : Returns (.ok a : Outcome α) := ⟨a, rfl⟩

@[simp] theorem not_returns_error (fault : Fault) : ¬ Returns (.error fault : Outcome α) := by
  rintro ⟨a, same⟩
  cases same

theorem returns_bind {x : Outcome α} {f : α → Outcome β} :
    Returns (x >>= f) ↔ ∃ a, x = .ok a ∧ Returns (f a) := by
  cases x with
  | ok a => simp
  | error fault => simp

/-- A loop over a list whose body keeps `P` and returns on every entry
returns, with `P` of what has been processed. -/
theorem foldlM_invariant {f : β → α → Outcome β} (P : List α → β → Prop) (past : List α) {rest : List α}
    (step : ∀ before next after b, past ++ rest = before ++ next :: after → P before b →
      ∃ b', f b next = .ok b' ∧ P (before ++ [next]) b')
    {b : β} (start : P past b) : ∃ b', rest.foldlM f b = .ok b' ∧ P (past ++ rest) b' := by
  induction rest generalizing past b with
  | nil => exact ⟨b, rfl, by simpa using start⟩
  | cons next rest ih =>
    obtain ⟨middle, run, kept⟩ := step past next rest b rfl start
    obtain ⟨last, rest_run, held⟩ := ih (past ++ [next]) (by simpa using step) kept
    refine ⟨last, ?_, by simpa using held⟩
    rw [List.foldlM_cons, run, ok_bind, rest_run]

theorem foldlM_congr {f g : β → α → Outcome β} {list : List α} (same : ∀ a ∈ list, ∀ b, f b a = g b a) (b : β) :
    list.foldlM f b = list.foldlM g b := by
  induction list generalizing b with
  | nil => rfl
  | cons a list ih =>
    rw [List.foldlM_cons, List.foldlM_cons, same a (List.mem_cons_self ..)]
    exact bind_congr (ih fun a member => same a (List.mem_cons_of_mem _ member))

theorem mapM_ok {f : α → Outcome β} {g : α → β} {list : List α} (each : ∀ a ∈ list, f a = .ok (g a)) :
    list.mapM f = .ok (list.map g) := by
  induction list with
  | nil => rfl
  | cons a list ih =>
    rw [List.mapM_cons, each a (List.mem_cons_self ..), ok_bind, ih fun b member => each b (List.mem_cons_of_mem _ member)]
    rfl

/-- What a C function returned, if it did. -/
def value [Inhabited α] : Outcome α → α
  | .ok a => a
  | .error _ => default

theorem mapM_eq_ok [Inhabited β] {f : α → Outcome β} {list : List α} {result : List β} (ran : list.mapM f = .ok result) :
    (∀ a ∈ list, f a = .ok (f a).value) ∧ result = list.map fun a => (f a).value := by
  induction list generalizing result with
  | nil =>
    cases ran
    exact ⟨fun a member => absurd member List.not_mem_nil, rfl⟩
  | cons a list ih =>
    rw [List.mapM_cons] at ran
    obtain ⟨first, here, ran⟩ := bind_eq_ok.mp ran
    obtain ⟨others, rest, same⟩ := bind_eq_ok.mp ran
    cases same
    obtain ⟨later, shape⟩ := ih rest
    rw [List.forall_mem_cons, List.map_cons, here, ← shape]
    exact ⟨⟨rfl, later⟩, rfl⟩

/-- A loop that returns has returned from its body at every entry. -/
theorem foldlM_returns_at {f : β → α → Outcome β} {list : List α} {b : β} (returns : Returns (list.foldlM f b))
    {a : α} (member : a ∈ list) : ∃ c, Returns (f c a) := by
  induction list generalizing b with
  | nil => cases member
  | cons head list ih =>
    rw [List.foldlM_cons, returns_bind] at returns
    obtain ⟨next, run, rest⟩ := returns
    rcases List.mem_cons.mp member with rfl | later
    · exact ⟨b, next, run⟩
    · exact ih rest later

/-- The fault that a C function met, if it did. -/
def fault : Outcome α → Option Fault
  | .ok _ => none
  | .error fault => some fault

theorem eq_error_of_fault {x : Outcome α} {f : Fault} (met : fault x = some f) : x = .error f := by
  cases x with
  | ok a => cases met
  | error other =>
    cases met
    rfl

/-- The execution does not meet the fault. -/
def Avoids (fault : Fault) (x : Outcome α) : Prop := x ≠ .error fault

section Avoids
variable {fault other : Fault}

@[simp] theorem avoids_ok (a : α) : Avoids fault (.ok a : Outcome α) := nofun

@[simp] theorem avoids_error : Avoids fault (.error other : Outcome α) ↔ other ≠ fault := by
  rw [Avoids, Ne, Except.error.injEq]

theorem avoids_bind {x : Outcome α} {f : α → Outcome β} :
    Avoids fault (x >>= f) ↔ Avoids fault x ∧ ∀ a, x = .ok a → Avoids fault (f a) := by
  cases x with
  | ok a => simp
  | error other => simp

theorem Returns.avoids {x : Outcome α} (returns : Returns x) : Avoids fault x := by
  obtain ⟨a, rfl⟩ := returns
  exact avoids_ok a

theorem foldlM_avoids {f : β → α → Outcome β} {list : List α} (each : ∀ a ∈ list, ∀ b, Avoids fault (f b a)) (b : β) :
    Avoids fault (list.foldlM f b) := by
  induction list generalizing b with
  | nil => exact avoids_ok b
  | cons a list ih =>
    rw [List.foldlM_cons, avoids_bind]
    exact ⟨each a List.mem_cons_self b, fun next _ => ih (fun a member => each a (List.mem_cons_of_mem _ member)) next⟩

end Avoids

end Outcome
