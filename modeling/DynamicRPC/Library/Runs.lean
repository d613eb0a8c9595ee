import DynamicRPC.Library.Outcome

/-! Runs of a machine whose steps may fail to return, and runs whose every step
meets a condition on the state before it. -/

namespace Runs
open Outcome
variable {σ κ : Type}

def run (step : σ → κ → Outcome σ) (s : σ) (calls : List κ) : Outcome σ := calls.foldlM step s

/-- Every call of the run meets `safe` in the state it is made in. -/
def Along (step : σ → κ → Outcome σ) (safe : σ → κ → Prop) : σ → List κ → Prop
  | _, [] => True
  | s, call :: calls => safe s call ∧ ∀ s', step s call = .ok s' → Along step safe s' calls

variable {step : σ → κ → Outcome σ} {safe : σ → κ → Prop} {Good Full : σ → Prop}

@[simp] theorem run_nil (s : σ) : run step s [] = .ok s := rfl

@[simp] theorem run_cons (s : σ) (call : κ) (calls : List κ) :
    run step s (call :: calls) = step s call >>= fun s' => run step s' calls := rfl

theorem run_append (s : σ) (before after : List κ) :
    run step s (before ++ after) = run step s before >>= fun s' => run step s' after :=
  List.foldlM_append

theorem along_of_all {calls : List κ} (all : ∀ call ∈ calls, ∀ s, safe s call) (s : σ) : Along step safe s calls := by
  induction calls generalizing s with
  | nil => trivial
  | cons call calls ih =>
    obtain ⟨first, rest⟩ := List.forall_mem_cons.mp all
    exact ⟨first s, fun s' _ => ih rest s'⟩

theorem run_returns (total : ∀ s call, Returns (step s call)) (s : σ) (calls : List κ) : Returns (run step s calls) := by
  induction calls generalizing s with
  | nil => exact returns_ok s
  | cons call calls ih =>
    obtain ⟨middle, first⟩ := total s call
    obtain ⟨last, rest⟩ := ih middle
    exact ⟨last, by rw [run_cons, first, ok_bind, rest]⟩

theorem run_history_from (P : List κ → σ → Prop)
    (kept : ∀ past s call s', P past s → safe s call → step s call = .ok s' → P (past ++ [call]) s')
    (past : List κ) {calls : List κ} {s s' : σ} (held : P past s) (along : Along step safe s calls)
    (runs : run step s calls = .ok s') : P (past ++ calls) s' := by
  induction calls generalizing past s with
  | nil =>
    cases runs
    simpa using held
  | cons call calls ih =>
    obtain ⟨middle, first, rest⟩ := bind_eq_ok.mp runs
    have next := kept past s call middle held along.1 first
    have last := ih (past ++ [call]) next (along.2 middle first) rest
    rwa [List.append_assoc, List.singleton_append] at last

/-- A property of the calls made so far and the state they led to. -/
theorem run_history (P : List κ → σ → Prop)
    (kept : ∀ past s call s', P past s → safe s call → step s call = .ok s' → P (past ++ [call]) s')
    {calls : List κ} {s s' : σ} (held : P [] s) (along : Along step safe s calls)
    (runs : run step s calls = .ok s') : P calls s' :=
  run_history_from P kept [] held along runs

/-- A property that every safe call keeps. -/
theorem run_keeps (Good : σ → Prop) (kept : ∀ s call s', Good s → safe s call → step s call = .ok s' → Good s')
    {s s' : σ} {calls : List κ} (good : Good s) (along : Along step safe s calls)
    (runs : run step s calls = .ok s') : Good s' :=
  run_history (fun _ => Good) (fun _ => kept) good along runs

theorem run_invariant (Good : σ → Prop) (kept : ∀ s call s', Good s → step s call = .ok s' → Good s') {s s' : σ}
    {calls : List κ} (good : Good s) (runs : run step s calls = .ok s') : Good s' :=
  run_keeps Good (fun s call s' held (_ : True) => kept s call s' held) good (along_of_all (fun _ _ _ => trivial) s) runs

/-- A call that establishes what every call keeps, somewhere in a run. -/
theorem run_establishes (Good : σ → Prop) (kept : ∀ s call s', Good s → step s call = .ok s' → Good s') {call : κ}
    {calls : List κ} (member : call ∈ calls) (establishes : ∀ s s', step s call = .ok s' → Good s') {s s' : σ}
    (runs : run step s calls = .ok s') : Good s' := by
  obtain ⟨before, after, rfl⟩ := List.append_of_mem member
  rw [run_append] at runs
  obtain ⟨first, -, rest⟩ := bind_eq_ok.mp runs
  obtain ⟨second, here, last⟩ := bind_eq_ok.mp rest
  exact run_invariant Good kept (establishes first second here) last

/-- Steps that keep an invariant are safe in what the invariant ensures. -/
theorem along_of_invariant (Good : σ → Prop) {ensured : σ → κ → Prop}
    (kept : ∀ s call s', Good s → safe s call → step s call = .ok s' → Good s')
    (ensures : ∀ s call, Good s → ensured s call) {s : σ} {calls : List κ} (good : Good s)
    (along : Along step safe s calls) : Along step ensured s calls := by
  induction calls generalizing s with
  | nil => trivial
  | cons call calls ih =>
    refine ⟨ensures s call good, fun middle first => ?_⟩
    exact ih (kept s call middle good along.1 first) (along.2 middle first)

/-- When an unsafe step spoils the state for good, a run that ends unspoilt was
safe. `Inv` is what every step keeps. -/
theorem along_of_end_within (Inv Bad : σ → Prop) (kept : ∀ s call s', Inv s → step s call = .ok s' → Inv s')
    (lost : ∀ s call s', Inv s → ¬ safe s call → step s call = .ok s' → Bad s')
    (stays : ∀ s call s', Bad s → step s call = .ok s' → Bad s') {s s' : σ} {calls : List κ} (inv : Inv s)
    (runs : run step s calls = .ok s') (good : ¬ Bad s') : Along step safe s calls := by
  induction calls generalizing s with
  | nil => trivial
  | cons call calls ih =>
    obtain ⟨middle, first, rest⟩ := bind_eq_ok.mp runs
    have here : safe s call := by
      by_contra unsafe_step
      exact good (run_invariant Bad stays (lost s call middle inv unsafe_step first) rest)
    refine ⟨here, fun other again => ?_⟩
    rw [first] at again
    cases again
    exact ih (kept s call middle inv first) rest

theorem along_of_end (Bad : σ → Prop) (lost : ∀ s call s', ¬ safe s call → step s call = .ok s' → Bad s')
    (stays : ∀ s call s', Bad s → step s call = .ok s' → Bad s') {s s' : σ} {calls : List κ}
    (runs : run step s calls = .ok s') (good : ¬ Bad s') : Along step safe s calls :=
  along_of_end_within (fun _ => True) Bad (fun _ _ _ _ _ => trivial) (fun s call s' _ => lost s call s') stays trivial
    runs good

/-- A run along which every step is safe returns and keeps the invariant. -/
theorem run_along (kept : ∀ s call, Good s → safe s call → ∃ s', step s call = .ok s' ∧ Good s') {s : σ}
    {calls : List κ} (good : Good s) (along : Along step safe s calls) :
    ∃ s', run step s calls = .ok s' ∧ Good s' := by
  induction calls generalizing s with
  | nil => exact ⟨s, rfl, good⟩
  | cons call calls ih =>
    obtain ⟨middle, first, still⟩ := kept s call good along.1
    obtain ⟨last, rest, held⟩ := ih still (along.2 middle first)
    exact ⟨last, by rw [run_cons, first, ok_bind, rest], held⟩

/-- A run along which every step is safe returns, with a property of the calls made so far. -/
theorem run_history_along (P : List κ → σ → Prop)
    (kept : ∀ past s call, P past s → safe s call → ∃ s', step s call = .ok s' ∧ P (past ++ [call]) s') {s : σ}
    {calls : List κ} (held : P [] s) (along : Along step safe s calls) :
    ∃ s', run step s calls = .ok s' ∧ P calls s' := by
  obtain ⟨last, runs⟩ : Returns (run step s calls) := by
    have some_past (s : σ) (call : κ) (good : ∃ past, P past s) (ok : safe s call) :
        ∃ s', step s call = .ok s' ∧ ∃ past, P past s' := by
      obtain ⟨past, held⟩ := good
      obtain ⟨s', here, next⟩ := kept past s call held ok
      exact ⟨s', here, _, next⟩
    obtain ⟨last, runs, -⟩ := run_along some_past ⟨[], held⟩ along
    exact ⟨last, runs⟩
  refine ⟨last, runs, run_history P (fun past s call s' held safe here => ?_) held along runs⟩
  obtain ⟨other, again, next⟩ := kept past s call held safe
  rw [here] at again
  cases again
  exact next

/-- In a machine where an unsafe step leads to states that can only lead to
one another, and where some call does not return, safety along a run is
what it takes for every further call to return. -/
theorem returns_snoc_iff_along (Good Full : σ → Prop)
    (kept : ∀ s call, Good s → safe s call → ∃ s', step s call = .ok s' ∧ Good s')
    (returns : ∀ s call, Good s → Returns (step s call))
    (lost : ∀ s call s', Good s → ¬ safe s call → step s call = .ok s' → Full s')
    (stays : ∀ s call s', Full s → step s call = .ok s' → Full s')
    (stuck : ∀ s, Full s → ∃ call, ¬ Returns (step s call))
    {s : σ} {calls : List κ} (good : Good s) :
    (∀ call, Returns (run step s (calls ++ [call]))) ↔ Along step safe s calls := by
  constructor
  · intro all
    induction calls generalizing s with
    | nil => trivial
    | cons call calls ih =>
      have here : safe s call := by
        by_contra bad
        obtain ⟨middle, first⟩ := returns s call good
        have full := lost s call middle good bad first
        have rest : ∀ next, Returns (run step middle (calls ++ [next])) := fun next => by
          have whole := all next
          rwa [List.cons_append, run_cons, first, ok_bind] at whole
        obtain ⟨last, ran⟩ : Returns (run step middle calls) := by
          obtain ⟨next, _⟩ := stuck middle full
          have whole := rest next
          rw [run_append, returns_bind] at whole
          exact ⟨_, whole.choose_spec.1⟩
        obtain ⟨next, hangs⟩ := stuck last (run_invariant Full stays full ran)
        have whole := rest next
        rw [run_append, ran, ok_bind, run_cons, returns_bind] at whole
        exact hangs ⟨_, whole.choose_spec.1⟩
      refine ⟨here, fun middle first => ?_⟩
      obtain ⟨other, again, still⟩ := kept s call good here
      rw [first] at again
      cases again
      refine ih still fun next => ?_
      have whole := all next
      rwa [List.cons_append, run_cons, first, ok_bind] at whole
  · intro along call
    obtain ⟨last, ran, held⟩ := run_along kept good along
    obtain ⟨next, final⟩ := returns last call held
    exact ⟨next, by rw [run_append, ran, ok_bind, run_cons, final, ok_bind, run_nil]⟩

end Runs
