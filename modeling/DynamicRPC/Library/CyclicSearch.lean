import Mathlib.Data.Nat.ModEq
import Mathlib.Data.List.Basic
import Mathlib.Tactic

/-! Linear search around a ring of `size` positions: from a start position,
step by one modulo `size` until a position satisfies `stop`. -/

namespace CyclicSearch
variable {stop stop' : Nat → Bool} {size fuel start found : Nat}

/-- At most `fuel` steps of the search from `start`. -/
def search (stop : Nat → Bool) (size : Nat) : Nat → Nat → Option Nat
  | 0, _ => none
  | fuel + 1, index =>
    if stop index then some index else search stop size fuel ((index + 1) % size)

theorem search_stop (run : search stop size fuel start = some found) : stop found = true := by
  induction fuel generalizing start with
  | zero => simp [search] at run
  | succ fuel ih =>
    rw [search] at run
    split at run
    · rename_i here
      cases Option.some.inj run
      exact here
    · exact ih run

theorem search_lt (run : search stop size fuel start = some found) (within : start < size) :
    found < size := by
  induction fuel generalizing start with
  | zero => simp [search] at run
  | succ fuel ih =>
    rw [search] at run
    split at run
    · cases Option.some.inj run
      exact within
    · exact ih run (Nat.mod_lt _ (by omega))

/-- The search sees `stop` only at the positions it passes, so a predicate
that keeps the position found and adds no earlier stop finds the same one. -/
theorem search_weaken (run : search stop size fuel start = some found)
    (weaker : ∀ i, stop' i = true → stop i = true) (here : stop' found = true) :
    search stop' size fuel start = some found := by
  induction fuel generalizing start with
  | zero => simp [search] at run
  | succ fuel ih =>
    rw [search] at run ⊢
    by_cases at_start : stop start = true
    · rw [if_pos at_start] at run
      cases Option.some.inj run
      rw [if_pos here]
    · rw [if_neg at_start] at run
      rw [if_neg (fun early => at_start (weaker start early))]
      exact ih run

/-- The search passes the positions `start`, `start + 1`, ... of the ring. -/
theorem search_eq_none (within : start < size) :
    search stop size fuel start = none ↔ ∀ n < fuel, stop ((start + n) % size) = false := by
  induction fuel generalizing start with
  | zero => simp [search]
  | succ fuel ih =>
    have next := @ih ((start + 1) % size) (Nat.mod_lt _ (by omega))
    have shift : ∀ n, ((start + 1) % size + n) % size = (start + (n + 1)) % size := by
      intro n
      rw [Nat.mod_add_mod]
      congr 1
      omega
    rw [search]
    constructor
    · intro run n bound
      split at run
      · cases run
      · rename_i away
        cases n with
        | zero => simpa [Nat.mod_eq_of_lt within] using away
        | succ n => rw [← shift]; exact next.mp run n (by omega)
    · intro quiet
      have here := quiet 0 (by omega)
      rw [Nat.add_zero, Nat.mod_eq_of_lt within] at here
      rw [here]
      exact next.mpr fun n bound => by rw [shift]; exact quiet (n + 1) (by omega)

/-- One round of the ring visits every position. -/
theorem search_isSome (stop : Nat → Bool) (within : start < size) :
    (search stop size size start).isSome ↔ ∃ i < size, stop i = true := by
  constructor
  · intro some_found
    obtain ⟨found, run⟩ := Option.isSome_iff_exists.mp some_found
    exact ⟨found, search_lt run within, search_stop run⟩
  · rintro ⟨i, bound, here⟩
    by_contra missing
    have none_found : search stop size size start = none := by simpa using missing
    rw [search_eq_none within] at none_found
    have quiet := none_found ((i + size - start) % size) (Nat.mod_lt _ (by omega))
    rw [Nat.add_mod_mod, show start + (i + size - start) = i + size by omega,
      Nat.add_mod_right, Nat.mod_eq_of_lt bound, here] at quiet
    cases quiet

/-- A search that fails for one round fails for ever. -/
theorem search_forever (within : start < size) (run : search stop size size start = none)
    (fuel : Nat) : search stop size fuel start = none := by
  rw [search_eq_none within]
  intro n _
  have quiet := (search_eq_none within).mp run (n % size) (Nat.mod_lt _ (by omega))
  rwa [Nat.add_mod_mod] at quiet

end CyclicSearch
