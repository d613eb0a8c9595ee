import DynamicRPC.ArrayMap
import DynamicRPC.Sparse

namespace DynamicRPC
open List

/-- What reads off an array has the types and the meanings of a map. -/
def DArray.ReadsLike (a : DArray Element) (map : Nat → Option Element) : Prop :=
  ∃ held : Nat → Option Element, a.Reads held ∧ ∀ i, (held i).map Element.value = (map i).map Element.value

/-- The indices of a map are `0..n-1`, here and in the arrays in its elements. -/
def DenseMap (map : Nat → Option Element) : Prop :=
  (∃ n, ∀ i, (map i).isSome ↔ i < n) ∧ ∀ i e, map i = some e → e.Dense

theorem applyAll_source {E : Type} [DStructElement E] {calls : List (ArrayCall E)} {map : Nat → Option E} {i : Nat}
    {e : E} (held : calls.foldl ArrayCall.apply map i = some e) : map i = some e ∨ .set i e ∈ calls := by
  induction calls generalizing map with
  | nil => exact Or.inl held
  | cons call calls ih =>
    rcases ih held with before | later
    · have updated : ∀ j (new : Option E), Function.update map j new i = some e →
          map i = some e ∨ (j = i ∧ new = some e) := by
        intro j new shape
        by_cases same : i = j
        · subst same
          rw [Function.update_self] at shape
          exact Or.inr ⟨rfl, shape⟩
        · rw [Function.update_of_ne same] at shape
          exact Or.inl shape
      cases call with
      | set j e' =>
        rcases updated j _ before with old | ⟨rfl, new⟩
        · exact Or.inl old
        · cases new
          exact Or.inr (List.mem_cons_self ..)
      | get => exact Or.inl before
      | getType => exact Or.inl before
      | remove j =>
        rcases updated j _ before with old | ⟨_, new⟩
        · exact Or.inl old
        · cases new
      | unlink j =>
        rw [ArrayCall.apply] at before
        split at before
        · exact Or.inl before
        · rcases updated j _ before with old | ⟨_, new⟩
          · exact Or.inl old
          · cases new
    · exact Or.inr (List.mem_cons_of_mem _ later)

section Held
variable {a : DArray Element} {size : Nat} {map : Nat → Option Element}

theorem DArray.Holds.wf (holds : a.Holds size map) (allocated : size < 2 ^ 61)
    (valid : ∀ i e, map i = some e → e.Wf) : (Element.array a).Wf := by
  refine .array ⟨holds.initialised, holds.live, holds.counted, by rw [holds.size]; exact allocated⟩ fun e member => ?_
  obtain ⟨i, at_i⟩ := List.mem_iff_getElem?.mp member
  have held := DArray.lookup_eq_some.mpr at_i
  rw [holds.lookup] at held
  exact valid i e held

theorem DArray.Holds.dense_iff (holds : a.Holds size map) : (Element.array a).Dense ↔ DenseMap map := by
  constructor
  · intro dense
    cases dense with
    | array indices items =>
      obtain ⟨n, bound⟩ := indices
      refine ⟨⟨n, fun i => by rw [← holds.lookup, bound]⟩, fun i e held => items e ?_⟩
      rw [← holds.lookup] at held
      exact List.mem_of_getElem? (DArray.lookup_eq_some.mp held)
  · rintro ⟨⟨n, bound⟩, items⟩
    refine .array ⟨n, fun i => by rw [holds.lookup, bound]⟩ fun e member => ?_
    obtain ⟨i, at_i⟩ := List.mem_iff_getElem?.mp member
    have held := DArray.lookup_eq_some.mpr at_i
    rw [holds.lookup] at held
    exact items i e held

theorem DArray.Wf.reads (wf : a.Wf) : a.Reads a.lookup :=
  DArray.Holds.reads ⟨rfl, wf.initialised, wf.live, wf.counted, fun _ => rfl⟩

/-- Decoding the buffer of an array gives the same readings exactly when no
array in it is sparse. -/
theorem DArray.Holds.decode_iff (holds : a.Holds size map) (allocated : size < 2 ^ 61)
    (valid : ∀ i e, map i = some e → e.Wf) : ∃ buf, dArrayBuf a = .ok (buf, a) ∧ (buf.length < 2 ^ 64 → ∀ rest,
      ((∃ a', bufDArray (buf ++ rest) = .ok a' ∧ a'.ReadsLike map) ↔ DenseMap map)) := by
  have wf := holds.wf allocated valid
  obtain ⟨fields, _, encoded⟩ := wf.dArrayBuf
  refine ⟨fieldsBuf fields, encoded, fun fits rest => ?_⟩
  constructor
  · rintro ⟨a', run, _⟩
    exact holds.dense_iff.mp ((bufDArray_returns_iff wf encoded fits rest).mp ⟨a', run⟩)
  · intro dense
    obtain ⟨a', result, run⟩ := DArray.roundTrip wf (holds.dense_iff.mpr dense) encoded fits
    have table : a'.Wf := by
      cases result.wf with
      | array table items => exact table
    refine ⟨a', run rest, a'.lookup, table.reads, fun i => ?_⟩
    rw [← DArray.value_eq, result.value, DArray.value_eq, holds.lookup]

end Held

/-- An array is a partial map, and writes inside its table only, exactly in the
runs that never grow it; it comes back from its encoding exactly when it and
the arrays in it are dense. -/
theorem dArray_partialMap_iff {calls : List (ArrayCall Element)} {startCapacity : Nat}
    (allocated : startCapacity < 2 ^ 61) (valid : ∀ index e, .set index e ∈ calls → e.Wf) :
    ((∃ a, runArray calls (newDArray startCapacity, []) = .ok (a, []) ∧ a.Reads (ArrayCall.applyAll calls)) ↔
      ∀ index e, .set index e ∈ calls → index < max startCapacity 1) ∧
    ∀ a, runArray calls (newDArray startCapacity, []) = .ok (a, []) → ∃ buf, dArrayBuf a = .ok (buf, a) ∧
      (buf.length < 2 ^ 64 → ∀ rest, ((∃ a', bufDArray (buf ++ rest) = .ok a' ∧
        a'.ReadsLike (ArrayCall.applyAll calls)) ↔ DenseMap (ArrayCall.applyAll calls))) := by
  have start := DArray.Holds.start (E := Element) startCapacity
  have positive : 0 < max startCapacity 1 := by omega
  constructor
  · constructor
    · rintro ⟨a, run, _⟩
      exact runArray_inside positive start run
    · intro inside
      obtain ⟨a, run, holds⟩ := runArray_within start inside
      exact ⟨a, run, holds.reads⟩
  · intro a run
    obtain ⟨a', again, holds⟩ := runArray_within start (runArray_inside positive start run)
    rw [run] at again
    cases again
    refine holds.decode_iff (by omega) fun i e held => ?_
    rcases applyAll_source held with none_held | member
    · cases none_held
    · exact valid i e member

theorem dArray_partialMap_iff_twoCells :
    ((∃ a, runArray [.set 1 (Element.str [104, 0])] (newDArray 2, []) = .ok (a, []) ∧
      a.Reads (ArrayCall.applyAll [.set 1 (Element.str [104, 0])])) ↔
      ∀ index e, .set index e ∈ [ArrayCall.set 1 (Element.str [104, 0])] → index < max 2 1) ∧
    ∀ a, runArray [.set 1 (Element.str [104, 0])] (newDArray 2, []) = .ok (a, []) → ∃ buf, dArrayBuf a = .ok (buf, a) ∧
      (buf.length < 2 ^ 64 → ∀ rest, ((∃ a', bufDArray (buf ++ rest) = .ok a' ∧
        a'.ReadsLike (ArrayCall.applyAll [.set 1 (Element.str [104, 0])])) ↔
        DenseMap (ArrayCall.applyAll [.set 1 (Element.str [104, 0])]))) :=
  dArray_partialMap_iff (by decide) fun index e member => by
    cases List.mem_singleton.mp member
    exact .str (by decide)

/-- Growing an array of one cell for index 5 writes eight cells behind its nine
and leaves cell 3 unwritten, where the next read meets it. -/
theorem dArray_growth_fails :
    (∃ a, runArray [.set 5 (Element.str [104, 0])] (newDArray 1, []) = .ok (a, [9, 10, 11, 12, 13, 14, 15])) ∧
    (¬ ∃ a, runArray [.set 5 (Element.str [104, 0])] (newDArray 1, []) = .ok (a, []) ∧
      a.Reads (ArrayCall.applyAll [.set 5 (Element.str [104, 0])])) ∧
    runArray [.set 5 (Element.str [104, 0]), .getType 3] (newDArray 1, []) = .error .uninitialised := by
  refine ⟨⟨_, rfl⟩, ?_, rfl⟩
  rintro ⟨a, run, _⟩
  cases run

end DynamicRPC
