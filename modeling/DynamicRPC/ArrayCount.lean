import DynamicRPC.CallPrepare
import DynamicRPC.Copy
import DynamicRPC.Library.Runs

namespace DynamicRPC
open Outcome

/-- A call of a program that works on several arrays, each named by its place
in the order in which they were made. Only supported types are set. -/
inductive ArraysCall
  | new (startCapacity : Nat) (allocated : startCapacity < 2 ^ 61)
  | set (n index : Nat) (e : Element) (wf : e.Wf)
  | remove (n index : Nat)
  | unlink (n index : Nat)
  | copy (n : Nat)

/-- A call on the `n`-th array; there is none on an array that was not made. -/
def changeArray (arrays : List (DArray Element)) (n : Nat) (change : DArray Element → Outcome (DArray Element)) :
    Outcome (List (DArray Element)) :=
  match arrays[n]? with
  | none => pure arrays
  | some a => do
    let a ← change a
    pure (arrays.set n a)

/-- The arrays after a call, where a write outside a table is a fault. -/
def ArraysCall.run (arrays : List (DArray Element)) : ArraysCall → Outcome (List (DArray Element))
  | .new startCapacity _ => pure (arrays ++ [newDArray startCapacity])
  | .set n index e _ => changeArray arrays n fun a => dArraySetWithin a index (.element e)
  | .remove n index => changeArray arrays n fun a => dArrayRemove a index
  | .unlink n index => changeArray arrays n fun a => do
    let (a, _) ← dArrayUnlink a index
    pure a
  | .copy n =>
    match arrays[n]? with
    | none => pure arrays
    | some a => do
      let (copied, a) ← dArrayCopy a
      pure (arrays.set n a ++ [copied])

/-- A setter writes to a `NULL` cell of the table. -/
def ArraysCall.safe (arrays : List (DArray Element)) : ArraysCall → Prop
  | .set n index _ _ => ∀ a, arrays[n]? = some a → index < a.lookupSize ∧ a.lookup index = none
  | _ => True

/-- What every array keeps, whatever its counter says. -/
structure DArray.Sound (a : DArray Element) : Prop where
  wf : (Element.array a).Wf
  positive : 0 < a.lookupSize

/-- A change of one array, and by how much its counter runs ahead of its elements. -/
structure DArray.Counts (ahead : Nat) (a a' : DArray Element) : Prop where
  sound : a'.Sound
  balance : a'.realSize + a.elements.length = a.realSize + a'.elements.length + ahead

namespace DArray.Sound
variable {a a' : DArray Element} {index : Nat} (sound : a.Sound)
include sound

theorem table : a.Wf := by
  cases sound.wf with
  | array table items => exact table

theorem items : ∀ e, .elem e ∈ a.lookupTable → e.Wf := by
  cases sound.wf with
  | array table items => exact items

theorem holds : a.Holds a.lookupSize a.lookup :=
  ⟨rfl, sound.table.initialised, sound.table.live, sound.table.counted, fun _ => rfl⟩

omit sound in
theorem of_holds {size : Nat} {map : Nat → Option Element} (holds : a.Holds size map) (positive : 0 < size)
    (allocated : size < 2 ^ 61) (items : ∀ i e, map i = some e → e.Wf) : a.Sound := by
  refine ⟨.array ⟨holds.initialised, holds.live, holds.counted, by rw [holds.size]; exact allocated⟩ fun e member => ?_,
    by rw [holds.size]; exact positive⟩
  obtain ⟨i, at_i⟩ := List.mem_iff_getElem?.mp member
  have held := DArray.lookup_eq_some.mpr at_i
  rw [holds.lookup] at held
  exact items i e held

theorem lookup_wf {i : Nat} {e : Element} (held : a.lookup i = some e) : e.Wf :=
  sound.items e (List.mem_of_getElem? (DArray.lookup_eq_some.mp held))

/-- A setter counts one element more, whether the cell held one or not. -/
theorem store {e : Element} (wf : e.Wf) (within : index < a.lookupSize) :
    (a.store index (some e)).lookupSize = a.lookupSize ∧
      DArray.Counts (a.lookup index).toList.length a (a.store index (some e)) := by
  have balance := sound.holds.elements_store (some e) within
  have counted := sound.table.counted
  simp only [Option.toList_some, List.length_cons, List.length_nil] at balance
  have kept := sound.holds.store (some e) within (a.realSize + 1) (by omega)
  refine ⟨DArray.store_lookupSize _, of_holds kept sound.positive sound.table.allocated fun i old held => ?_, ?_⟩
  · rw [Function.update_apply] at held
    split at held
    · cases held
      exact wf
    · exact sound.lookup_wf held
  · have counter : (a.store index (some e)).realSize = a.realSize + 1 := rfl
    omega

theorem set {e : Element} (wf : e.Wf) (ran : dArraySetWithin a index (.element e) = .ok a') :
    index < a.lookupSize ∧ DArray.Counts (a.lookup index).toList.length a a' := by
  obtain ⟨⟨written, stray⟩, set, kept⟩ := bind_eq_ok.mp ran
  rw [dArraySet, sound.holds.get, ok_bind] at set
  have within : index < a.lookupSize := by
    by_contra beyond
    have outside := dArraySetInternal_stray (some e) sound.positive (not_lt.mp beyond)
    have same : stray = (dArraySetInternal a index (some e)).2 := congrArg Prod.snd (Except.ok.inj set).symm
    dsimp only at kept
    rw [same, if_neg outside] at kept
    cases kept
  rw [dArraySetInternal_within _ within] at set
  cases set
  cases kept
  exact ⟨within, (sound.store wf within).2⟩

/-- Removing an element counts it off; the counter is never 0 then. -/
theorem del (ran : dArrayDelInternal a index = .ok a') : DArray.Counts 0 a a' := by
  obtain ⟨other, again, kept⟩ := sound.holds.del index
  rw [ran] at again
  cases again
  have stays : a'.Sound := of_holds kept sound.positive sound.table.allocated fun i e held => by
    rw [Function.update_apply] at held
    split at held
    · cases held
    · exact sound.lookup_wf held
  rw [dArrayDelInternal, sound.holds.get, ok_bind] at ran
  cases held : a.lookup index with
  | none =>
    rw [held] at ran
    cases ran
    exact ⟨stays, rfl⟩
  | some e =>
    rw [held] at ran
    cases ran
    have within := DArray.lookup_isSome_lt (Option.isSome_iff_exists.mpr ⟨e, held⟩)
    have fewer := sound.holds.elements_store none within
    have counted := sound.table.counted
    rw [held] at fewer
    simp only [Option.toList_some, Option.toList_none, List.length_cons, List.length_nil] at fewer
    have same : DArray.elements ⟨a.realSize - 1, a.lookupTable.set index .null⟩ = (a.store index none).elements := rfl
    refine ⟨stays, ?_⟩
    rw [same]
    dsimp only
    omega

theorem unlink {done : Bool} (ran : dArrayUnlink a index = .ok (a', done)) : DArray.Counts 0 a a' := by
  obtain ⟨found, -, ran⟩ := bind_eq_ok.mp ran
  cases found with
  | none =>
    cases ran
    exact ⟨sound, rfl⟩
  | some e =>
    dsimp only at ran
    split at ran
    · cases ran
      exact ⟨sound, rfl⟩
    · obtain ⟨other, removed, same⟩ := bind_eq_ok.mp ran
      cases same
      exact sound.del removed

/-- The copy of an array counts exactly, and the array stays as it was. -/
theorem copy : ∃ copied : DArray Element, dArrayCopy a = .ok (copied, a) ∧ copied.Sound ∧
    copied.realSize = copied.elements.length := by
  obtain ⟨copied, run, -, wf, counted, size⟩ := dArrayCopy_spec sound.table fun e member => (sound.items e member).copies
  exact ⟨copied, run, ⟨wf, by rw [size]; omega⟩, counted⟩

omit sound in
theorem new {startCapacity : Nat} (allocated : startCapacity < 2 ^ 61) :
    (newDArray startCapacity : DArray Element).Sound := by
  refine of_holds (DArray.Holds.start startCapacity) (by omega) (by omega) fun i e held => ?_
  cases held

end DArray.Sound

section Step
variable {arrays arrays' : List (DArray Element)} {call : ArraysCall}

theorem changeArray_inv {n : Nat} {change : DArray Element → Outcome (DArray Element)}
    (ran : changeArray arrays n change = .ok arrays') :
    (arrays[n]? = none ∧ arrays' = arrays) ∨
      ∃ a a', arrays[n]? = some a ∧ change a = .ok a' ∧ arrays' = arrays.set n a' := by
  unfold changeArray at ran
  split at ran
  · next absent =>
    cases ran
    exact .inl ⟨absent, rfl⟩
  · next a held =>
    obtain ⟨a', changed, same⟩ := bind_eq_ok.mp ran
    cases same
    exact .inr ⟨a, a', held, changed, rfl⟩

/-- What a call can do: nothing, make an array whose counter is exact, or
change one array, whose counter then runs ahead of its elements by so much more. -/
inductive ArraysCall.Effect (arrays : List (DArray Element)) : Nat → List (DArray Element) → Prop
  | same : Effect arrays 0 arrays
  | made {a : DArray Element} (sound : a.Sound) (counted : a.realSize = a.elements.length) :
      Effect arrays 0 (arrays ++ [a])
  | changed {n ahead : Nat} {a a' : DArray Element} (held : arrays[n]? = some a) (counts : DArray.Counts ahead a a') :
      Effect arrays ahead (arrays.set n a')

/-- The counter falls behind exactly when a setter finds its cell occupied. -/
theorem ArraysCall.run_inv (sound : ∀ a ∈ arrays, a.Sound) (ran : call.run arrays = .ok arrays') :
    ∃ ahead, ArraysCall.Effect arrays ahead arrays' ∧ (call.safe arrays ↔ ahead = 0) := by
  have member {n : Nat} {a : DArray Element} (held : arrays[n]? = some a) : a.Sound := sound a (List.mem_of_getElem? held)
  have changed {n : Nat} {change : DArray Element → Outcome (DArray Element)}
      (counts : ∀ a a', arrays[n]? = some a → change a = .ok a' → DArray.Counts 0 a a')
      (ran : changeArray arrays n change = .ok arrays') : ArraysCall.Effect arrays 0 arrays' := by
    obtain ⟨-, same⟩ | ⟨a, a', held, run, same⟩ := changeArray_inv ran
    · rw [same]
      exact .same
    · rw [same]
      exact .changed held (counts a a' held run)
  cases call with
  | new startCapacity allocated =>
    cases ran
    refine ⟨0, .made (.new allocated) ?_, iff_of_true trivial rfl⟩
    rw [newDArray_elements]
    rfl
  | set n index e wf =>
    obtain ⟨absent, same⟩ | ⟨a, a', held, run, same⟩ := changeArray_inv ran
    · refine ⟨0, by rw [same]; exact .same, iff_of_true (fun a held => ?_) rfl⟩
      rw [absent] at held
      cases held
    · obtain ⟨within, counts⟩ := (member held).set wf run
      refine ⟨_, by rw [same]; exact .changed held counts, fun safe => ?_, fun empty other there => ?_⟩
      · rw [(safe a held).2]
        rfl
      · rw [held] at there
        cases there
        refine ⟨within, ?_⟩
        cases found : a.lookup index with
        | none => rfl
        | some old =>
          rw [found] at empty
          cases empty
  | remove n index =>
    exact ⟨0, changed (fun a a' held run => (member held).del run) ran, iff_of_true trivial rfl⟩
  | unlink n index =>
    refine ⟨0, changed (fun a a' held run => ?_) ran, iff_of_true trivial rfl⟩
    obtain ⟨⟨other, done⟩, unlinked, same⟩ := bind_eq_ok.mp run
    cases same
    exact (member held).unlink unlinked
  | copy n =>
    refine ⟨0, ?_, iff_of_true trivial rfl⟩
    rw [ArraysCall.run] at ran
    cases held : arrays[n]? with
    | none =>
      rw [held] at ran
      cases ran
      exact .same
    | some a =>
      obtain ⟨copied, run, fresh, counted⟩ := (member held).copy
      obtain ⟨bound, value⟩ := List.getElem?_eq_some_iff.mp held
      have kept : arrays.set n a = arrays := by rw [← value, List.set_getElem_self]
      rw [held] at ran
      dsimp only at ran
      rw [run, ok_bind] at ran
      dsimp only at ran
      rw [kept] at ran
      cases ran
      exact .made fresh counted

/-- A call that its condition allows returns. -/
theorem ArraysCall.run_returns (sound : ∀ a ∈ arrays, a.Sound) (safe : call.safe arrays) : Returns (call.run arrays) := by
  have changes {n : Nat} {change : DArray Element → Outcome (DArray Element)}
      (each : ∀ a, arrays[n]? = some a → Returns (change a)) : Returns (changeArray arrays n change) := by
    unfold changeArray
    split
    · exact returns_ok _
    · next a held =>
      obtain ⟨a', run⟩ := each a held
      exact ⟨_, by rw [run]; rfl⟩
  have member {n : Nat} {a : DArray Element} (held : arrays[n]? = some a) : a.Sound := sound a (List.mem_of_getElem? held)
  cases call with
  | new startCapacity allocated => exact returns_ok _
  | set n index e wf =>
    refine changes fun a held => ?_
    refine ⟨a.store index (some e), ?_⟩
    rw [dArraySetWithin, dArraySet, (member held).holds.get, ok_bind, dArraySetInternal_within _ (safe a held).1]
    rfl
  | remove n index =>
    refine changes fun a held => ?_
    obtain ⟨a', run, -⟩ := (member held).holds.del index
    exact ⟨a', run⟩
  | unlink n index =>
    refine changes fun a held => ?_
    obtain ⟨a', done, run, -⟩ := (member held).holds.unlink index
    exact ⟨a', by rw [run]; rfl⟩
  | copy n =>
    rw [ArraysCall.run]
    cases held : arrays[n]? with
    | none => exact returns_ok _
    | some a =>
      obtain ⟨copied, run, -⟩ := (member held).copy
      dsimp only
      rw [run]
      exact returns_ok _

namespace ArraysCall.Effect
variable {ahead : Nat} (effect : ArraysCall.Effect arrays ahead arrays')
include effect

theorem sound (sound : ∀ a ∈ arrays, a.Sound) : ∀ a ∈ arrays', a.Sound := by
  intro a member
  cases effect with
  | same => exact sound a member
  | made fresh counted =>
    obtain before | last := List.mem_append.mp member
    · exact sound a before
    · rw [List.mem_singleton.mp last]
      exact fresh
  | changed held counts =>
    obtain before | here := List.mem_or_eq_of_mem_set member
    · exact sound a before
    · rw [here]
      exact counts.sound

/-- Once a counter runs ahead, it stays ahead. -/
theorem behind (some_behind : ∃ a ∈ arrays, a.elements.length < a.realSize) :
    ∃ a ∈ arrays', a.elements.length < a.realSize := by
  obtain ⟨b, member, counter⟩ := some_behind
  cases effect with
  | same => exact ⟨b, member, counter⟩
  | made fresh counted => exact ⟨b, List.mem_append_left _ member, counter⟩
  | @changed n ahead a a' held counts =>
    obtain ⟨m, at_m⟩ := List.mem_iff_getElem?.mp member
    by_cases same : m = n
    · subst same
      rw [held] at at_m
      cases at_m
      have balance := counts.balance
      have bound := (List.getElem?_eq_some_iff.mp held).choose
      exact ⟨a', List.mem_of_getElem? (List.getElem?_set_self bound), by omega⟩
    · refine ⟨b, List.mem_of_getElem? (i := m) ?_, counter⟩
      rw [List.getElem?_set_ne (fun equal => same equal.symm)]
      exact at_m

/-- A counter that falls behind shows in the array that was changed. -/
theorem falls (positive : ahead ≠ 0) (sound : ∀ a ∈ arrays, a.Sound) : ∃ a ∈ arrays', a.elements.length < a.realSize := by
  cases effect with
  | same => exact absurd rfl positive
  | made => exact absurd rfl positive
  | @changed n ahead a a' held counts =>
    have balance := counts.balance
    have counted := (sound a (List.mem_of_getElem? held)).table.counted
    have bound := (List.getElem?_eq_some_iff.mp held).choose
    exact ⟨a', List.mem_of_getElem? (List.getElem?_set_self bound), by omega⟩

theorem exact (none_ahead : ahead = 0) (exact : ∀ a ∈ arrays, a.realSize = a.elements.length) :
    ∀ a ∈ arrays', a.realSize = a.elements.length := by
  intro b member
  cases effect with
  | same => exact exact b member
  | made fresh counted =>
    obtain before | last := List.mem_append.mp member
    · exact exact b before
    · rw [List.mem_singleton.mp last]
      exact counted
  | changed held counts =>
    obtain before | here := List.mem_or_eq_of_mem_set member
    · exact exact b before
    · have balance := counts.balance
      have before := exact _ (List.mem_of_getElem? held)
      rw [here]
      omega

end ArraysCall.Effect

end Step

/-- `d_array_len` counts the occupied indices of every array, and no call
writes outside a table, exactly in the runs in which every element is set at an
index of the table that holds none. -/
theorem dArrayLen_exact_iff (calls : List ArraysCall) :
    (∃ arrays, Runs.run ArraysCall.run [] calls = .ok arrays ∧ ∀ a ∈ arrays, dArrayLen a = a.fields.length) ↔
      Runs.Along ArraysCall.run ArraysCall.safe [] calls := by
  have occupied (a : DArray Element) : a.fields.length = a.elements.length := by
    rw [← DArray.fields_elements, List.length_map]
  simp only [occupied]
  have none_made : ∀ a ∈ ([] : List (DArray Element)), a.Sound := fun a member => absurd member List.not_mem_nil
  constructor
  · rintro ⟨arrays, ran, exact⟩
    refine Runs.along_of_end_within (fun arrays => ∀ a ∈ arrays, a.Sound)
      (fun arrays => (∀ a ∈ arrays, a.Sound) ∧ ∃ a ∈ arrays, a.elements.length < a.realSize)
      (fun before call after sound run => ?_) (fun before call after sound danger run => ?_)
      (fun before call after behind run => ?_) none_made ran fun behind => ?_
    · obtain ⟨ahead, effect, -⟩ := ArraysCall.run_inv sound run
      exact effect.sound sound
    · obtain ⟨ahead, effect, safe⟩ := ArraysCall.run_inv sound run
      exact ⟨effect.sound sound, effect.falls (fun none_ahead => danger (safe.mpr none_ahead)) sound⟩
    · obtain ⟨ahead, effect, -⟩ := ArraysCall.run_inv behind.1 run
      exact ⟨effect.sound behind.1, effect.behind behind.2⟩
    · obtain ⟨a, member, counter⟩ := behind.2
      have counted : a.realSize = a.elements.length := exact a member
      omega
  · intro along
    have kept (before : List (DArray Element)) (call : ArraysCall)
        (good : (∀ a ∈ before, a.Sound) ∧ ∀ a ∈ before, a.realSize = a.elements.length) (safe : call.safe before) :
        ∃ after, call.run before = .ok after ∧
          (∀ a ∈ after, a.Sound) ∧ ∀ a ∈ after, a.realSize = a.elements.length := by
      obtain ⟨after, run⟩ := ArraysCall.run_returns good.1 safe
      obtain ⟨ahead, effect, same⟩ := ArraysCall.run_inv good.1 run
      exact ⟨after, run, effect.sound good.1, effect.exact (same.mp safe) good.2⟩
    obtain ⟨arrays, ran, sound, exact⟩ := Runs.run_along kept ⟨none_made, fun a member => absurd member List.not_mem_nil⟩
      along
    exact ⟨arrays, ran, exact⟩

/-- An index that is set twice is counted twice. -/
theorem dArrayLen_overwritten : ∃ arrays,
    Runs.run ArraysCall.run [] [.new 1 (by decide), .set 0 0 (.sizedbuf [7]) .sizedbuf, .set 0 0 (.sizedbuf [8]) .sizedbuf] =
      .ok arrays ∧ ¬ ∀ a ∈ arrays, dArrayLen a = a.fields.length :=
  ⟨_, rfl, by decide⟩

end DynamicRPC
