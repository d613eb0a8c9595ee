import DynamicRPC.HashtableSpec
import DynamicRPC.Library.Runs

namespace DynamicRPC
open Outcome
variable {V : Type}

/-- An insertion that leaves an empty slot behind: the key is there already,
the insertion builds the table again, or a second slot is empty. -/
def hashtableSetSafe (t : Hashtable V) (key : CString) : Prop :=
  key ∈ t.keys ∨ hashtableCrowded (t.size + 1) t.capacity = true ∨ 2 ≤ t.nullCount

/-- A table in which every probe ends. -/
structure Hashtable.Open (t : Hashtable V) : Prop where
  wf : t.Wf
  room : 0 < t.nullCount

/-- A table of keys and tombstones only. -/
structure Hashtable.Full (t : Hashtable V) : Prop where
  wf : t.Wf
  noRoom : t.nullCount = 0

theorem hashtableCreate_open : (hashtableCreate : Hashtable V).Open where
  wf := hashtableCreate_refill.wf
  room := hashtableCreate_refill.wf.room hashtableCreate_refill.noDead

namespace Hashtable.Open
variable {t : Hashtable V} {key : CString} (isOpen : t.Open)
include isOpen

theorem get : hashtableGet t key = .ok (t.lookup key) := isOpen.wf.get_eq (Or.inl isOpen.room)

theorem set_returns (key : CString) (value : V) : ∃ t', hashtableSet t key value = .ok t' ∧ t'.Wf := by
  by_cases member : key ∈ t.keys
  · obtain ⟨t', old, run, rewritten⟩ := hashtableSet_rewritten isOpen.wf value member
    exact ⟨t', run, rewritten.wf⟩
  · obtain ⟨t', run, inserted⟩ := hashtableSet_inserted isOpen.wf value isOpen.room member
    exact ⟨t', run, inserted.wf⟩

theorem set_safe (value : V) (safe : hashtableSetSafe t key) :
    ∃ t', hashtableSet t key value = .ok t' ∧ t'.Open := by
  by_cases member : key ∈ t.keys
  · obtain ⟨t', old, run, rewritten⟩ := hashtableSet_rewritten isOpen.wf value member
    exact ⟨t', run, rewritten.wf, by rw [rewritten.nulls]; exact isOpen.room⟩
  · obtain ⟨t', run, inserted⟩ := hashtableSet_inserted isOpen.wf value isOpen.room member
    refine ⟨t', run, inserted.wf, ?_⟩
    rcases inserted.slots with ⟨calm, fewer, _⟩ | ⟨_, noDead⟩
    · rcases safe with there | load | room
      · exact absurd there member
      · rw [calm] at load
        cases load
      · omega
    · exact inserted.wf.room noDead

/-- The insertion that takes the last empty slot. -/
theorem set_unsafe {value : V} {t' : Hashtable V} (danger : ¬ hashtableSetSafe t key)
    (run : hashtableSet t key value = .ok t') : t'.Full := by
  simp only [hashtableSetSafe, not_or] at danger
  obtain ⟨absent, calm, few⟩ := danger
  obtain ⟨other, again, inserted⟩ := hashtableSet_inserted isOpen.wf value isOpen.room absent
  rw [run] at again
  cases again
  rcases inserted.slots with ⟨_, fewer, _⟩ | ⟨load, _⟩
  · have room := isOpen.room
    exact ⟨inserted.wf, by omega⟩
  · exact absurd load calm

theorem remove (key : CString) : ∃ t', hashtableRemove t key = .ok t' ∧ t'.Open := by
  by_cases member : key ∈ t.keys
  · obtain ⟨t', old, run, rewritten⟩ := hashtableRemove_rewritten isOpen.wf member
    exact ⟨t', run, rewritten.wf, by rw [rewritten.nulls]; exact isOpen.room⟩
  · exact ⟨t, hashtableRemove_absent isOpen.wf isOpen.room member, isOpen⟩

end Hashtable.Open

namespace Hashtable.Full
variable {t t' : Hashtable V} {key : CString} (full : t.Full)
include full

/-- Without an empty slot the probe for a key that is not stored is endless. -/
theorem findSlot_diverges (absent : key ∉ t.keys) : hashtableFindSlot t key = .error .diverges := by
  have hangs : ¬ Returns (hashtableFindSlot t key) := by
    rw [hashtableFindSlot_returns_iff full.wf.positive, not_or]
    exact ⟨by rw [full.noRoom]; exact lt_irrefl 0, absent⟩
  unfold hashtableFindSlot at hangs ⊢
  split at hangs
  · exact absurd (returns_ok _) hangs
  · rfl

theorem get_diverges (absent : key ∉ t.keys) : hashtableGet t key = .error .diverges := by
  rw [hashtableGet, full.findSlot_diverges absent]
  rfl

theorem set_diverges (value : V) (absent : key ∉ t.keys) : hashtableSet t key value = .error .diverges := by
  rw [hashtableSet, hashtableSetNL, hashtableSetWith, full.findSlot_diverges absent]
  rfl

theorem set {value : V} (run : hashtableSet t key value = .ok t') : t'.Full := by
  by_cases member : key ∈ t.keys
  · obtain ⟨other, old, again, rewritten⟩ := hashtableSet_rewritten full.wf value member
    rw [run] at again
    cases again
    exact ⟨rewritten.wf, rewritten.nulls.trans full.noRoom⟩
  · rw [full.set_diverges value member] at run
    cases run

theorem remove (run : hashtableRemove t key = .ok t') : t'.Full := by
  by_cases member : key ∈ t.keys
  · obtain ⟨other, old, again, rewritten⟩ := hashtableRemove_rewritten full.wf member
    rw [run] at again
    cases again
    exact ⟨rewritten.wf, rewritten.nulls.trans full.noRoom⟩
  · rw [hashtableRemove, full.findSlot_diverges member] at run
    cases run

omit full in
/-- There are more strings than a table has slots. -/
theorem exists_absent (t : Hashtable V) : ∃ key, key ∉ t.keys := by
  by_contra all
  push Not at all
  have unbounded : (Set.range CString.sprintfZu) ⊆ {key | key ∈ t.keys} := fun key _ => all key
  exact (Set.infinite_range_of_injective CString.sprintfZu_injective) (t.keys.finite_toSet.subset unbounded)

end Hashtable.Full

/-- What the connection handlers do to `client_threads`. -/
inductive ClientEvent (V : Type)
  | connect (clientid : CString) (thread : V)
  | disconnect (clientid : CString)

def ClientEvent.record (clientThreads : Hashtable V) : ClientEvent V → Outcome (Hashtable V)
  | .connect clientid thread => hashtableSet clientThreads clientid thread
  | .disconnect clientid => hashtableRemove clientThreads clientid

def ClientEvent.safe (clientThreads : Hashtable V) : ClientEvent V → Prop
  | .connect clientid _ => hashtableSetSafe clientThreads clientid
  | .disconnect _ => True

/-- Every further connect and disconnect returns exactly after the histories
in which every connect found room. -/
theorem clientThreads_returns_iff [Inhabited V] (events : List (ClientEvent V)) :
    (∀ event, Returns (Runs.run ClientEvent.record hashtableCreate (events ++ [event]))) ↔
      Runs.Along ClientEvent.record ClientEvent.safe hashtableCreate events := by
  refine Runs.returns_snoc_iff_along Hashtable.Open Hashtable.Full ?_ ?_ ?_ ?_ ?_ hashtableCreate_open
  · rintro t (⟨clientid, thread⟩ | ⟨clientid⟩) isOpen safe
    · exact isOpen.set_safe thread safe
    · exact isOpen.remove clientid
  · rintro t (⟨clientid, thread⟩ | ⟨clientid⟩) isOpen
    · obtain ⟨t', run, _⟩ := isOpen.set_returns clientid thread
      exact ⟨t', run⟩
    · obtain ⟨t', run, _⟩ := isOpen.remove clientid
      exact ⟨t', run⟩
  · rintro t (⟨clientid, thread⟩ | ⟨clientid⟩) t' isOpen danger run
    · exact isOpen.set_unsafe danger run
    · exact absurd trivial danger
  · rintro t (⟨clientid, thread⟩ | ⟨clientid⟩) t' full run
    · exact full.set run
    · exact full.remove run
  · intro t full
    obtain ⟨clientid, absent⟩ := Hashtable.Full.exists_absent t
    refine ⟨.connect clientid default, ?_⟩
    rw [ClientEvent.record, full.set_diverges _ absent]
    exact not_returns_error _

end DynamicRPC
