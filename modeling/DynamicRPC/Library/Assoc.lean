import Mathlib.Data.List.Perm.Basic
import Mathlib.Data.List.Nodup
import Mathlib.Tactic

/-! Association lists that come from a list of slots, some of which hold a
binding. Rewriting one slot changes one binding and permutes nothing else. -/

namespace Assoc
variable {α β κ ν : Type}

open List

theorem flatMap_set_perm (f : α → List β) {slots : List α} {i : Nat} {old : α}
    (at_i : slots[i]? = some old) (new : α) :
    ∃ rest, slots.flatMap f ~ f old ++ rest ∧ (slots.set i new).flatMap f ~ f new ++ rest := by
  obtain ⟨bound, value⟩ := List.getElem?_eq_some_iff.mp at_i
  have split : ∀ a, (slots.set i a).flatMap f =
      (slots.take i).flatMap f ++ (f a ++ (slots.drop (i + 1)).flatMap f) := by
    intro a
    rw [List.set_eq_take_append_cons_drop, if_pos bound, List.flatMap_append, List.flatMap_cons]
  refine ⟨(slots.take i).flatMap f ++ (slots.drop (i + 1)).flatMap f, ?_, ?_⟩
  · have same : slots.set i old = slots := by rw [← value, List.set_getElem_self]
    rw [← same, split, same]
    exact List.perm_append_comm_assoc _ _ _
  · rw [split]
    exact List.perm_append_comm_assoc _ _ _

theorem filterMap_set_perm (f : α → Option β) {slots : List α} {i : Nat} {old : α}
    (at_i : slots[i]? = some old) (new : α) :
    ∃ rest, slots.filterMap f ~ (f old).toList ++ rest ∧
      (slots.set i new).filterMap f ~ (f new).toList ++ rest := by
  simp only [List.filterMap_eq_flatMap_toList]
  exact flatMap_set_perm (fun a => (f a).toList) at_i new

theorem countP_set (p : α → Bool) {slots : List α} {i : Nat} {old : α}
    (at_i : slots[i]? = some old) (new : α) :
    (slots.set i new).countP p + (p old).toNat = slots.countP p + (p new).toNat := by
  obtain ⟨bound, value⟩ := List.getElem?_eq_some_iff.mp at_i
  rw [List.countP_set bound, value]
  cases held : p old with
  | false => cases p new <;> simp
  | true =>
    have positive : 0 < slots.countP p :=
      List.countP_pos_iff.mpr ⟨old, List.mem_of_getElem? at_i, held⟩
    cases p new <;> simp only [if_true, Bool.false_eq_true, if_false, Bool.toNat_true, Bool.toNat_false] <;> omega

section Lookup
variable [DecidableEq κ]

theorem lookup_eq_some_iff_mem {entries : List (κ × ν)} (distinct : (entries.map Prod.fst).Nodup)
    {key : κ} {value : ν} : entries.lookup key = some value ↔ (key, value) ∈ entries := by
  induction entries with
  | nil => simp
  | cons entry entries ih =>
    obtain ⟨other, held⟩ := entry
    rw [List.map_cons, List.nodup_cons] at distinct
    rw [List.lookup_cons, List.mem_cons]
    by_cases same : key = other
    · subst same
      have absent : (key, value) ∉ entries := fun member =>
        distinct.1 (List.mem_map.mpr ⟨_, member, rfl⟩)
      simp [absent, eq_comm]
    · rw [beq_false_of_ne same]
      simp [same, ih distinct.2]

theorem lookup_eq_none_iff_not_mem {entries : List (κ × ν)} {key : κ} :
    entries.lookup key = none ↔ key ∉ entries.map Prod.fst := by
  rw [List.lookup_eq_none_iff]
  constructor
  · intro all member
    obtain ⟨entry, inside, rfl⟩ := List.mem_map.mp member
    simpa using all entry inside
  · intro absent entry member
    rw [bne_iff_ne]
    rintro rfl
    exact absent (List.mem_map.mpr ⟨entry, member, rfl⟩)

theorem lookup_perm {entries entries' : List (κ × ν)} (perm : entries ~ entries')
    (distinct : (entries.map Prod.fst).Nodup) (key : κ) : entries.lookup key = entries'.lookup key := by
  have distinct' := (perm.map Prod.fst).nodup_iff.mp distinct
  apply Option.ext
  intro value
  rw [lookup_eq_some_iff_mem distinct, lookup_eq_some_iff_mem distinct', perm.mem_iff]

/-- Rewriting, adding or dropping the binding of one key updates the map there. -/
theorem lookup_update {entries entries' rest : List (κ × ν)} {key : κ} (old new : Option ν)
    (before : entries ~ (old.map (Prod.mk key)).toList ++ rest)
    (after : entries' ~ (new.map (Prod.mk key)).toList ++ rest)
    (distinct : (entries.map Prod.fst).Nodup) (absent : key ∉ rest.map Prod.fst) :
    (fun k => entries'.lookup k) = Function.update (fun k => entries.lookup k) key new := by
  have rest_distinct : (rest.map Prod.fst).Nodup := by
    have whole := (before.map Prod.fst).nodup_iff.mp distinct
    rw [List.map_append] at whole
    exact whole.of_append_right
  have reads : ∀ (value : Option ν) {list : List (κ × ν)}, list ~ (value.map (Prod.mk key)).toList ++ rest →
      (fun k => list.lookup k) = Function.update (fun k => rest.lookup k) key value := by
    intro value list perm
    have list_distinct : (list.map Prod.fst).Nodup := by
      rw [(perm.map Prod.fst).nodup_iff]
      cases value with
      | none => simpa using rest_distinct
      | some held => simpa using ⟨by simpa using absent, rest_distinct⟩
    funext k
    rw [lookup_perm perm list_distinct]
    cases value with
    | none =>
      by_cases same : k = key
      · subst same
        simpa using lookup_eq_none_iff_not_mem.mpr absent
      · simp [same]
    | some held =>
      by_cases same : k = key
      · subst same
        simp
      · rw [Option.map_some, Option.toList_some, List.singleton_append, List.lookup_cons,
          beq_false_of_ne same, Function.update_of_ne same]
  rw [reads new after, reads old before, Function.update_idem]

end Lookup
end Assoc
