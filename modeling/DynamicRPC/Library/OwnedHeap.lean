import DynamicRPC.Library.Memory
import Mathlib.Tactic
import Mathlib.Data.Multiset.Basic

/-! Blocks of a memory that own one another. A block owns the blocks that its
fields of certain kinds point to, so that what hangs together is torn down
together and every block has one owner. -/

/-- When a block is of a kind, and which blocks, of which kinds, a block owns. -/
class Ownership (κ : outParam Type) (β : Type) where
  admits : κ → β → Prop
  owned : β → List (Nat × κ)

namespace Ownership
open Outcome
variable {κ β : Type} [Ownership κ β] {m m' : Memory β}

/-- The blocks that hang from the pointers, with all that they own. At the hole
there is a block that owns nothing for the moment. -/
inductive Holds (m : Memory β) (hole : Option (Nat × κ)) : List (Nat × κ) → Multiset Nat → Prop
  | nil : Holds m hole [] 0
  | block {p : Nat} {k : κ} {b : β} {ps : List (Nat × κ)} {below beside : Multiset Nat}
      (elsewhere : hole.map Prod.fst ≠ some p) (content : m.cells p = some b) (admitted : admits k b)
      (owns : Holds m hole (owned b) below) (others : Holds m hole ps beside) :
      Holds m hole ((p, k) :: ps) (p ::ₘ (below + beside))
  | hole {p : Nat} {k : κ} {b : β} {ps : List (Nat × κ)} {beside : Multiset Nat} (here : hole = some (p, k))
      (content : m.cells p = some b) (admitted : admits k b) (others : Holds m hole ps beside) :
      Holds m hole ((p, k) :: ps) (p ::ₘ beside)

namespace Holds
variable {hole : Option (Nat × κ)} {ps qs : List (Nat × κ)} {f g : Multiset Nat} {p : Nat} {k : κ} {b : β}

theorem live (holds : Holds m hole ps f) (member : p ∈ f) : (m.cells p).isSome := by
  induction holds with
  | nil => simp at member
  | block elsewhere content admitted owns others ih_owns ih_others =>
    rcases Multiset.mem_cons.mp member with rfl | member
    · rw [content]
      rfl
    · rcases Multiset.mem_add.mp member with member | member
      · exact ih_owns member
      · exact ih_others member
  | hole here content admitted others ih =>
    rcases Multiset.mem_cons.mp member with rfl | member
    · rw [content]
      rfl
    · exact ih member

theorem append (first : Holds m hole ps f) (second : Holds m hole qs g) : Holds m hole (ps ++ qs) (f + g) := by
  induction first with
  | nil => simpa using second
  | block elsewhere content admitted owns others ih_owns ih_others =>
    rw [List.cons_append, Multiset.cons_add, add_assoc]
    exact block elsewhere content admitted owns ih_others
  | hole here content admitted others ih =>
    rw [List.cons_append, Multiset.cons_add]
    exact .hole here content admitted ih

/-- What hangs from a list of pointers, from its parts. -/
theorem of_append (holds : Holds m hole (ps ++ qs) f) :
    ∃ g h, Holds m hole ps g ∧ Holds m hole qs h ∧ f = g + h := by
  induction ps generalizing f with
  | nil => exact ⟨0, f, nil, holds, (zero_add f).symm⟩
  | cons p ps ih =>
    cases holds with
    | block elsewhere content admitted owns others =>
      obtain ⟨g, h, first, second, rfl⟩ := ih others
      exact ⟨_, h, block elsewhere content admitted owns first, second, by rw [Multiset.cons_add, add_assoc]⟩
    | hole here content admitted others =>
      obtain ⟨g, h, first, second, rfl⟩ := ih others
      exact ⟨_, h, .hole here content admitted first, second, by rw [Multiset.cons_add]⟩

theorem of_cons {entry : Nat × κ} (holds : Holds m hole (entry :: ps) f) :
    ∃ g h, Holds m hole [entry] g ∧ Holds m hole ps h ∧ f = g + h :=
  @of_append _ _ _ _ _ [entry] ps _ holds

theorem perm (holds : Holds m hole ps f) (same : ps.Perm qs) : Holds m hole qs f := by
  induction same generalizing f with
  | nil => exact holds
  | cons p _ ih =>
    cases holds with
    | block elsewhere content admitted owns others => exact block elsewhere content admitted owns (ih others)
    | hole here content admitted others => exact .hole here content admitted (ih others)
  | swap p q rest =>
    obtain ⟨at_q, f, second, rest, rfl⟩ := of_cons holds
    obtain ⟨at_p, g, first, others, rfl⟩ := of_cons rest
    rw [add_left_comm]
    exact first.append (second.append others)
  | trans _ _ ih_first ih_second => exact ih_second (ih_first holds)

/-- What hangs from pointers is determined by the memory. -/
theorem unique (first : Holds m hole ps f) (second : Holds m hole ps g) : f = g := by
  induction first generalizing g with
  | nil =>
    cases second
    rfl
  | block elsewhere content admitted owns others ih_owns ih_others =>
    cases second with
    | block elsewhere' content' admitted' owns' others' =>
      rw [content] at content'
      cases content'
      rw [ih_owns owns', ih_others others']
    | hole here => exact absurd (congrArg (Option.map Prod.fst) here) elsewhere
  | hole here content admitted others ih =>
    cases second with
    | block elsewhere => exact absurd (congrArg (Option.map Prod.fst) here) elsewhere
    | hole here' content' admitted' others' => rw [ih others']

/-- Writing outside, or an admissible block at the hole, changes nothing. -/
theorem rewrite (holds : Holds m hole ps f)
    (same : ∀ a ∈ f, m'.cells a = m.cells a ∨ ∃ k b, hole = some (a, k) ∧ m'.cells a = some b ∧ admits k b) :
    Holds m' hole ps f := by
  induction holds with
  | nil => exact nil
  | block elsewhere content admitted owns others ih_owns ih_others =>
    rename_i p k b ps below beside
    have here : m'.cells p = some b := by
      rcases same p (Multiset.mem_cons_self ..) with same | ⟨k', b', here, -⟩
      · rw [same, content]
      · exact absurd (congrArg (Option.map Prod.fst) here) elsewhere
    exact block elsewhere here admitted
      (ih_owns fun a member => same a (Multiset.mem_cons_of_mem (Multiset.mem_add.mpr (Or.inl member))))
      (ih_others fun a member => same a (Multiset.mem_cons_of_mem (Multiset.mem_add.mpr (Or.inr member))))
  | hole here content admitted others ih =>
    rename_i p k b ps beside
    have rest := ih fun a member => same a (Multiset.mem_cons_of_mem member)
    rcases same p (Multiset.mem_cons_self ..) with same | ⟨k', b', again, written, admitted'⟩
    · exact .hole here (same.trans content) admitted rest
    · rw [here] at again
      cases again
      exact .hole here written admitted' rest

theorem frame (holds : Holds m hole ps f) (same : ∀ a ∈ f, m'.cells a = m.cells a) : Holds m' hole ps f :=
  holds.rewrite fun a member => Or.inl (same a member)

/-- A hole that is not among the blocks does not matter. -/
theorem hole_elsewhere (holds : Holds m hole ps f) (out : ∀ p ∈ hole, p.1 ∉ f) {hole' : Option (Nat × κ)}
    (out' : ∀ p ∈ hole', p.1 ∉ f) : Holds m hole' ps f := by
  induction holds with
  | nil => exact nil
  | block elsewhere content admitted owns others ih_owns ih_others =>
    have below := ih_owns (fun p at_p member => out p at_p (by simp [member])) fun p at_p member => out' p at_p (by simp [member])
    have beside := ih_others (fun p at_p member => out p at_p (by simp [member])) fun p at_p member => out' p at_p (by simp [member])
    refine block (fun same => ?_) content admitted below beside
    obtain ⟨entry, at_entry, rfl⟩ := Option.map_eq_some_iff.mp same
    exact out' entry at_entry (Multiset.mem_cons_self ..)
  | hole here content admitted others => exact absurd (Multiset.mem_cons_self ..) (out _ here)

/-- A block among them, with what it owns taken off it. -/
theorem opened (holds : Holds m none ps f) (apart : f.Nodup) (member : p ∈ f) :
    ∃ k b below rest, m.cells p = some b ∧ admits k b ∧ Holds m none (owned b) below ∧
      Holds m (some (p, k)) ps rest ∧ p ∈ rest ∧ f = below + rest := by
  induction holds with
  | nil => simp at member
  | block elsewhere content admitted owns others ih_owns ih_others =>
    rename_i q k b qs below beside
    obtain ⟨fresh, apart⟩ := Multiset.nodup_cons.mp apart
    obtain ⟨apart_below, apart_beside, disjoint⟩ := Multiset.nodup_add.mp apart
    have only {k' : κ} {g : Multiset Nat} (out : p ∉ g) : ∀ entry ∈ some (p, k'), entry.1 ∉ g := by
      intro entry same
      cases Option.mem_some.mp same
      exact out
    by_cases same : p = q
    · subst same
      rw [Multiset.mem_add, not_or] at fresh
      exact ⟨k, b, below, p ::ₘ beside, content, admitted, owns,
        .hole rfl content admitted (others.hole_elsewhere (by simp) (only fresh.2)), Multiset.mem_cons_self ..,
        by rw [Multiset.add_cons]⟩
    · rcases Multiset.mem_add.mp ((Multiset.mem_cons.mp member).resolve_left same) with member | member
      · obtain ⟨k', b', below', rest, content', admitted', owns', holds, inside, rfl⟩ := ih_owns apart_below member
        have out : p ∉ beside := fun other => Multiset.disjoint_left.mp disjoint member other
        refine ⟨k', b', below', q ::ₘ (rest + beside), content', admitted', owns',
          block (fun other => same (Option.some.inj other)) content admitted holds
            (others.hole_elsewhere (by simp) (only out)), by simp [inside], ?_⟩
        rw [Multiset.add_cons, add_assoc]
      · obtain ⟨k', b', below', rest, content', admitted', owns', holds, inside, rfl⟩ := ih_others apart_beside member
        have out : p ∉ below := fun other => Multiset.disjoint_left.mp disjoint other member
        refine ⟨k', b', below', q ::ₘ (below + rest), content', admitted', owns',
          block (fun other => same (Option.some.inj other)) content admitted (owns.hole_elsewhere (by simp) (only out))
            holds, by simp [inside], ?_⟩
        rw [Multiset.add_cons, add_left_comm]
  | hole here => cases here

/-- The hole is closed when its block owns something again. -/
theorem closed {below : Multiset Nat} (holds : Holds m (some (p, k)) ps f) (apart : (below + f).Nodup) (member : p ∈ f)
    (content : m.cells p = some b) (admitted : admits k b) (owns : Holds m none (owned b) below) :
    Holds m none ps (below + f) := by
  have only {g : Multiset Nat} (out : p ∉ g) : ∀ entry ∈ some (p, k), entry.1 ∉ g := by
    intro entry same
    cases Option.mem_some.mp same
    exact out
  generalize at_hole : some (p, k) = hole at holds
  induction holds with
  | nil => simp at member
  | block elsewhere content' admitted' owns' others ih_owns ih_others =>
    rename_i q k' b' qs below' beside
    subst at_hole
    rw [Multiset.add_cons, Multiset.nodup_cons, ← add_assoc] at apart
    obtain ⟨-, apart⟩ := apart
    rcases Multiset.mem_add.mp ((Multiset.mem_cons.mp member).resolve_left fun same => elsewhere (by rw [same]; rfl))
      with member | member
    · obtain ⟨apart, -, disjoint⟩ := Multiset.nodup_add.mp apart
      have out : p ∉ beside := fun other =>
        Multiset.disjoint_left.mp disjoint (Multiset.mem_add.mpr (Or.inr member)) other
      rw [Multiset.add_cons, ← add_assoc]
      exact block (by simp) content' admitted' (ih_owns apart member) (others.hole_elsewhere (only out) (by simp))
    · rw [add_comm below, add_assoc] at apart
      obtain ⟨-, apart, disjoint⟩ := Multiset.nodup_add.mp apart
      have out : p ∉ below' := fun other =>
        Multiset.disjoint_left.mp disjoint other (Multiset.mem_add.mpr (Or.inr member))
      rw [Multiset.add_cons, add_left_comm]
      exact block (by simp) content' admitted' (owns'.hole_elsewhere (only out) (by simp)) (ih_others apart member)
  | hole here content' admitted' others ih =>
    subst at_hole
    cases here
    rw [content] at content'
    cases content'
    rw [Multiset.add_cons] at apart ⊢
    obtain ⟨fresh, -⟩ := Multiset.nodup_cons.mp apart
    exact block (by simp) content admitted owns
      (others.hole_elsewhere (only fun other => fresh (Multiset.mem_add.mpr (Or.inr other))) (by simp))

theorem card_le (holds : Holds m hole ps f) (apart : f.Nodup) : f.card ≤ m.next := by
  have within : f ≤ Multiset.range m.next := by
    refine (Multiset.le_iff_subset apart).mpr fun a member => ?_
    obtain ⟨b, content⟩ := Option.isSome_iff_exists.mp (holds.live member)
    exact Multiset.mem_range.mpr (Memory.lt_of_live content)
  simpa using Multiset.card_le_card within

end Holds

/-- The blocks were freed, each once, and nothing else changed. -/
structure Erases (f : Multiset Nat) (m m' : Memory β) : Prop where
  next : m'.next = m.next
  erased : ∀ a ∈ f, m'.cells a = none
  kept : ∀ a ∉ f, m'.cells a = m.cells a

omit [Ownership κ β] in
theorem alloc_content {b : β} {p : Nat} (made : m.alloc b = (p, m')) : m'.cells p = some b := by
  have at_next : m.next = p := congrArg Prod.fst made
  have after : (m.alloc b).2 = m' := congrArg Prod.snd made
  subst at_next after
  exact Memory.alloc_self m b

omit [Ownership κ β] in
/-- An allocation leaves the blocks that there are. -/
theorem alloc_kept {b : β} {p q : Nat} {content : β} (made : m.alloc b = (p, m')) (live : m.cells q = some content) :
    m'.cells q = some content := by
  have after : (m.alloc b).2 = m' := congrArg Prod.snd made
  subst after
  exact (Memory.alloc_extends m b).live live

section Erase
variable {hole : Option (Nat × κ)} {ps : List (Nat × κ)} {f g : Multiset Nat} {p : Nat} {m'' : Memory β}

omit [Ownership κ β] in
theorem Erases.refl (m : Memory β) : Erases 0 m m where
  next := rfl
  erased := fun _ member => absurd member (Multiset.notMem_zero _)
  kept := fun _ _ => rfl

omit [Ownership κ β] in
theorem Erases.trans (first : Erases f m m') (second : Erases g m' m'') : Erases (f + g) m m'' where
  next := second.next.trans first.next
  erased := fun a member => by
    by_cases later : a ∈ g
    · exact second.erased a later
    · rw [second.kept a later]
      exact first.erased a ((Multiset.mem_add.mp member).resolve_right later)
  kept := fun a out => by
    rw [Multiset.mem_add, not_or] at out
    rw [second.kept a out.2, first.kept a out.1]

omit [Ownership κ β] in
theorem free_erases (live : (m.cells p).isSome) : ∃ m', m.free p = .ok m' ∧ Erases {p} m m' := by
  rw [Memory.free, dif_pos live]
  refine ⟨_, rfl, rfl, fun a member => ?_, fun a out => ?_⟩
  · rw [Multiset.mem_singleton.mp member]
    exact Function.update_self ..
  · rw [Multiset.mem_singleton] at out
    exact Function.update_of_ne out ..

theorem Holds.erase (holds : Holds m hole ps f) (erases : Erases g m m') (apart : Disjoint f g) : Holds m' hole ps f :=
  holds.frame fun a member => erases.kept a (Multiset.disjoint_left.mp apart member)

/-- Tearing down what hangs from a list of pointers, one after the other. -/
theorem Holds.dispose_all {α : Type} {deed : α → Nat × κ} {step : Memory β → α → Outcome (Memory β)} {bound : Nat}
    {xs : List α} (each : ∀ x ∈ xs, ∀ (m : Memory β) (f : Multiset Nat), Holds m none [deed x] f → f.Nodup →
      f.card ≤ bound → ∃ m', step m x = .ok m' ∧ Erases f m m')
    (holds : Holds m none (xs.map deed) f) (apart : f.Nodup) (small : f.card ≤ bound) :
    ∃ m', xs.foldlM step m = .ok m' ∧ Erases f m m' := by
  induction xs generalizing m f with
  | nil =>
    cases holds
    exact ⟨m, rfl, .refl m⟩
  | cons x xs ih =>
    obtain ⟨g, h, first, others, rfl⟩ := of_cons holds
    obtain ⟨apart_first, apart_others, disjoint⟩ := Multiset.nodup_add.mp apart
    rw [Multiset.card_add] at small
    obtain ⟨middle, here, erased⟩ := each x (List.mem_cons_self ..) m g first apart_first (by omega)
    obtain ⟨last, rest, erased'⟩ := ih (fun x member => each x (List.mem_cons_of_mem _ member))
      (others.erase erased disjoint.symm) apart_others (by omega)
    exact ⟨last, by rw [List.foldlM_cons, here, ok_bind, rest], erased.trans erased'⟩

end Erase

/-- The blocks that were allocated since `base` and are live: bare ones, which
own nothing yet, and what hangs from the loose pointers and from the roots, one
of which may have a hole. Everything else is as in `base`. -/
structure Parts (base m : Memory β) (hole : Option (Nat × κ)) (bare : List Nat) (loose roots : List (Nat × κ))
    (g h total : Multiset Nat) : Prop where
  hangs : Holds m none loose g
  rooted : Holds m hole roots h
  inside : ∀ p ∈ hole, p.1 ∈ h
  alive : ∀ a ∈ bare, (m.cells a).isSome
  whole : total = (bare : Multiset Nat) + (g + h)
  apart : total.Nodup
  fresh : ∀ a ∈ total, base.cells a = none
  others : ∀ a ∉ total, m.cells a = base.cells a
  later : base.next ≤ m.next

theorem Parts.head {base : Memory β} {hole : Option (Nat × κ)} {bare : List Nat} {loose roots : List (Nat × κ)} {p : Nat}
    {g h total : Multiset Nat} (parts : Parts base m hole (p :: bare) loose roots g h total) :
    p ∉ bare ∧ p ∉ g ∧ p ∉ h := by
  have apart := parts.apart
  rw [parts.whole, ← Multiset.cons_coe, Multiset.cons_add, Multiset.nodup_cons] at apart
  simpa [not_or] using apart.1

/-- Every block that is live since `base` has one owner: itself, while it is
bare, a pointer of the caller, or one other block. -/
def Owns (base m : Memory β) (hole : Option (Nat × κ)) (bare : List Nat) (loose roots : List (Nat × κ)) : Prop :=
  ∃ g h total, Parts base m hole bare loose roots g h total

namespace Owns
variable {base : Memory β} {hole : Option (Nat × κ)} {bare : List Nat} {loose loose' roots roots' : List (Nat × κ)}
  {p : Nat} {k : κ} {b : β}

theorem start (base : Memory β) : Owns (κ := κ) base base none [] [] [] :=
  ⟨0, 0, 0, .nil, .nil, by simp, by simp, rfl, Multiset.nodup_zero, by simp, fun _ _ => rfl, Nat.le_refl _⟩

theorem finish (owns : Owns base m none [] [] []) : m.cells = base.cells := by
  obtain ⟨g, h, total, parts⟩ := owns
  cases parts.hangs
  cases parts.rooted
  funext a
  exact parts.others a (by simp [parts.whole])

theorem perm (owns : Owns base m hole bare loose roots) (same : loose.Perm loose') (same' : roots.Perm roots') :
    Owns base m hole bare loose' roots' := by
  obtain ⟨g, h, total, parts⟩ := owns
  exact ⟨g, h, total, { parts with hangs := parts.hangs.perm same, rooted := parts.rooted.perm same' }⟩

/-- A new block is bare. -/
theorem alloc (owns : Owns base m hole bare loose roots) (made : m.alloc b = (p, m')) :
    Owns base m' hole (p :: bare) loose roots := by
  obtain ⟨g, h, total, parts⟩ := owns
  have at_next : m.next = p := congrArg Prod.fst made
  have after : (m.alloc b).2 = m' := congrArg Prod.snd made
  subst at_next after
  have unused : m.cells m.next = none := m.unused _ (Nat.le_refl _)
  have new : m.next ∉ total := by
    intro member
    rw [parts.whole, Multiset.mem_add, Multiset.mem_add] at member
    have live : (m.cells m.next).isSome := by
      rcases member with member | member | member
      · exact parts.alive _ member
      · exact parts.hangs.live member
      · exact parts.rooted.live member
    rw [unused] at live
    cases live
  have kept (a : Nat) (member : a ∈ total) : (m.alloc b).2.cells a = m.cells a := by
    rw [Memory.alloc_cells, Function.update_of_ne]
    rintro rfl
    exact new member
  have in_bare (a : Nat) (member : a ∈ bare) : a ∈ total := by
    rw [parts.whole]
    exact Multiset.mem_add.mpr (Or.inl member)
  refine ⟨g, h, m.next ::ₘ total, ?_, ?_, parts.inside, ?_, ?_, ?_, ?_, ?_, ?_⟩
  · exact parts.hangs.frame fun a member => kept a (by simp [parts.whole, member])
  · exact parts.rooted.frame fun a member => kept a (by simp [parts.whole, member])
  · intro a member
    rcases List.mem_cons.mp member with rfl | member
    · rw [Memory.alloc_self]
      rfl
    · rw [kept a (in_bare a member)]
      exact parts.alive a member
  · rw [parts.whole, ← Multiset.cons_coe, Multiset.cons_add]
  · exact Multiset.nodup_cons.mpr ⟨new, parts.apart⟩
  · intro a member
    rcases Multiset.mem_cons.mp member with rfl | member
    · exact base.unused _ parts.later
    · exact parts.fresh a member
  · intro a out
    rw [Multiset.mem_cons, not_or] at out
    rw [Memory.alloc_cells, Function.update_of_ne out.1]
    exact parts.others a out.2
  · exact Nat.le_trans parts.later (Nat.le_succ _)

theorem live (owns : Owns base m hole bare loose roots) (member : (p, k) ∈ loose) :
    ∃ b, m.cells p = some b ∧ admits k b := by
  obtain ⟨g, h, total, parts⟩ := owns
  obtain ⟨before, after, rfl⟩ := List.append_of_mem member
  obtain ⟨_, _, -, holds, -⟩ := parts.hangs.of_append
  cases holds with
  | block elsewhere content admitted owns others => exact ⟨_, content, admitted⟩
  | hole here => cases here

/-- A bare block takes what hangs from the loose pointers that it has got. -/
theorem fill (owns : Owns base m hole (p :: bare) (owned b ++ loose) roots) (content : m.cells p = some b)
    (admitted : admits k b) : Owns base m hole bare ((p, k) :: loose) roots := by
  obtain ⟨g, h, total, parts⟩ := owns
  obtain ⟨below, beside, taken_holds, loose_holds, rfl⟩ := parts.hangs.of_append
  refine ⟨p ::ₘ (below + beside), h, total, { parts with hangs := ?_, alive := ?_, whole := ?_ }⟩
  · exact .block (by simp) content admitted taken_holds loose_holds
  · exact fun a member => parts.alive a (List.mem_cons_of_mem _ member)
  · rw [parts.whole, ← Multiset.cons_coe, Multiset.cons_add, Multiset.cons_add, Multiset.add_cons]

/-- A block that is owned by the caller only can be looked at apart from what it owns. -/
theorem strip (owns : Owns base m hole bare ((p, k) :: loose) roots) :
    ∃ b, m.cells p = some b ∧ admits k b ∧ Owns base m hole (p :: bare) (owned b ++ loose) roots := by
  obtain ⟨g, h, total, parts⟩ := owns
  cases holds : parts.hangs with
  | block elsewhere content admitted below beside =>
    refine ⟨_, content, admitted, _, h, total, { parts with hangs := below.append beside, alive := ?_, whole := ?_ }⟩
    · intro a member
      rcases List.mem_cons.mp member with rfl | member
      · rw [content]
        rfl
      · exact parts.alive a member
    · rw [parts.whole, ← Multiset.cons_coe, Multiset.cons_add, Multiset.cons_add, Multiset.add_cons]
  | hole here => cases here

theorem write_bare (owns : Owns base m hole (p :: bare) loose roots) (b : β) :
    ∃ m', m.write p b = .ok m' ∧ m'.cells p = some b ∧ Owns base m' hole (p :: bare) loose roots := by
  obtain ⟨g, h, total, parts⟩ := owns
  have live := parts.alive p (List.mem_cons_self ..)
  obtain ⟨out_bare, out_g, out_h⟩ := parts.head
  have kept (a : Nat) (other : a ≠ p) : (m.replace p (some b) live).cells a = m.cells a := Function.update_of_ne other ..
  have apart {f : Multiset Nat} (out : p ∉ f) (a : Nat) (member : a ∈ f) : a ≠ p := by
    rintro rfl
    exact out member
  have self : (m.replace p (some b) live).cells p = some b := Function.update_self ..
  have member : p ∈ total := by simp [parts.whole]
  refine ⟨m.replace p (some b) live, by rw [Memory.write, dif_pos live]; rfl, self, g, h, total,
    parts.hangs.frame fun a inside => kept a (apart out_g a inside),
    parts.rooted.frame fun a inside => kept a (apart out_h a inside), parts.inside, ?_, parts.whole, parts.apart,
    parts.fresh, fun a out => (kept a ?_).trans (parts.others a out), parts.later⟩
  · intro a inside
    rcases List.mem_cons.mp inside with rfl | other
    · rw [self]
      rfl
    · rw [kept a fun same => out_bare (same ▸ other)]
      exact parts.alive a inside
  · rintro rfl
    exact out member

theorem free_bare (owns : Owns base m hole (p :: bare) loose roots) :
    ∃ m', m.free p = .ok m' ∧ Owns base m' hole bare loose roots := by
  obtain ⟨g, h, total, parts⟩ := owns
  obtain ⟨m', freed, erases⟩ := free_erases (parts.alive p (List.mem_cons_self ..))
  obtain ⟨out_bare, out_g, out_h⟩ := parts.head
  have whole := parts.whole
  rw [← Multiset.cons_coe, Multiset.cons_add] at whole
  have out : p ∉ (bare : Multiset Nat) + (g + h) := by simp [out_bare, out_g, out_h]
  have kept {a : Nat} (member : a ∈ (bare : Multiset Nat) + (g + h)) : m'.cells a = m.cells a := by
    refine erases.kept a fun same => out ?_
    rwa [← Multiset.mem_singleton.mp same]
  refine ⟨m', freed, g, h, _, parts.hangs.frame fun a member => kept (by simp [member]),
    parts.rooted.frame fun a member => kept (by simp [member]), parts.inside, fun a member => ?_, rfl, ?_, ?_, ?_, ?_⟩
  · rw [kept (by simp [member])]
    exact parts.alive a (List.mem_cons_of_mem _ member)
  · have apart := parts.apart
    rw [whole, Multiset.nodup_cons] at apart
    exact apart.2
  · exact fun a member => parts.fresh a (by rw [whole]; exact Multiset.mem_cons_of_mem member)
  · intro a away
    by_cases same : a = p
    · subst same
      rw [erases.erased a (Multiset.mem_singleton_self a), parts.fresh a (by rw [whole]; exact Multiset.mem_cons_self ..)]
    · rw [erases.kept a (by simpa using same)]
      exact parts.others a (by rw [whole]; simpa [same] using away)
  · rw [erases.next]
    exact parts.later

/-- Tearing down what hangs from some of the loose pointers. -/
theorem erase {taken : List (Nat × κ)} {ran : Outcome (Memory β)} (owns : Owns base m hole bare (taken ++ loose) roots)
    (dispose : ∀ f, Holds m none taken f → f.Nodup → f.card ≤ m.next → ∃ m', ran = .ok m' ∧ Erases f m m') :
    ∃ m', ran = .ok m' ∧ Owns base m' hole bare loose roots := by
  obtain ⟨g, h, total, parts⟩ := owns
  obtain ⟨f, beside, holds, others, rfl⟩ := parts.hangs.of_append
  have whole : total = f + ((bare : Multiset Nat) + (beside + h)) := by
    rw [parts.whole]
    abel
  have apart := parts.apart
  rw [whole] at apart
  obtain ⟨apart_f, apart_rest, disjoint⟩ := Multiset.nodup_add.mp apart
  obtain ⟨m', here, erases⟩ := dispose f holds apart_f (holds.card_le apart_f)
  have kept {a : Nat} (member : a ∈ (bare : Multiset Nat) + (beside + h)) : m'.cells a = m.cells a :=
    erases.kept a fun other => Multiset.disjoint_left.mp disjoint other member
  refine ⟨m', here, beside, h, _, others.frame fun a member => kept (by simp [member]),
    parts.rooted.frame fun a member => kept (by simp [member]), parts.inside, fun a member => ?_, rfl, apart_rest, ?_, ?_, ?_⟩
  · rw [kept (by simp [member])]
    exact parts.alive a member
  · exact fun a member => parts.fresh a (by rw [whole]; exact Multiset.mem_add.mpr (Or.inr member))
  · intro a away
    by_cases member : a ∈ f
    · rw [erases.erased a member, parts.fresh a (by rw [whole]; exact Multiset.mem_add.mpr (Or.inl member))]
    · rw [erases.kept a member]
      refine parts.others a ?_
      rw [whole, Multiset.mem_add, not_or]
      exact ⟨member, away⟩
  · rw [erases.next]
    exact parts.later

/-- A block of the roots can be looked at apart from what it owns, and stays where it is. -/
theorem opened (owns : Owns base m none bare loose roots) (reach : ∃ f, Holds m none roots f ∧ p ∈ f) :
    ∃ k b, m.cells p = some b ∧ admits k b ∧ Owns base m (some (p, k)) bare (owned b ++ loose) roots := by
  obtain ⟨g, h, total, parts⟩ := owns
  obtain ⟨f, holds, member⟩ := reach
  cases holds.unique parts.rooted
  have apart := parts.apart
  rw [parts.whole, ← add_assoc] at apart
  obtain ⟨k, b, below, rest, content, admitted, owned_holds, rest_holds, inside, rfl⟩ :=
    parts.rooted.opened (Multiset.nodup_add.mp apart).2.1 member
  refine ⟨k, b, content, admitted, below + g, rest, total,
    { parts with hangs := owned_holds.append parts.hangs, rooted := rest_holds, inside := ?_, whole := ?_ }⟩
  · intro entry same
    cases Option.mem_some.mp same
    exact inside
  · rw [parts.whole]
    abel

theorem write_hole (owns : Owns base m (some (p, k)) bare loose roots) (admitted : admits k b) :
    ∃ m', m.write p b = .ok m' ∧ m'.cells p = some b ∧ Owns base m' (some (p, k)) bare loose roots := by
  obtain ⟨g, h, total, parts⟩ := owns
  have inside : p ∈ h := parts.inside (p, k) rfl
  have live := parts.rooted.live inside
  have apart := parts.apart
  rw [parts.whole, ← add_assoc] at apart
  have out : p ∉ (bare : Multiset Nat) + g := fun other =>
    Multiset.disjoint_left.mp (Multiset.nodup_add.mp apart).2.2 other inside
  have kept (a : Nat) (other : a ≠ p) : (m.replace p (some b) live).cells a = m.cells a := Function.update_of_ne other ..
  have self : (m.replace p (some b) live).cells p = some b := Function.update_self ..
  refine ⟨m.replace p (some b) live, by rw [Memory.write, dif_pos live]; rfl, self, g, h, total,
    parts.hangs.frame fun a member => kept a ?_, parts.rooted.rewrite fun a member => ?_, parts.inside,
    fun a member => ?_, parts.whole, parts.apart, parts.fresh, fun a away => (kept a ?_).trans (parts.others a away),
    parts.later⟩
  · rintro rfl
    exact out (Multiset.mem_add.mpr (Or.inr member))
  · by_cases same : a = p
    · subst same
      exact Or.inr ⟨k, b, rfl, self, admitted⟩
    · exact Or.inl (kept a same)
  · rw [kept a fun same => out (Multiset.mem_add.mpr (Or.inl (same ▸ member)))]
    exact parts.alive a member
  · rintro rfl
    exact away (by simp [parts.whole, inside])

theorem closed (owns : Owns base m (some (p, k)) bare (owned b ++ loose) roots) (content : m.cells p = some b)
    (admitted : admits k b) : Owns base m none bare loose roots := by
  obtain ⟨g, h, total, parts⟩ := owns
  obtain ⟨below, beside, taken_holds, loose_holds, rfl⟩ := parts.hangs.of_append
  have whole : total = (bare : Multiset Nat) + beside + (below + h) := by
    rw [parts.whole]
    abel
  have apart := parts.apart
  rw [whole] at apart
  refine ⟨beside, below + h, total, { parts with hangs := loose_holds, rooted := ?_, inside := ?_, whole := ?_ }⟩
  · exact parts.rooted.closed (Multiset.nodup_add.mp apart).2.1 (parts.inside (p, k) rfl) content admitted taken_holds
  · simp
  · rw [whole, add_assoc]

/-- The pointers of the caller are roots or loose, as one likes. -/
theorem take {taken : List (Nat × κ)} (owns : Owns base m none bare loose (taken ++ roots)) :
    Owns base m none bare (taken ++ loose) roots := by
  obtain ⟨g, h, total, parts⟩ := owns
  obtain ⟨f, beside, holds, others, rfl⟩ := parts.rooted.of_append
  exact ⟨f + g, beside, total, { parts with
    hangs := holds.append parts.hangs, rooted := others, inside := by simp, whole := by rw [parts.whole]; abel }⟩

theorem give {taken : List (Nat × κ)} (owns : Owns base m none bare (taken ++ loose) roots) :
    Owns base m none bare loose (taken ++ roots) := by
  obtain ⟨g, h, total, parts⟩ := owns
  obtain ⟨f, beside, holds, others, rfl⟩ := parts.hangs.of_append
  exact ⟨beside, f + h, total, { parts with
    hangs := others, rooted := holds.append parts.rooted, inside := by simp, whole := by rw [parts.whole]; abel }⟩

/-- A new block that owns nothing. -/
theorem alloc_loose (owns : Owns base m hole bare loose roots) (made : m.alloc b = (p, m')) (admitted : admits k b)
    (alone : owned b = []) : Owns base m' hole bare ((p, k) :: loose) roots := by
  refine fill (b := b) ?_ (alloc_content made) admitted
  rw [alone]
  exact owns.alloc made

/-- A bare block is written, and takes some of the loose pointers. -/
theorem write_fill (k : κ) (b : β) (owns : Owns base m hole (p :: bare) (owned b ++ loose) roots) (admitted : admits k b) :
    ∃ m', m.write p b = .ok m' ∧ Owns base m' hole bare ((p, k) :: loose) roots := by
  obtain ⟨m', wrote, content, owns⟩ := owns.write_bare b
  exact ⟨m', wrote, owns.fill content admitted⟩

/-- The block at the hole is written, and takes some of the loose pointers. -/
theorem write_closed {rest : List (Nat × κ)} (b : β) (owns : Owns base m (some (p, k)) bare loose roots)
    (admitted : admits k b) (same : loose.Perm (owned b ++ rest)) :
    ∃ m', m.write p b = .ok m' ∧ Owns base m' none bare rest roots := by
  obtain ⟨m', wrote, content, owns⟩ := owns.write_hole admitted
  exact ⟨m', wrote, closed (owns.perm same (.refl _)) content admitted⟩

/-- Between two calls, the blocks that the memory has and `base` has not are
those that hang from the roots, each by one path. -/
theorem blocks (owns : Owns base m none [] [] roots) :
    ∃ blocks, Holds m none roots blocks ∧ blocks.Nodup ∧ ∀ a, a ∈ blocks ↔ m.cells a ≠ base.cells a := by
  obtain ⟨g, h, total, parts⟩ := owns
  obtain ⟨hangs, rooted, -, -, whole, apart, fresh, others, -⟩ := parts
  cases hangs
  rw [Multiset.coe_nil, zero_add, zero_add] at whole
  subst whole
  refine ⟨total, rooted, apart, fun a => ⟨fun member same => ?_, fun other => ?_⟩⟩
  · have live := rooted.live member
    rw [same, fresh a member] at live
    cases live
  · by_contra out
    exact other (others a out)

end Owns
end Ownership
