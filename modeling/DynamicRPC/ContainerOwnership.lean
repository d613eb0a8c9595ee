import DynamicRPC.ContainerFree
import DynamicRPC.HashtableSpec
import DynamicRPC.Library.Runs

namespace DynamicRPC.Heap
open Outcome Ownership

/-- The container that a setter stores, which the caller owned before. -/
def Stored.offered : Stored → List (Nat × Kind)
  | .container type pointer _ => ((pointerKind type).map (Prod.mk pointer)).toList
  | _ => []

def Native.offered : Native → List (Nat × Kind)
  | .stored s => s.offered
  | _ => []

/-- What an element that was taken apart leaves to the caller: scalars are copied. -/
def HeapElement.handed (e : HeapElement) : List (Nat × Kind) := if e.isPacked then [] else e.owned

section Elements
variable {base m : Memory Block} {hole : Option (Nat × Kind)} {bare : List Nat} {loose roots : List (Nat × Kind)}
  {element : Nat} {e : HeapElement}

theorem elementFill_owns (s : Stored) (owns : Owns base m hole (element :: bare) (s.offered ++ loose) roots) :
    ∃ m', elementFill m element s = .ok m' ∧ Owns base m' hole bare ((element, .element) :: loose) roots := by
  cases s with
  | scalar type packedData wide =>
    cases made : m.alloc .unwritten with | mk record m₁
    cases made' : m₁.alloc (.bytes packedData) with | mk data m₂
    have ok : HeapElement.Ok ⟨record, true, type⟩ := by
      rw [HeapElement.Ok, wide]
      rfl
    have owns := (owns.alloc made).alloc_loose (k := Kind.packedData type) made' wide rfl
    obtain ⟨m₃, wrote, owns⟩ := owns.write_fill (Kind.record type) (Block.drpcType type data) rfl
    obtain ⟨last, wrote', owns⟩ := owns.write_fill Kind.element (Block.element ⟨record, true, type⟩) ok
    exact ⟨last, by simp only [elementFill, made, made', wrote, ok_bind, wrote'], owns⟩
  | str s =>
    cases made : m.alloc (.string s) with | mk data m₁
    have owns := owns.alloc_loose (k := Kind.string) made trivial rfl
    obtain ⟨last, wrote, owns⟩ := owns.write_fill Kind.element (Block.element ⟨data, false, .dStr⟩) rfl
    exact ⟨last, by simp only [elementFill, made, wrote], owns⟩
  | sizedbuf block =>
    cases made : m.alloc (.bytes block) with | mk data m₁
    have owns := owns.alloc_loose (k := Kind.bytes) made trivial rfl
    obtain ⟨last, wrote, owns⟩ := owns.write_fill Kind.element (Block.element ⟨data, false, .dSizedbuf⟩) rfl
    exact ⟨last, by simp only [elementFill, made, wrote], owns⟩
  | container type pointer isNested =>
    have ok : HeapElement.Ok ⟨pointer, false, type⟩ := by
      cases type <;> first | rfl | cases isNested
    exact owns.write_fill Kind.element (Block.element ⟨pointer, false, type⟩) ok

theorem write_kept {p q : Nat} {b : Block} {m' : Memory Block} (wrote : m.write p b = .ok m') (other : q ≠ p) :
    m'.cells q = m.cells q := by
  rw [(Memory.write_eq_ok.mp wrote).2.1, Function.update_of_ne other]

/-- Filling an element leaves every other block. -/
theorem elementFill_kept {s : Stored} {m' : Memory Block} (filled : elementFill m element s = .ok m') {q : Nat} {b : Block}
    (live : m.cells q = some b) (other : q ≠ element) : m'.cells q = some b := by
  cases s with
  | scalar type packedData wide =>
    cases made : m.alloc .unwritten with | mk record m₁
    cases made' : m₁.alloc (.bytes packedData) with | mk data m₂
    simp only [elementFill, made, made'] at filled
    obtain ⟨m₃, wrote, wrote'⟩ := bind_eq_ok.mp filled
    have older : q ≠ record := by
      have at_next : m.next = record := congrArg Prod.fst made
      exact at_next ▸ Nat.ne_of_lt (Memory.lt_of_live live)
    rw [write_kept wrote' other, write_kept wrote older]
    exact alloc_kept made' (alloc_kept made live)
  | str s =>
    cases made : m.alloc (.string s) with | mk data m₁
    simp only [elementFill, made] at filled
    rw [write_kept filled other]
    exact alloc_kept made live
  | sizedbuf block =>
    cases made : m.alloc (.bytes block) with | mk data m₁
    simp only [elementFill, made] at filled
    rw [write_kept filled other]
    exact alloc_kept made live
  | container type pointer isNested => rw [write_kept filled other, live]

theorem release_owns (owns : Owns base m hole bare (e.owned ++ loose) roots) (ok : e.Ok) :
    ∃ m', release m e = .ok m' ∧ Owns base m' hole bare loose roots :=
  owns.erase fun _ holds apart small => elementRelease_erases (containerFree_frees m.next) ok holds apart small

/-- An element among the loose pointers, apart from what it owns. -/
theorem strip_element (owns : Owns base m hole bare ((element, .element) :: loose) roots) :
    ∃ e, readElement m element = .ok e ∧ e.Ok ∧ Owns base m hole (element :: bare) (e.owned ++ loose) roots := by
  obtain ⟨b, content, admitted, owns⟩ := owns.strip
  obtain ⟨e, rfl, ok⟩ := admits_element admitted
  exact ⟨e, readElement_eq content, ok, owns⟩

theorem elementGet_returns (owns : Owns base m hole bare (e.owned ++ loose) roots) (ok : e.Ok) :
    ∃ got, elementGet m e = .ok got := by
  rw [elementGet]
  cases scalar : e.type.scalarWidth with
  | none => exact ⟨_, rfl⟩
  | some width =>
    rw [HeapElement.Ok, scalar] at ok
    rw [HeapElement.owned, ok] at owns
    obtain ⟨b, content, admitted, owns⟩ := owns.strip
    obtain ⟨data, rfl⟩ := admits_record admitted
    obtain ⟨b, content', admitted', -⟩ := owns.strip
    obtain ⟨block, rfl, wide⟩ := admits_packedData admitted'
    rw [scalar, Option.some.injEq] at wide
    refine ⟨.scalar (block.take width), ?_⟩
    simp only [drpcToScalar, readRecord_eq content, Memory.read_eq_ok.mpr content', ok_bind, wide, lt_irrefl, if_false,
      pure_eq_ok]

/-- An element that a queue gives away: its block is freed, and a container or a
string is the caller's. -/
theorem elementPop_owns (owns : Owns base m hole (element :: bare) (e.owned ++ loose) roots) (ok : e.Ok) :
    ∃ m' got, (do let (m, got) ← elementPop m e; let m ← m.free element; pure (m, got)) = .ok (m', got) ∧
      Owns base m' hole bare (e.handed ++ loose) roots := by
  obtain ⟨got, gets⟩ := elementGet_returns owns ok
  cases packed : e.isPacked with
  | true =>
    have scalar : e.type.scalarWidth.isSome = true := by rw [← ok, packed]
    obtain ⟨middle, freed, owns⟩ := release_owns owns ok
    obtain ⟨last, freed', owns⟩ := owns.free_bare
    rw [release, elementRelease, if_pos packed] at freed
    rw [HeapElement.handed, if_pos packed]
    refine ⟨last, got, ?_, owns⟩
    obtain ⟨record, first, second⟩ := bind_eq_ok.mp freed
    simp only [elementPop, gets, ok_bind, if_pos scalar, first, second, pure_eq_ok, freed']
  | false =>
    have pointer : ¬ e.type.scalarWidth.isSome = true := by rw [← ok, packed]; simp
    obtain ⟨last, freed, owns⟩ := owns.free_bare
    rw [HeapElement.handed, if_neg (by simp [packed])]
    refine ⟨last, got, ?_, owns⟩
    simp only [elementPop, gets, ok_bind, if_neg pointer, pure_eq_ok, freed]

theorem readKeys_eq {table : Hashtable HeapField} (owns : Owns base m hole bare loose roots)
    (held : ∀ binding ∈ table.bindings, (binding.2.key, Kind.key binding.1) ∈ loose) : readKeys m table = .ok () := by
  rw [readKeys]
  generalize table.bindings = bindings at held
  induction bindings with
  | nil => rfl
  | cons binding bindings ih =>
    obtain ⟨first, rest⟩ := List.forall_mem_cons.mp held
    obtain ⟨b, content, admitted⟩ := owns.live first
    rw [admits_key admitted] at content
    simp only [List.forM, Memory.read_eq_ok.mpr content, ok_bind, if_true, pure_eq_ok]
    exact ih rest

end Elements

/-- The pointer is a root, or leads to a block below one. -/
def Reaches (m : Memory Block) (roots : List (Nat × Kind)) (p : Nat) : Prop := ∃ blocks, Holds m none roots blocks ∧ p ∈ blocks

section Structs
variable {base m : Memory Block} {loose roots : List (Nat × Kind)} {p : Nat} {d : DStruct HeapField}
  {heapKeys : List (Nat × CString)} {key : CString}

theorem opened_dstruct (owns : Owns base m none [] loose roots) (reach : Reaches m roots p)
    (content : m.cells p = some (.dstruct d heapKeys)) :
    Block.admits .dstruct (.dstruct d heapKeys) ∧ Owns base m (some (p, .dstruct)) []
      (d.hashtable.bindings.map deedOfField ++ heapKeys.map deedOfKey ++ loose) roots := by
  obtain ⟨k, b, content', admitted, owns⟩ := owns.opened reach
  rw [content] at content'
  cases content'
  cases k <;> first | exact ⟨admitted, owns⟩ | cases admitted

/-- The struct is written back with what hangs from it now. -/
theorem closed_dstruct {bare : List Nat} {rest : List (Nat × Kind)} (d : DStruct HeapField)
    (owns : Owns base m (some (p, .dstruct)) bare loose roots) (wf : d.hashtable.Wf)
    (held : ∀ binding ∈ d.hashtable.bindings, (binding.2.key, binding.1) ∈ heapKeys)
    (whole : loose.Perm (d.hashtable.bindings.map deedOfField ++ heapKeys.map deedOfKey ++ rest)) :
    ∃ m', m.write p (.dstruct d heapKeys) = .ok m' ∧ Owns base m' none bare rest roots :=
  owns.write_closed (Block.dstruct d heapKeys) ⟨wf, held⟩ whole

/-- The probe for the key ends. -/
def Probes (d : DStruct HeapField) (key : CString) : Prop := Returns (hashtableFindSlot d.hashtable key)

theorem Probes.get (probes : Probes d key) (wf : d.hashtable.Wf) :
    (key ∉ d.hashtable.keys ∧ 0 < d.hashtable.nullCount ∧ hashtableGet d.hashtable key = .ok none) ∨
      ∃ field, (key, field) ∈ d.hashtable.bindings ∧ hashtableGet d.hashtable key = .ok (some field) := by
  have room := (hashtableFindSlot_returns_iff wf.positive key).mp probes
  have get := wf.get_eq room
  cases found : d.hashtable.lookup key with
  | some field => exact Or.inr ⟨field, wf.lookup_eq_some.mp found, by rw [get, found]⟩
  | none =>
    have absent : key ∉ d.hashtable.keys := Assoc.lookup_eq_none_iff_not_mem.mp found
    exact Or.inl ⟨absent, room.resolve_right absent, by rw [get, found]⟩

theorem key_deed {heapKey : Nat} {s : CString} (member : (heapKey, s) ∈ heapKeys) (fields loose : List (Nat × Kind)) :
    (heapKey, Kind.key s) ∈ fields ++ heapKeys.map deedOfKey ++ loose :=
  List.mem_append_left _ (List.mem_append_right _ (List.mem_map_of_mem (f := deedOfKey) member))

theorem mem_keys {field : HeapField} (member : (key, field) ∈ d.hashtable.bindings) : key ∈ d.hashtable.keys :=
  List.mem_map.mpr ⟨_, member, rfl⟩

/-- Removing a field takes its binding out, and no other. -/
theorem hashtableRemove_field {field : HeapField} (wf : d.hashtable.Wf) (member : (key, field) ∈ d.hashtable.bindings) :
    ∃ table rest, hashtableRemove d.hashtable key = .ok table ∧ table.Wf ∧ table.bindings.Perm rest ∧
      d.hashtable.bindings.Perm ((key, field) :: rest) := by
  obtain ⟨table, old, removed, rewritten⟩ := hashtableRemove_rewritten wf (mem_keys member)
  obtain ⟨rest, before, after⟩ := rewritten.bindings
  have same : old = field := by
    have held := wf.lookup_eq_some.mpr (before.mem_iff.mpr List.mem_cons_self)
    rw [wf.lookup_eq_some.mpr member] at held
    exact (Option.some.inj held).symm
  exact ⟨table, rest, removed, rewritten.wf, after, same ▸ before⟩

/-- The element of a field stands apart from all else that hangs from a struct. -/
theorem deeds_perm {field : HeapField} {rest : List (CString × HeapField)}
    (same : d.hashtable.bindings.Perm ((key, field) :: rest)) (others : List (Nat × Kind)) :
    (d.hashtable.bindings.map deedOfField ++ others).Perm ((field.element, .element) :: (rest.map deedOfField ++ others)) :=
  (same.map deedOfField).append_right others

theorem dStructRemove_owns (owns : Owns base m none [] [] roots) (reach : Reaches m roots p)
    (content : m.cells p = some (.dstruct d heapKeys)) (probes : Probes d key) :
    ∃ m', dStructRemove m p key = .ok m' ∧ Owns base m' none [] [] roots := by
  obtain ⟨⟨wf, keys⟩, opened⟩ := opened_dstruct owns reach content
  have read := readStruct_eq content
  have compared := readKeys_eq opened fun binding member => key_deed (keys binding member) _ _
  rcases probes.get wf with ⟨-, -, get⟩ | ⟨field, member, get⟩
  · exact ⟨m, by simp only [dStructRemove, read, ok_bind, compared, get, pure_eq_ok], owns⟩
  · obtain ⟨table, rest, removed, wf', after, before⟩ := hashtableRemove_field wf member
    have held (binding : CString × HeapField) (inside : binding ∈ table.bindings) : (binding.2.key, binding.1) ∈ heapKeys :=
      keys binding (before.mem_iff.mpr (List.mem_cons_of_mem _ (after.mem_iff.mp inside)))
    have split : (d.hashtable.bindings.map deedOfField ++ heapKeys.map deedOfKey ++ []).Perm
        (table.bindings.map deedOfField ++ heapKeys.map deedOfKey ++ [(field.element, Kind.element)]) := by
      rw [List.append_nil]
      refine (deeds_perm before _).trans ((List.perm_append_singleton _ _).symm.trans ?_)
      exact ((after.symm.map deedOfField).append_right _).append_right _
    obtain ⟨first, wrote, owns⟩ := closed_dstruct ⟨table, d.currentLen - 1⟩ opened wf' held split
    obtain ⟨e, readE, ok, owns⟩ := strip_element owns
    obtain ⟨second, released, owns⟩ := release_owns owns ok
    obtain ⟨last, freed, owns⟩ := owns.free_bare
    exact ⟨last, by simp only [dStructRemove, read, ok_bind, compared, get, removed, wrote, readE, released, freed], owns⟩

/-- What a field leaves to the caller when it is unlinked, if it is. -/
theorem dStructUnlink_owns (owns : Owns base m none [] [] roots) (reach : Reaches m roots p)
    (content : m.cells p = some (.dstruct d heapKeys)) (probes : Probes d key) :
    ∃ m' unlinked, dStructUnlink m p key = .ok (m', unlinked) ∧
      Owns base m' none [] [] ((unlinked.map HeapElement.handed).getD [] ++ roots) := by
  obtain ⟨⟨wf, keys⟩, opened⟩ := opened_dstruct owns reach content
  have read := readStruct_eq content
  have compared := readKeys_eq opened fun binding member => key_deed (keys binding member) _ _
  rcases probes.get wf with ⟨-, -, get⟩ | ⟨field, member, get⟩
  · exact ⟨m, none, by simp only [dStructUnlink, read, ok_bind, compared, get, pure_eq_ok], owns⟩
  · obtain ⟨table, rest, removed, wf', after, before⟩ := hashtableRemove_field wf member
    rw [List.append_assoc] at opened
    obtain ⟨e, readE, ok, stripped⟩ := strip_element (opened.perm (deeds_perm before _) (.refl _))
    by_cases packed : e.isPacked = true
    · exact ⟨m, none, by simp only [dStructUnlink, read, ok_bind, compared, get, readE, if_pos packed, pure_eq_ok], owns⟩
    · have held (binding : CString × HeapField) (inside : binding ∈ table.bindings) :
          (binding.2.key, binding.1) ∈ heapKeys :=
        keys binding (before.mem_iff.mpr (List.mem_cons_of_mem _ (after.mem_iff.mp inside)))
      obtain ⟨first, freed, owns⟩ := stripped.free_bare
      have split : (e.owned ++ (rest.map deedOfField ++ (heapKeys.map deedOfKey ++ []))).Perm
          (table.bindings.map deedOfField ++ heapKeys.map deedOfKey ++ (e.owned ++ [])) := by
        rw [List.append_nil, List.append_nil]
        exact List.perm_append_comm.trans (((after.symm.map deedOfField).append_right _).append_right _)
      obtain ⟨last, wrote, owns⟩ := closed_dstruct ⟨table, d.currentLen - 1⟩ owns wf' held split
      refine ⟨last, some e, ?_, ?_⟩
      · simp only [dStructUnlink, read, ok_bind, compared, get, readE, if_neg packed, freed, removed, wrote, pure_eq_ok]
      · rw [Option.map_some, Option.getD_some, HeapElement.handed, if_neg packed]
        exact owns.give

theorem dStructGet_returns (owns : Owns base m none [] [] roots) (reach : Reaches m roots p)
    (content : m.cells p = some (.dstruct d heapKeys)) (probes : Probes d key) (type : DrpcTypes) :
    ∃ got, dStructGet m p key type = .ok got := by
  obtain ⟨⟨wf, keys⟩, opened⟩ := opened_dstruct owns reach content
  have read := readStruct_eq content
  have compared := readKeys_eq opened fun binding member => key_deed (keys binding member) _ _
  rcases probes.get wf with ⟨-, -, get⟩ | ⟨field, member, get⟩
  · exact ⟨none, by simp only [dStructGet, read, ok_bind, compared, get, pure_eq_ok]⟩
  · obtain ⟨table, rest, -, -, -, before⟩ := hashtableRemove_field wf member
    rw [List.append_assoc] at opened
    obtain ⟨e, readE, ok, stripped⟩ := strip_element (opened.perm (deeds_perm before _) (.refl _))
    obtain ⟨got, gets⟩ := elementGet_returns stripped ok
    by_cases same : e.type = type
    · exact ⟨some got, by simp only [dStructGet, read, ok_bind, compared, get, readE, if_pos same, gets, pure_eq_ok]⟩
    · exact ⟨none, by simp only [dStructGet, read, ok_bind, compared, get, readE, if_neg same, pure_eq_ok]⟩

/-- The start of `d_struct_set`: a copy of the key, which goes with the struct from then on. -/
theorem dStructSet_start {offered : List (Nat × Kind)} (owns : Owns base m none [] [] (offered ++ roots))
    (reach : Reaches m roots p) (content : m.cells p = some (.dstruct d heapKeys)) :
    ∃ heapKey m₁ m₂, m.alloc (.string key) = (heapKey, m₁) ∧ readStruct m₁ p = .ok (d, heapKeys) ∧
      m₁.write p (.dstruct d (heapKeys ++ [(heapKey, key)])) = .ok m₂ ∧ readKeys m₂ d.hashtable = .ok () ∧
      Owns base m₂ (some (p, .dstruct)) [] (d.hashtable.bindings.map deedOfField ++
        ((heapKeys ++ [(heapKey, key)]).map deedOfKey ++ offered)) roots := by
  obtain ⟨⟨wf, keys⟩, opened⟩ := opened_dstruct owns.take reach content
  cases made : m.alloc (.string key) with | mk heapKey m₁
  have owns := opened.alloc_loose (k := Kind.key key) made rfl rfl
  have admitted : Block.admits .dstruct (.dstruct d (heapKeys ++ [(heapKey, key)])) :=
    ⟨wf, fun binding member => List.mem_append_left _ (keys binding member)⟩
  obtain ⟨m₂, wrote, -, owns⟩ := owns.write_hole admitted
  have same : ((heapKey, Kind.key key) :: (d.hashtable.bindings.map deedOfField ++ heapKeys.map deedOfKey ++
      (offered ++ []))).Perm (d.hashtable.bindings.map deedOfField ++
        ((heapKeys ++ [(heapKey, key)]).map deedOfKey ++ offered)) := by
    rw [List.map_append, List.append_nil, List.map_cons, List.map_nil, List.append_assoc, List.append_assoc]
    exact List.perm_middle.symm.trans (List.perm_middle.symm.append_left _)
  have owns := owns.perm same (.refl _)
  refine ⟨heapKey, m₁, m₂, rfl, readStruct_eq (alloc_kept made content), wrote, ?_, owns⟩
  refine readKeys_eq owns fun binding member => ?_
  rw [← List.append_assoc]
  exact key_deed (List.mem_append_left _ (keys binding member)) _ _

theorem dStructSet_owns {native : Native} (owns : Owns base m none [] [] (native.offered ++ roots))
    (reach : Reaches m roots p) (content : m.cells p = some (.dstruct d heapKeys)) (probes : Probes d key) :
    ∃ m', dStructSet m p key native = .ok m' ∧ Owns base m' none [] [] roots := by
  have nonnull : p ≠ 0 := Memory.ne_zero_of_live content
  by_cases null : native = .null
  · subst null
    exact ⟨m, by rw [dStructSet, if_neg nonnull]; rfl, owns⟩
  obtain ⟨⟨wf, keys⟩, -⟩ := opened_dstruct owns.take reach content
  obtain ⟨heapKey, m₁, m₂, made, read, wrote, compared, opened⟩ := dStructSet_start owns reach content
  generalize grown : heapKeys ++ [(heapKey, key)] = heapKeys' at *
  have held (binding : CString × HeapField) (member : binding ∈ d.hashtable.bindings) :
      (binding.2.key, binding.1) ∈ heapKeys' := grown ▸ List.mem_append_left _ (keys binding member)
  have held' : (heapKey, key) ∈ heapKeys' := grown ▸ List.mem_append_right _ List.mem_cons_self
  rcases probes.get wf with ⟨absent, room, get⟩ | ⟨field, member, get⟩
  · cases made' : m₂.alloc .unwritten with | mk element m₃
    obtain ⟨table, inserts, inserted⟩ := hashtableSet_inserted wf ⟨heapKey, element⟩ room absent
    have spare : Owns base m₃ (some (p, .dstruct)) [element] (native.offered ++
        (d.hashtable.bindings.map deedOfField ++ heapKeys'.map deedOfKey)) roots := by
      refine (opened.alloc made').perm ?_ (.refl _)
      rw [← List.append_assoc]
      exact List.perm_append_comm
    cases native with
    | null => exact absurd rfl null
    | stored s =>
      obtain ⟨m₄, filled, owns⟩ := elementFill_owns s spare
      have whole : ((element, Kind.element) :: (d.hashtable.bindings.map deedOfField ++ heapKeys'.map deedOfKey)).Perm
          (table.bindings.map deedOfField ++ heapKeys'.map deedOfKey ++ []) := by
        rw [List.append_nil]
        exact ((inserted.bindings.map deedOfField).append_right _).symm
      obtain ⟨last, closes, owns⟩ := closed_dstruct ⟨table, d.currentLen + 1⟩ owns inserted.wf (fun binding inside => by
        rcases List.mem_cons.mp (inserted.bindings.mem_iff.mp inside) with rfl | inside
        · exact held'
        · exact held binding inside) whole
      refine ⟨last, ?_, owns⟩
      simp only [dStructSet, if_neg nonnull, made, read, ok_bind, grown, wrote, compared, get, made', inserts, filled, closes]
    | unsupported =>
      -- the table is as it was, but for a tombstone
      obtain ⟨table', rest, removes, wf', after, before⟩ := @hashtableRemove_field ⟨table, d.currentLen⟩ key
        ⟨heapKey, element⟩ inserted.wf (inserted.bindings.mem_iff.mpr List.mem_cons_self)
      have same : table'.bindings.Perm d.hashtable.bindings := after.trans (before.symm.trans inserted.bindings).cons_inv
      have whole : (d.hashtable.bindings.map deedOfField ++ heapKeys'.map deedOfKey).Perm
          (table'.bindings.map deedOfField ++ heapKeys'.map deedOfKey ++ []) := by
        rw [List.append_nil]
        exact (same.symm.map deedOfField).append_right _
      obtain ⟨m₄, freed, owns⟩ := spare.free_bare
      obtain ⟨last, closes, owns⟩ := closed_dstruct ⟨table', d.currentLen⟩ owns wf'
        (fun binding inside => held binding (same.mem_iff.mp inside)) whole
      refine ⟨last, ?_, owns⟩
      simp only [dStructSet, if_neg nonnull, made, read, ok_bind, grown, wrote, compared, get, made', inserts, removes,
        freed, closes]
  · obtain ⟨table, rest, removes, wf', after, before⟩ := hashtableRemove_field wf member
    obtain ⟨e, readE, ok, stripped⟩ := strip_element (opened.perm (deeds_perm before _) (.refl _))
    obtain ⟨m₃, released, emptied⟩ := release_owns stripped ok
    have spare : Owns base m₃ (some (p, .dstruct)) [field.element] (native.offered ++
        (rest.map deedOfField ++ heapKeys'.map deedOfKey)) roots := by
      refine emptied.perm ?_ (.refl _)
      rw [← List.append_assoc]
      exact List.perm_append_comm
    cases native with
    | null => exact absurd rfl null
    | stored s =>
      obtain ⟨m₄, filled, owns⟩ := elementFill_owns s spare
      have whole : ((field.element, Kind.element) :: (rest.map deedOfField ++ heapKeys'.map deedOfKey)).Perm
          (d.hashtable.bindings.map deedOfField ++ heapKeys'.map deedOfKey ++ []) := by
        rw [List.append_nil]
        exact (deeds_perm before _).symm
      obtain ⟨last, closes, owns⟩ := closed_dstruct ⟨d.hashtable, d.currentLen - 1 + 1⟩ owns wf held whole
      refine ⟨last, ?_, owns⟩
      simp only [dStructSet, if_neg nonnull, made, read, ok_bind, grown, wrote, compared, get, readE, released, filled,
        closes]
    | unsupported =>
      have whole : (rest.map deedOfField ++ heapKeys'.map deedOfKey).Perm
          (table.bindings.map deedOfField ++ heapKeys'.map deedOfKey ++ []) := by
        rw [List.append_nil]
        exact (after.symm.map deedOfField).append_right _
      obtain ⟨m₄, freed, owns⟩ := spare.free_bare
      obtain ⟨last, closes, owns⟩ := closed_dstruct ⟨table, d.currentLen - 1⟩ owns wf' (fun binding inside =>
        held binding (before.mem_iff.mpr (List.mem_cons_of_mem _ (after.mem_iff.mp inside)))) whole
      refine ⟨last, ?_, owns⟩
      simp only [dStructSet, if_neg nonnull, made, read, ok_bind, grown, wrote, compared, get, readE, released, removes,
        freed, closes]

end Structs

section Queues
variable {base m : Memory Block} {loose roots : List (Nat × Kind)} {p : Nat} {que : List Nat}

theorem opened_dqueue (owns : Owns base m none [] loose roots) (reach : Reaches m roots p)
    (content : m.cells p = some (.dqueue que)) :
    Owns base m (some (p, .dqueue)) [] (que.map deedOfElement ++ loose) roots := by
  obtain ⟨k, b, content', admitted, owns⟩ := owns.opened reach
  rw [content] at content'
  cases content'
  cases k <;> first | exact owns | cases admitted

theorem dQueuePush_owns {native : Native} (owns : Owns base m none [] [] (native.offered ++ roots))
    (reach : Reaches m roots p) (content : m.cells p = some (.dqueue que)) (nonnull : native ≠ .null) :
    ∃ m', dQueuePush m p native = .ok m' ∧ Owns base m' none [] [] roots := by
  have live : p ≠ 0 := Memory.ne_zero_of_live content
  cases made : m.alloc .unwritten with | mk element m₁
  cases native with
  | null => exact absurd rfl nonnull
  | unsupported =>
    obtain ⟨last, freed, owns⟩ := (owns.alloc made).free_bare
    exact ⟨last, by simp only [dQueuePush, if_neg live, made, freed], owns⟩
  | stored s =>
    have opened := opened_dqueue owns.take reach content
    have spare : Owns base m₁ (some (p, .dqueue)) [element] (s.offered ++ que.map deedOfElement) roots := by
      refine (opened.alloc made).perm ?_ (.refl _)
      rw [List.append_nil]
      exact List.perm_append_comm
    have older : p ≠ element := by
      have at_next : m.next = element := congrArg Prod.fst made
      exact at_next ▸ Nat.ne_of_lt (Memory.lt_of_live content)
    obtain ⟨m₂, filled, owns⟩ := elementFill_owns s spare
    have read := readQueue_eq (elementFill_kept filled (alloc_kept made content) older)
    have whole : ((element, Kind.element) :: que.map deedOfElement).Perm
        ((Block.dqueue (que ++ [element])).owned ++ []) := by
      rw [List.append_nil, Block.owned, List.map_append]
      exact (List.perm_append_singleton _ _).symm
    obtain ⟨last, closes, owns⟩ := owns.write_closed (Block.dqueue (que ++ [element])) trivial whole
    exact ⟨last, by simp only [dQueuePush, if_neg live, made, filled, read, ok_bind, closes], owns⟩

/-- What `d_queue_pop` and `d_queue_pop_with_type` give away is the caller's. -/
theorem dQueuePopWith_owns (wanted : Option DrpcTypes) (owns : Owns base m none [] [] roots) (reach : Reaches m roots p)
    (content : m.cells p = some (.dqueue que)) :
    ∃ m' popped, dQueuePopWith m wanted p = .ok (m', popped) ∧
      Owns base m' none [] [] ((popped.map fun result => result.1.handed).getD [] ++ roots) := by
  have live : p ≠ 0 := Memory.ne_zero_of_live content
  have opened := opened_dqueue owns reach content
  cases que with
  | nil => exact ⟨m, none, by simp only [dQueuePopWith, if_neg live, readQueue_eq content, ok_bind, pure_eq_ok], owns⟩
  | cons element que =>
    have admitted : Block.admits .dqueue (.dqueue que) := trivial
    obtain ⟨m₁, wrote, content', opened⟩ := opened.write_hole admitted
    have split : (deedOfElement element :: (que.map deedOfElement ++ [])).Perm
        ((Block.dqueue que).owned ++ [deedOfElement element]) := by
      rw [List.append_nil]
      exact (List.perm_append_singleton _ _).symm
    have closed := Owns.closed (opened.perm split (.refl _)) content' admitted
    obtain ⟨e, readE, ok, stripped⟩ := strip_element closed
    by_cases other : ∃ type ∈ wanted, e.type ≠ type
    · have whole : (deedOfElement element :: (que.map deedOfElement ++ [])).Perm
          ((Block.dqueue (que ++ [element])).owned ++ []) := by
        rw [List.append_nil, List.append_nil, Block.owned, List.map_append]
        exact (List.perm_append_singleton _ _).symm
      obtain ⟨last, closes, owns⟩ := opened.write_closed (Block.dqueue (que ++ [element])) trivial whole
      exact ⟨last, none, by simp only [dQueuePopWith, if_neg live, readQueue_eq content, ok_bind, wrote, readE, if_pos other,
        closes, pure_eq_ok], owns⟩
    · obtain ⟨last, got, popped, owns⟩ := elementPop_owns stripped ok
      refine ⟨last, some (e, got), ?_, owns.give⟩
      obtain ⟨⟨m₂, got'⟩, pops, rest⟩ := bind_eq_ok.mp popped
      obtain ⟨m₃, freed, same⟩ := bind_eq_ok.mp rest
      cases same
      simp only [dQueuePopWith, if_neg live, readQueue_eq content, ok_bind, wrote, readE, if_neg other, pops, freed,
        pure_eq_ok]

end Queues

section Arrays
variable {base m : Memory Block} {loose roots : List (Nat × Kind)} {p : Nat} {a : DArray Nat} {index : Nat}

theorem opened_darray (owns : Owns base m none [] loose roots) (reach : Reaches m roots p)
    (content : m.cells p = some (.darray a)) : Block.admits .darray (.darray a) ∧
      Owns base m (some (p, .darray)) [] (a.elements.map deedOfElement ++ loose) roots := by
  obtain ⟨k, b, content', admitted, owns⟩ := owns.opened reach
  rw [content] at content'
  cases content'
  cases k <;> first | exact ⟨admitted, owns⟩ | cases admitted

/-- A cell of a table in which every cell can be read. -/
theorem cell_cases (admitted : Block.admits .darray (.darray a)) (index : Nat) :
    (dArrayGetInternal a index = .ok none ∧ (index < a.lookupSize → a.lookupTable[index]? = some .null)) ∨
      ∃ element, dArrayGetInternal a index = .ok (some element) ∧ a.lookupTable[index]? = some (.elem element) := by
  rw [dArrayGetInternal]
  cases found : a.lookupTable[index]? with
  | none =>
    refine Or.inl ⟨rfl, fun within => ?_⟩
    rw [List.getElem?_eq_none_iff, ← DArray.lookupSize] at found
    omega
  | some cell =>
    have member := List.mem_of_getElem? found
    cases cell with
    | uninit => exact absurd member admitted.1
    | dangling => exact absurd member admitted.2
    | null => exact Or.inl ⟨rfl, fun _ => rfl⟩
    | elem element => exact Or.inr ⟨element, rfl, rfl⟩

/-- Writing a cell that can be read keeps the table readable. -/
theorem admits_set (admitted : Block.admits .darray (.darray a)) (index realSize : Nat) {cell : Cell Nat}
    (initialised : cell ≠ .uninit) (live : cell ≠ .dangling) :
    Block.admits .darray (.darray ⟨realSize, a.lookupTable.set index cell⟩) := by
  refine ⟨fun member => ?_, fun member => ?_⟩
  · exact (List.mem_or_eq_of_mem_set member).elim admitted.1 fun same => initialised same.symm
  · exact (List.mem_or_eq_of_mem_set member).elim admitted.2 fun same => live same.symm

/-- Emptying a cell takes its element out of the array. -/
theorem dArrayDelInternal_elements {element : Nat} (found : a.lookupTable[index]? = some (.elem element)) :
    ∃ a' rest, dArrayDelInternal a index = .ok a' ∧ a' = ⟨a.realSize - 1, a.lookupTable.set index .null⟩ ∧
      a'.elements.Perm rest ∧ a.elements.Perm (element :: rest) := by
  obtain ⟨rest, before, after⟩ := Assoc.filterMap_set_perm Cell.element found .null
  refine ⟨_, rest, ?_, rfl, after, before⟩
  rw [dArrayDelInternal, dArrayGetInternal, found]
  rfl

theorem del_split {element : Nat} {rest : List Nat} {table : List (Cell Nat)}
    (after : (table.filterMap Cell.element).Perm rest) (before : a.elements.Perm (element :: rest)) (realSize : Nat) :
    (a.elements.map deedOfElement ++ []).Perm ((Block.darray ⟨realSize, table⟩).owned ++ [deedOfElement element]) := by
  rw [List.append_nil]
  refine (before.map deedOfElement).trans ((List.perm_append_singleton _ _).symm.trans ?_)
  exact (after.symm.map deedOfElement).append_right _

/-- Writing the array leaves the elements that it points to. -/
theorem readElement_written {element : Nat} {e : HeapElement} {b : Block} {m' : Memory Block} (wrote : m.write p b = .ok m')
    (content : m.cells p = some (.darray a)) (readE : readElement m element = .ok e) : readElement m' element = .ok e := by
  have other : element ≠ p := by
    rintro rfl
    rw [readElement, Memory.read_eq_ok.mpr content] at readE
    cases readE
  rw [readElement, Memory.read, write_kept wrote other]
  exact readE

theorem dArrayRemove_owns (owns : Owns base m none [] [] roots) (reach : Reaches m roots p)
    (content : m.cells p = some (.darray a)) (index : Nat) :
    ∃ m', dArrayRemove m p index = .ok m' ∧ Owns base m' none [] [] roots := by
  obtain ⟨admitted, opened⟩ := opened_darray owns reach content
  have read := readArray_eq content
  rcases cell_cases admitted index with ⟨get, -⟩ | ⟨element, get, found⟩
  · exact ⟨m, by simp only [dArrayRemove, dArrayRemoveWith, read, ok_bind, get, pure_eq_ok], owns⟩
  · obtain ⟨a', rest, del, rfl, after, before⟩ := dArrayDelInternal_elements found
    obtain ⟨m₁, wrote, owns⟩ := opened.write_closed _ (admits_set admitted index (a.realSize - 1) (by simp) (by simp))
      (del_split after before _)
    have next : m₁.next = m.next := (Memory.write_eq_ok.mp wrote).2.2
    have owns : Owns base m₁ none [] ([deedOfElement element] ++ []) roots := owns
    obtain ⟨last, freed, owns⟩ := owns.erase fun f holds apart small =>
      elementFree_erases (containerFree_frees m.next) holds apart (next ▸ small)
    exact ⟨last, by simp only [dArrayRemove, dArrayRemoveWith, read, ok_bind, get, del, wrote, freed], owns⟩

theorem dArrayUnlink_owns (owns : Owns base m none [] [] roots) (reach : Reaches m roots p)
    (content : m.cells p = some (.darray a)) (index : Nat) :
    ∃ m' unlinked, dArrayUnlink m p index = .ok (m', unlinked) ∧
      Owns base m' none [] [] ((unlinked.map HeapElement.handed).getD [] ++ roots) := by
  obtain ⟨admitted, opened⟩ := opened_darray owns reach content
  have read := readArray_eq content
  rcases cell_cases admitted index with ⟨get, -⟩ | ⟨element, get, found⟩
  · exact ⟨m, none, by simp only [dArrayUnlink, read, ok_bind, get, pure_eq_ok], owns⟩
  · obtain ⟨a', rest, del, rfl, after, before⟩ := dArrayDelInternal_elements found
    obtain ⟨e, readE, -, -⟩ := strip_element (opened.perm ((before.map deedOfElement).append_right _) (.refl _))
    by_cases packed : e.isPacked = true
    · exact ⟨m, none, by simp only [dArrayUnlink, read, ok_bind, get, readE, if_pos packed, pure_eq_ok], owns⟩
    · obtain ⟨m₁, wrote, owns⟩ := opened.write_closed _ (admits_set admitted index (a.realSize - 1) (by simp) (by simp))
        (del_split after before _)
      obtain ⟨e', readE', -, stripped⟩ := strip_element owns
      rw [readElement_written wrote content readE] at readE'
      cases readE'
      obtain ⟨last, freed, owns⟩ := stripped.free_bare
      refine ⟨last, some e, ?_, ?_⟩
      · simp only [dArrayUnlink, read, ok_bind, get, readE, if_neg packed, del, wrote, freed, pure_eq_ok]
      · rw [Option.map_some, Option.getD_some, HeapElement.handed, if_neg packed]
        exact owns.give

theorem dArrayGet_returns (owns : Owns base m none [] [] roots) (reach : Reaches m roots p)
    (content : m.cells p = some (.darray a)) (index : Nat) (type : DrpcTypes) :
    ∃ got, dArrayGet m p index type = .ok got := by
  obtain ⟨admitted, opened⟩ := opened_darray owns reach content
  have read := readArray_eq content
  rcases cell_cases admitted index with ⟨get, -⟩ | ⟨element, get, found⟩
  · exact ⟨none, by simp only [dArrayGet, read, ok_bind, get, pure_eq_ok]⟩
  · obtain ⟨a', rest, -, -, -, before⟩ := dArrayDelInternal_elements found
    obtain ⟨e, readE, ok, stripped⟩ := strip_element (opened.perm ((before.map deedOfElement).append_right _) (.refl _))
    obtain ⟨got, gets⟩ := elementGet_returns stripped ok
    by_cases same : e.type = type
    · exact ⟨some got, by simp only [dArrayGet, read, ok_bind, get, readE, if_pos same, gets, pure_eq_ok]⟩
    · exact ⟨none, by simp only [dArrayGet, read, ok_bind, get, readE, if_neg same, pure_eq_ok]⟩

theorem dArraySetInternal_within (within : index < a.lookupSize) (element : Nat) :
    dArraySetInternal a index (some element) = (⟨a.realSize + 1, a.lookupTable.set index (.elem element)⟩, []) := by
  rw [dArraySetInternal, if_neg (by omega)]
  rfl

/-- `d_array_set` at an index that the table has. An unsupported type must not meet an element. -/
theorem dArraySet_owns {native : Native} (owns : Owns base m none [] [] (native.offered ++ roots))
    (reach : Reaches m roots p) (content : m.cells p = some (.darray a)) (nonnull : native ≠ .null)
    (within : index < a.lookupSize) (unoccupied : native = .unsupported → a.lookup index = none) :
    ∃ m', dArraySet m p index native = .ok m' ∧ Owns base m' none [] [] roots := by
  have live : p ≠ 0 := Memory.ne_zero_of_live content
  have read := readArray_eq content
  obtain ⟨admitted, opened⟩ := opened_darray owns.take reach content
  have setting := dArraySetInternal_within within
  have fits (element : Nat) : Block.admits .darray (.darray ⟨a.realSize + 1, a.lookupTable.set index (.elem element)⟩) :=
    admits_set admitted index (a.realSize + 1) (by simp) (by simp)
  rcases cell_cases admitted index with ⟨get, null⟩ | ⟨element, get, found⟩
  · cases made : m.alloc .unwritten with | mk element m₁
    cases native with
    | null => exact absurd rfl nonnull
    | unsupported =>
      obtain ⟨last, freed, owns⟩ := (owns.alloc made).free_bare
      exact ⟨last, by simp only [dArraySet, if_neg live, read, ok_bind, get, made, pure_eq_ok, freed], owns⟩
    | stored s =>
      obtain ⟨rest, before, after⟩ := Assoc.filterMap_set_perm Cell.element (null within) (.elem element)
      have spare : Owns base m₁ (some (p, .darray)) [element] (s.offered ++ a.elements.map deedOfElement) roots := by
        refine (opened.alloc made).perm ?_ (.refl _)
        rw [List.append_nil]
        exact List.perm_append_comm
      obtain ⟨m₂, filled, owns⟩ := elementFill_owns s spare
      have whole : (deedOfElement element :: a.elements.map deedOfElement).Perm
          ((Block.darray ⟨a.realSize + 1, a.lookupTable.set index (.elem element)⟩).owned ++ []) := by
        rw [List.append_nil]
        exact (((before.cons element).trans after.symm).map deedOfElement)
      obtain ⟨last, closes, owns⟩ := owns.write_closed _ (fits element) whole
      refine ⟨last, ?_, owns⟩
      simp only [dArraySet, if_neg live, read, ok_bind, get, made, pure_eq_ok, filled, setting, if_true, closes]
  · obtain ⟨rest, before, after⟩ := Assoc.filterMap_set_perm Cell.element found (.elem element)
    obtain ⟨e, readE, ok, stripped⟩ := strip_element (opened.perm ((before.map deedOfElement).append_right _) (.refl _))
    obtain ⟨m₁, released, emptied⟩ := release_owns stripped ok
    cases native with
    | null => exact absurd rfl nonnull
    | unsupported =>
      have none_there := unoccupied rfl
      rw [DArray.lookup, found] at none_there
      cases none_there
    | stored s =>
      have spare : Owns base m₁ (some (p, .darray)) [element] (s.offered ++ rest.map deedOfElement) roots := by
        refine emptied.perm ?_ (.refl _)
        rw [List.append_nil]
        exact List.perm_append_comm
      obtain ⟨m₂, filled, owns⟩ := elementFill_owns s spare
      have whole : (deedOfElement element :: rest.map deedOfElement).Perm
          ((Block.darray ⟨a.realSize + 1, a.lookupTable.set index (.elem element)⟩).owned ++ []) := by
        rw [List.append_nil]
        exact after.symm.map deedOfElement
      obtain ⟨last, closes, owns⟩ := owns.write_closed _ (fits element) whole
      refine ⟨last, ?_, owns⟩
      simp only [dArraySet, if_neg live, read, ok_bind, get, readE, released, pure_eq_ok, filled, setting, if_true, closes]

end Arrays
end DynamicRPC.Heap
