import DynamicRPC.ArgumentPassing
import DynamicRPC.TcpCall

namespace DynamicRPC
open Outcome

/-- The objects that freeing a field releases. -/
def Field.addresses : Field → List Nat
  | .element _ => []
  | .pointer _ address => [address]
  | .arguments a => a.elements.filterMap Argument.address

/-- An array of arguments of a sender as its receiver finds it under a key of the message. -/
structure Arrived (key : CString) (sender : Memory Element) (arguments : DArray Argument) (before after : Memory Element)
    (message : DStruct Field) (loaded : DArray Argument) : Prop where
  get : dStructGet message key .dArray = .ok (some (.arguments loaded))
  grows : before.Extends after
  wf : loaded.Wf
  counted : loaded.realSize = loaded.elements.length
  views : loaded.elements.map (Argument.view after) = arguments.elements.map (Argument.view sender)
  occupied : ∀ i, (loaded.lookup i).isSome = (arguments.lookup i).isSome
  placed : ∀ argument ∈ loaded.elements, argument.Placed after
  distinct : (loaded.elements.filterMap Argument.address).Nodup
  fresh : ∀ address ∈ loaded.elements.filterMap Argument.address, before.next ≤ address
  objects : ObjectsWf before → ObjectsWf after
  owns : ∀ other field, .live other field ∈ message.hashtable.body →
    field.addresses ⊆ loaded.elements.filterMap Argument.address

section Load
variable {before after : Memory Element} {e : Element} {argument : Argument}

theorem Element.load_objects (ran : e.load before = .ok (after, argument)) (objects : ObjectsWf before) (wf : e.Wf) :
    ObjectsWf after := by
  cases e with
  | packed type data =>
    rw [Element.load] at ran
    split at ran
    · cases ran
      exact objects
    · cases ran
  | _ =>
    cases ran
    exact objects.alloc wf

theorem loadCells_objects {cells : List (Cell Element)} {cells' : List (Cell Argument)}
    (ran : loadCells before cells = .ok (after, cells')) (objects : ObjectsWf before)
    (wf : ∀ e, .elem e ∈ cells → e.Wf) : ObjectsWf after := by
  induction cells generalizing before cells' with
  | nil =>
    cases ran
    exact objects
  | cons cell cells ih =>
    have later := fun e member => wf e (List.mem_cons_of_mem cell member)
    cases cell with
    | elem e =>
      obtain ⟨⟨middle, argument⟩, first, ran⟩ := bind_eq_ok.mp ran
      obtain ⟨⟨last, rest⟩, others, same⟩ := bind_eq_ok.mp ran
      cases same
      exact ih others (Element.load_objects first objects (wf e List.mem_cons_self)) later
    | _ =>
      obtain ⟨⟨last, rest⟩, others, same⟩ := bind_eq_ok.mp ran
      cases same
      exact ih others objects later

/-- Loading keeps the occupied indices. -/
theorem loadCells_occupied {cells : List (Cell Element)} {cells' : List (Cell Argument)}
    (ran : loadCells before cells = .ok (after, cells')) (i : Nat) :
    (cells'[i]?.bind Cell.element).isSome = (cells[i]?.bind Cell.element).isSome := by
  induction cells generalizing before cells' i with
  | nil =>
    cases ran
    rfl
  | cons cell cells ih =>
    cases cell with
    | elem e =>
      obtain ⟨⟨middle, argument⟩, first, ran⟩ := bind_eq_ok.mp ran
      obtain ⟨⟨last, rest⟩, others, same⟩ := bind_eq_ok.mp ran
      cases same
      cases i with
      | zero => rfl
      | succ i => exact ih others i
    | _ =>
      obtain ⟨⟨last, rest⟩, others, same⟩ := bind_eq_ok.mp ran
      cases same
      cases i with
      | zero => rfl
      | succ i => exact ih others i

theorem DArray.resolve_occupied {memory : Memory Element} {a : DArray Argument} {a' : DArray Element}
    (ran : a.resolve memory = .ok a') (i : Nat) : (a'.lookup i).isSome = (a.lookup i).isSome := by
  obtain ⟨cells, resolved, same⟩ := bind_eq_ok.mp ran
  cases same
  obtain ⟨each, rfl⟩ := mapM_eq_ok resolved
  unfold DArray.lookup
  rw [List.getElem?_map]
  cases at_i : a.lookupTable[i]? with
  | none => rfl
  | some cell =>
    have ran := each cell (List.mem_of_getElem? at_i)
    cases cell with
    | elem argument =>
      obtain ⟨e, resolve, same⟩ := bind_eq_ok.mp ran
      rw [Option.map_some, Option.bind_some, ← Except.ok.inj same]
      rfl
    | _ => rfl

end Load

theorem forall₂_mem_right {α β : Type} {R : α → β → Prop} {as : List α} {bs : List β} {b : β}
    (both : List.Forall₂ R as bs) (member : b ∈ bs) : ∃ a ∈ as, R a b := by
  induction both with
  | nil => cases member
  | cons here _ ih =>
    obtain rfl | later := List.mem_cons.mp member
    · exact ⟨_, List.mem_cons_self, here⟩
    · obtain ⟨a, inside, related⟩ := ih later
      exact ⟨a, List.mem_cons_of_mem _ inside, related⟩

theorem forall₂_iff_getElem? {α β : Type} {R : α → β → Prop} {as : List α} {bs : List β} :
    List.Forall₂ R as bs ↔
      as.length = bs.length ∧ ∀ (i : Nat) (a : α) (b : β), as[i]? = some a → bs[i]? = some b → R a b := by
  rw [List.forall₂_iff_get]
  refine and_congr_right fun length => ⟨fun each i a b at_a at_b => ?_, fun each i bound bound' => ?_⟩
  · obtain ⟨bound, rfl⟩ := List.getElem?_eq_some_iff.mp at_a
    obtain ⟨bound', rfl⟩ := List.getElem?_eq_some_iff.mp at_b
    exact each i bound bound'
  · exact each i _ _ (List.getElem?_eq_getElem bound) (List.getElem?_eq_getElem bound')

section Trip
variable {aes : Option Aes} {sender before after : Memory Element} {type : DrpcProtocol} {message : DStruct Field}
  {recv : DrpcMessage} {received : MemoryMessage} {key : CString}

/-- A message that arrives means what its sender's memory held. -/
theorem drpcTcpSend_payload (wf : message.Wf)
    (good : ∀ key field, (key, field) ∈ message.hashtable.bindings → field.Good sender)
    (sent : drpcTcpSend aes sender ⟨type, some message⟩ = .ok (some recv)) :
    ∃ d d', message.resolve sender = .ok d ∧ recv = ⟨.ofUInt8 type.toUInt8, some d'⟩ ∧ d'.value = d.value ∧
      (Element.dstruct d').Wf ∧ (Element.dstruct d').Compact := by
  obtain ⟨d, resolved, delivered⟩ := bind_eq_ok.mp sent
  have arrives := drpcTcpDeliver_arrives (fun d' same => by cases same; exact DStruct.resolve_wf wf good resolved) delivered
  obtain ⟨d', carried, value, wf', compact⟩ := arrives.message d rfl
  have messageType := arrives.messageType
  cases recv
  cases carried
  cases messageType
  exact ⟨d, d', resolved, rfl, value, wf', compact⟩

theorem HashtableEntry.mapKey_live {V W : Type} {f : CString → V → W} {body : List (HashtableEntry V)} {key : CString}
    {value : W} (member : .live key value ∈ body.map (HashtableEntry.mapKey f)) :
    ∃ old, .live key old ∈ body ∧ value = f key old := by
  obtain ⟨entry, inside, same⟩ := List.mem_map.mp member
  cases entry with
  | live other old =>
    cases same
    exact ⟨old, inside, rfl⟩
  | _ => cases same

/-- A key without a value on one side has none on the other. -/
theorem DStruct.lookup_none_of_value {d d' : DStruct Element} (same : d'.value = d.value)
    (absent : d.hashtable.lookup key = none) : d'.hashtable.lookup key = none := by
  have fields := congrFun same key
  rwa [DStruct.value_eq, DStruct.value_eq, absent, Option.map_none, Option.map_eq_none_iff] at fields

/-- An array of arguments arrives with its elements, each leading to what it led to at the sender. -/
theorem drpcTcpSend_arrives (wf : message.Wf)
    (good : ∀ key field, (key, field) ∈ message.hashtable.bindings → field.Good sender) {arguments : DArray Argument}
    (carried : message.hashtable.lookup key = some (.arguments arguments))
    (sent : drpcTcpSend aes sender ⟨type, some message⟩ = .ok (some recv))
    (ran : drpcTcpLoad key before recv = .ok (after, received)) :
    ∃ message' loaded, received = ⟨.ofUInt8 type.toUInt8, some message'⟩ ∧
      Arrived key sender arguments before after message' loaded := by
  obtain ⟨d, d', resolved, rfl, value, wf', compact⟩ := drpcTcpSend_payload wf good sent
  have held := DStruct.resolve_lookup resolved key
  have member : (key, Field.arguments arguments) ∈ message.hashtable.bindings := wf.table.lookup_eq_some.mp carried
  obtain ⟨a, resolve, same⟩ := bind_eq_ok.mp ((DStruct.resolve_eq_ok resolved).2 _ _ member)
  rw [carried, Option.map_some, ← Except.ok.inj same] at held
  obtain ⟨e', held', sameValue⟩ := DStruct.lookup_of_value value held
  obtain ⟨a', rfl, sameItems⟩ : ∃ a', e' = .array a' ∧ a'.value = a.value := Element.value_array sameValue
  cases wf' with
  | dstruct table fields =>
    cases compact with
    | dstruct noDead compactFields =>
      have filled := table.filled noDead
      have inside : (key, Element.array a') ∈ d'.hashtable.bindings := table.table.lookup_eq_some.mp held'
      obtain ⟨⟨after', message'⟩, load, done⟩ := bind_eq_ok.mp ran
      cases done
      have get : dStructGet d' key .dArray = .ok (some (.array a')) :=
        dStructGet_of_get ((filled.get key).trans (congrArg Except.ok held')) rfl
      rw [loadMessage, get, ok_bind] at load
      obtain ⟨⟨after', cells⟩, cellsLoaded, done⟩ := bind_eq_ok.mp load
      cases done
      have spec := loadCells_spec cellsLoaded
      have views := spec.views
      cases fields _ _ inside with
      | array wfArray items =>
        cases compactFields _ _ inside with
        | array counted _ =>
          have count : (cells.filterMap Cell.element).length = a'.elements.length := spec.loaded.length_eq.symm
          refine ⟨_, ⟨a'.realSize, cells⟩, rfl, ?_, spec.grows, ?_, counted.trans count.symm, ?_, fun i => ?_,
            fun argument member => ?_, spec.distinct, fun address member => (spec.fresh address member).1,
            fun objects => loadCells_objects cellsLoaded objects items, fun other field member => ?_⟩
          · refine dStructGet_of_get (((filled.mapKey _).get key).trans (congrArg Except.ok ?_)) rfl
            refine (lookup_mapKey (fun other (e : Element) => if other = key then
              Field.arguments ⟨a'.realSize, cells⟩ else .element e) d'.hashtable.bindings key).trans ?_
            rw [show d'.hashtable.bindings.lookup key = some (.array a') from held', Option.map_some, if_pos rfl]
          · exact ⟨fun member => wfArray.initialised (spec.initialised member),
              fun member => wfArray.live (spec.live member), by rw [counted]; exact count.le,
              by rw [DArray.lookupSize, spec.length]; exact wfArray.allocated⟩
          · exact views.trans ((DArray.views_of_value sameItems).trans (DArray.views_resolved resolve))
          · have loadedAt : ((⟨a'.realSize, cells⟩ : DArray Argument).lookup i).isSome = (a'.lookup i).isSome :=
              loadCells_occupied cellsLoaded i
            have valueAt := congrArg Option.isSome (congrFun sameItems i)
            rw [DArray.value_eq, DArray.value_eq, Option.isSome_map, Option.isSome_map] at valueAt
            rw [loadedAt, valueAt, DArray.resolve_occupied resolve]
          · obtain ⟨e, there, stands⟩ := forall₂_mem_right spec.loaded member
            obtain ⟨cell, listed, here⟩ := List.mem_filterMap.mp there
            cases cell with
            | elem other =>
              cases here
              exact stands.placed (items _ listed)
            | _ => cases here
          · obtain ⟨old, -, rfl⟩ := HashtableEntry.mapKey_live member
            split
            · exact List.Subset.refl _
            · exact List.nil_subset _

/-- A call message holds only what a sender can write. -/
theorem drpcClientCallMessage_good {fromDouble : Nat → Nat} {memory : Memory Element} {fnName : CString}
    {prototype : List DrpcTypes} {varargs : List Nat} {call : ClientCall} (objects : ObjectsWf memory)
    (fits : prototype.length < 2 ^ 61) (owned : ∀ passed ∈ call.repackable, (memory.cells passed.ptr).isSome)
    (built : drpcClientCallMessage fromDouble memory fnName prototype varargs = .ok call) :
    ∀ key field, (key, field) ∈ call.message.hashtable.bindings → field.Good call.memory := by
  obtain ⟨arguments, filled, wf, -, sound, sized, -⟩ := drpcClientCallMessage_passes objects fits owned built
  intro key field member
  obtain same | member := List.mem_cons.mp (filled.bindings.mem_iff.mp member)
  · cases same
    intro e resolved
    cases resolved
    exact .str (by simp [CString.block])
  · cases List.mem_singleton.mp member
    intro e resolved
    obtain ⟨a, resolve, same⟩ := bind_eq_ok.mp resolved
    cases same
    exact DArray.resolve_wf wf (fun argument inside e ran => sound.argument (sized argument inside) ran) resolve

/-- A message without the key arrives without it. -/
theorem drpcTcpSend_absent (wf : message.Wf)
    (good : ∀ key field, (key, field) ∈ message.hashtable.bindings → field.Good sender)
    (absent : message.hashtable.lookup key = none)
    (sent : drpcTcpSend aes sender ⟨type, some message⟩ = .ok (some recv))
    (ran : drpcTcpLoad key before recv = .ok (after, received)) :
    after = before ∧ ∃ message', received = ⟨.ofUInt8 type.toUInt8, some message'⟩ ∧
      dStructGet message' key .dArray = .ok none ∧
      ∀ other field, .live other field ∈ message'.hashtable.body → field.addresses = [] := by
  obtain ⟨d, d', resolved, rfl, value, wf', compact⟩ := drpcTcpSend_payload wf good sent
  have gone := DStruct.lookup_none_of_value value (by rw [DStruct.resolve_lookup resolved, absent]; rfl)
  cases wf' with
  | dstruct table fields =>
    cases compact with
    | dstruct noDead compactFields =>
      have filled := table.filled noDead
      obtain ⟨⟨after', message'⟩, load, done⟩ := bind_eq_ok.mp ran
      cases done
      have get : dStructGet d' key .dArray = .ok none := by
        rw [dStructGet, filled.get key, show d'.hashtable.bindings.lookup key = none from gone]
        rfl
      rw [loadMessage, get, ok_bind] at load
      cases load
      refine ⟨rfl, _, rfl, ?_, fun other field member => ?_⟩
      · rw [dStructGet, (filled.mapKey _).get key, lookup_mapKey (fun _ (e : Element) => Field.element e),
          show d'.hashtable.bindings.lookup key = none from gone]
        rfl
      · obtain ⟨old, -, rfl⟩ := HashtableEntry.mapKey_live member
        rfl

end Trip
end DynamicRPC
