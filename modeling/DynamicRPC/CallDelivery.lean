import DynamicRPC.ArgumentTrip
import DynamicRPC.Delivery

namespace DynamicRPC
open Outcome

section Resolve
variable {memory memory' : Memory Element}

theorem Argument.resolve_extends {argument : Argument} {e : Element} (grows : memory.Extends memory')
    (resolved : argument.resolve memory = .ok e) : argument.resolve memory' = .ok e := by
  cases argument with
  | packed type data scalar => exact resolved
  | pointer type address len held =>
    obtain ⟨object, live, -⟩ := readArgument_inv resolved
    exact (readArgument_congr (grows.cells address (Memory.lt_of_live live))).trans resolved

/-- An array whose arguments all lead to objects can be encoded. -/
theorem DArray.resolve_returns {a : DArray Argument} (each : ∀ argument ∈ a.elements, Returns (argument.resolve memory)) :
    ∃ a', a.resolve memory = .ok a' := by
  have cells : ∀ cell ∈ a.lookupTable, cell.resolve memory = .ok (cell.resolve memory).value := by
    intro cell member
    cases cell with
    | elem argument =>
      obtain ⟨e, resolved⟩ := each argument (List.mem_filterMap.mpr ⟨_, member, rfl⟩)
      rw [Cell.resolve, resolved]
      rfl
    | _ => rfl
  exact ⟨_, bind_eq_ok.mpr ⟨_, mapM_ok cells, rfl⟩⟩

theorem DStruct.resolve_returns {message : DStruct Field}
    (each : ∀ key field, (key, field) ∈ message.hashtable.bindings → Returns (field.resolve memory)) :
    ∃ d, message.resolve memory = .ok d := by
  have entries : ∀ entry ∈ message.hashtable.body, entry.resolve memory = .ok (entry.resolve memory).value := by
    intro entry member
    cases entry with
    | live key field =>
      obtain ⟨e, resolved⟩ := each key field (mem_bindings_iff.mpr (List.mem_iff_getElem?.mp member))
      rw [HashtableEntry.resolve, resolved]
      rfl
    | _ => rfl
  exact ⟨_, bind_eq_ok.mpr ⟨_, mapM_ok entries, rfl⟩⟩

/-- An array that the encoder finds is dense when the arguments are, and so is
everything that they lead to. -/
theorem DArray.resolve_dense {a : DArray Argument} {a' : DArray Element} (resolved : a.resolve memory = .ok a') :
    (Element.array a').Dense ↔
      a.Dense ∧ ∀ argument ∈ a.elements, ∀ e, argument.resolve memory = .ok e → e.Dense := by
  have indices : a'.Dense ↔ a.Dense := by
    unfold DArray.Dense
    simp only [DArray.resolve_occupied resolved]
  obtain ⟨cells, mapped, same⟩ := bind_eq_ok.mp resolved
  cases same
  obtain ⟨each, rfl⟩ := mapM_eq_ok mapped
  constructor
  · intro dense
    cases dense with
    | array dense items =>
      refine ⟨indices.mp dense, fun argument member e leads => items e ?_⟩
      obtain ⟨cell, inside, here⟩ := List.mem_filterMap.mp member
      cases cell with
      | elem other =>
        cases here
        refine List.mem_map.mpr ⟨_, inside, ?_⟩
        rw [Cell.resolve, leads]
        rfl
      | _ => cases here
  · rintro ⟨dense, items⟩
    refine .array (indices.mpr dense) fun e member => ?_
    obtain ⟨cell, inside, same⟩ := List.mem_map.mp member
    have ran := each cell inside
    rw [same] at ran
    obtain ⟨argument, rfl, leads⟩ := (Cell.resolve_inv ran).1 e rfl
    exact items argument (List.mem_filterMap.mpr ⟨_, inside, rfl⟩) e leads

/-- The call message that the encoder finds when every argument leads to an object. -/
theorem DStruct.Filled.resolve_call {message : DStruct Field} {a : DArray Argument} {name : List UInt8}
    (filled : message.Filled [(.ofString "fn_name", .element (.str name)), (.ofString "arguments", .arguments a)])
    (each : ∀ argument ∈ a.elements, Returns (argument.resolve memory)) :
    ∃ d, message.resolve memory = .ok d ∧ ((Element.dstruct d).Dense ↔
      a.Dense ∧ ∀ argument ∈ a.elements, ∀ e, argument.resolve memory = .ok e → e.Dense) := by
  obtain ⟨a', resolved⟩ := DArray.resolve_returns each
  have arguments : (Field.arguments a).resolve memory = .ok (.array a') := bind_eq_ok.mpr ⟨a', resolved, rfl⟩
  obtain ⟨d, ran⟩ : ∃ d, message.resolve memory = .ok d := by
    refine DStruct.resolve_returns fun key field member => ?_
    obtain same | later := List.mem_cons.mp (filled.bindings.mem_iff.mp member)
    · cases same
      exact returns_ok _
    · cases List.mem_singleton.mp later
      exact ⟨_, arguments⟩
  refine ⟨d, ran, ?_⟩
  obtain ⟨rfl, -⟩ := DStruct.resolve_eq_ok ran
  rw [← DArray.resolve_dense resolved]
  constructor
  · intro dense
    cases dense with
    | dstruct fields =>
      refine fields (.ofString "arguments") _ ?_
      rw [DStruct.mapKey, Hashtable.mapKey_bindings]
      refine List.mem_map.mpr ⟨(.ofString "arguments", .arguments a), filled.bindings.mem_iff.mpr ?_, ?_⟩
      · exact List.mem_cons_of_mem _ List.mem_cons_self
      · rw [arguments]
        rfl
  · intro dense
    refine .dstruct fun key e member => ?_
    rw [DStruct.mapKey, Hashtable.mapKey_bindings] at member
    obtain ⟨⟨other, field⟩, inside, same⟩ := List.mem_map.mp member
    cases same
    obtain here | later := List.mem_cons.mp (filled.bindings.mem_iff.mp inside)
    · cases here
      exact .str
    · cases List.mem_singleton.mp later
      dsimp only
      rw [arguments]
      exact dense

end Resolve

section Load
variable {before : Memory Element}

theorem isPointerChar_scalar {type : DrpcTypes} {width : Nat} (sized : type.scalarWidth = some width) :
    isPointerChar type.toChar = false := by
  rw [isPointerChar_toChar]
  cases type <;> first | rfl | cases sized

theorem Element.Wf.loads {e : Element} (wf : e.Wf) (memory : Memory Element) : ∃ loaded, e.load memory = .ok loaded := by
  cases wf with
  | packed sized => exact ⟨_, dif_pos (isPointerChar_scalar sized)⟩
  | _ => exact ⟨_, rfl⟩

theorem loadCells_returns {cells : List (Cell Element)} (wf : ∀ e, .elem e ∈ cells → e.Wf) (memory : Memory Element) :
    ∃ loaded, loadCells memory cells = .ok loaded := by
  induction cells generalizing memory with
  | nil => exact ⟨_, rfl⟩
  | cons cell cells ih =>
    have later := fun e member => wf e (List.mem_cons_of_mem cell member)
    cases cell with
    | elem e =>
      obtain ⟨⟨middle, argument⟩, first⟩ := (wf e List.mem_cons_self).loads memory
      obtain ⟨rest, others⟩ := ih later middle
      exact ⟨_, bind_eq_ok.mpr ⟨_, first, bind_eq_ok.mpr ⟨_, others, rfl⟩⟩⟩
    | _ =>
      obtain ⟨rest, others⟩ := ih later memory
      exact ⟨_, bind_eq_ok.mpr ⟨_, others, rfl⟩⟩

/-- A message that the decoder built finds its place in the memory of its receiver. -/
theorem loadMessage_returns (before : Memory Element) {d : DStruct Element} (key : CString) (wf : (Element.dstruct d).Wf)
    (compact : (Element.dstruct d).Compact) : ∃ loaded, loadMessage key before d = .ok loaded := by
  have isOpen := DStruct.open_of_compact wf compact
  cases wf with
  | dstruct table fields =>
    rw [loadMessage, dStructGet, isOpen.get, ok_bind]
    cases held : d.hashtable.lookup key with
    | none => exact ⟨_, rfl⟩
    | some e =>
      have wf := fields key e (table.table.lookup_eq_some.mp held)
      rw [Option.filter_some]
      split
      · cases wf with
        | array _ items =>
          obtain ⟨loaded, ran⟩ := loadCells_returns items before
          exact ⟨_, bind_eq_ok.mpr ⟨_, rfl, bind_eq_ok.mpr ⟨_, ran, rfl⟩⟩⟩
        | _ => exact ⟨_, rfl⟩
      · exact ⟨_, rfl⟩

end Load

section Call
variable {sender : Memory Element} {message : DStruct Field} {type : DrpcProtocol} {d : DStruct Element}

/-- A message is received and finds its place at the other end, when every
array in it has its occupied indices exactly `0..n-1`, and only then. -/
theorem drpcTcpSend_arrives_iff (wf : message.Wf)
    (good : ∀ key field, (key, field) ∈ message.hashtable.bindings → field.Good sender)
    (resolved : message.resolve sender = .ok d) (small : (fieldsBuf d.hashtable.bindings).length < 2 ^ 63)
    (aes : Option Aes) (key : CString) (before : Memory Element) :
    (∃ recv after received, drpcTcpSend aes sender ⟨type, some message⟩ = .ok (some recv) ∧
      drpcTcpLoad key before recv = .ok (after, received)) ↔ (Element.dstruct d).Dense := by
  have dWf := DStruct.resolve_wf wf good resolved
  constructor
  · rintro ⟨recv, -, -, sent, -⟩
    obtain ⟨d', same, delivered⟩ := bind_eq_ok.mp sent
    rw [resolved] at same
    cases same
    exact drpcTcpDeliver_dense rfl dWf (sendable_fits type dWf small) delivered
  · intro dense
    obtain ⟨recv, delivered, -⟩ := drpcTcpDeliver_delivers aes (sendable_struct type dWf dense small)
    have sent : drpcTcpSend aes sender ⟨type, some message⟩ = .ok (some recv) := bind_eq_ok.mpr ⟨d, resolved, delivered⟩
    obtain ⟨-, d', -, rfl, -, wf', compact⟩ := drpcTcpSend_payload wf good sent
    obtain ⟨⟨after, message'⟩, loaded⟩ := loadMessage_returns before key wf' compact
    exact ⟨_, after, _, sent, bind_eq_ok.mpr ⟨_, loaded, rfl⟩⟩

end Call

end DynamicRPC
