import DynamicRPC.ArgumentView
import DynamicRPC.CallClient

namespace DynamicRPC
open Outcome

/-- `drpc_send_message` on a TCP connection, and what `drpc_recv_message` at
its other end returns. -/
def drpcTcpSend (aes : Option Aes) (memory : Memory Element) (send : MemoryMessage) : Outcome (Option DrpcMessage) :=
  match send.message with
  | none => drpcTcpDeliver aes ⟨send.messageType, none⟩
  | some message => do
    let message ← message.resolve memory
    drpcTcpDeliver aes ⟨send.messageType, some message⟩

/-- A received message in the memory of its receiver, where the array under the key holds arguments. -/
def drpcTcpLoad (key : CString) (memory : Memory Element) (recv : DrpcMessage) : Outcome (Memory Element × MemoryMessage) :=
  match recv.message with
  | none => pure (memory, ⟨recv.messageType, none⟩)
  | some message => do
    let (memory, message) ← loadMessage key memory message
    pure (memory, ⟨recv.messageType, some message⟩)

/-- What a call over TCP brings about: the call that the server handled, the
reply as the client receives it, and the client's memory with it. -/
structure TcpExchange where
  handled : HandledCall
  recv : MemoryMessage
  memory : Memory Element

/-- A call message on its way to the server and its reply on the way back;
`none` when one of them does not arrive. The server frees its message when the
reply is out. -/
def drpcTcpExchange (aes : Option Aes) (server : CallServer) (clientPerm : Int) (serverMemory : Memory Element)
    (call : ClientCall) : Outcome (Option TcpExchange) := do
  let sent ← drpcTcpSend aes call.memory ⟨.call, some call.message⟩
  match sent with
  | none => pure none
  | some recv => do
    let (serverMemory, received) ← drpcTcpLoad (CString.ofString "arguments") serverMemory recv
    let handled ← drpcHandleCall server clientPerm serverMemory received.message
    let sent ← drpcTcpSend aes handled.memory handled.reply
    match sent with
    | none => pure none
    | some recv => do
      let (memory, recv) ← drpcTcpLoad (CString.ofString "repacked_arguments") call.memory recv
      pure (some ⟨handled, recv, memory⟩)

/-- `drpc_client_call` on a TCP client that is not stopped. -/
def drpcTcpCall (aes : Option Aes) (server : CallServer) (clientPerm : Int) (serverMemory : Memory Element)
    (fromDouble : Nat → Nat) (contents : Contents) (memory : Memory Element) (fnName : CString)
    (prototype : List DrpcTypes) (varargs : List Nat) : Outcome ClientFinish := do
  let call ← drpcClientCallMessage fromDouble memory fnName prototype varargs
  let exchange ← drpcTcpExchange aes server clientPerm serverMemory call
  match exchange with
  | none => pure ⟨.enetwork, call.memory, none⟩
  | some exchange => drpcClientCallFinish contents exchange.memory call.repackable exchange.recv

/-- What the encoder finds behind a field or an argument is well formed. -/
def Field.Good (memory : Memory Element) (field : Field) : Prop := ∀ e, field.resolve memory = .ok e → e.Wf

def Argument.Good (memory : Memory Element) (argument : Argument) : Prop := ∀ e, argument.resolve memory = .ok e → e.Wf

section Resolve
variable {memory : Memory Element}

theorem Cell.resolve_inv {cell : Cell Argument} {cell' : Cell Element} (ran : cell.resolve memory = .ok cell') :
    (∀ e, cell' = .elem e → ∃ argument, cell = .elem argument ∧ argument.resolve memory = .ok e) ∧
      (cell' = .uninit → cell = .uninit) ∧ (cell' = .dangling → cell = .dangling) := by
  cases cell with
  | elem argument =>
    obtain ⟨e, resolved, same⟩ := bind_eq_ok.mp ran
    cases same
    refine ⟨fun other same => ?_, fun same => (by cases same), fun same => by cases same⟩
    cases same
    exact ⟨argument, rfl, resolved⟩
  | null =>
    cases ran
    exact ⟨fun other same => (by cases same), fun same => (by cases same), fun same => by cases same⟩
  | uninit =>
    cases ran
    exact ⟨fun other same => (by cases same), fun _ => rfl, fun same => by cases same⟩
  | dangling =>
    cases ran
    exact ⟨fun other same => (by cases same), fun same => (by cases same), fun _ => rfl⟩

theorem DArray.resolve_wf {a : DArray Argument} {a' : DArray Element} (wf : a.Wf)
    (good : ∀ argument ∈ a.elements, argument.Good memory) (ran : a.resolve memory = .ok a') : (Element.array a').Wf := by
  have views := DArray.views_resolved ran
  obtain ⟨cells, resolved, same⟩ := bind_eq_ok.mp ran
  cases same
  obtain ⟨each, rfl⟩ := mapM_eq_ok resolved
  have source : ∀ cell', cell' ∈ (a.lookupTable.map fun cell => (cell.resolve memory).value) →
      ∃ cell ∈ a.lookupTable, cell.resolve memory = .ok cell' := by
    intro cell' member
    obtain ⟨cell, inside, same⟩ := List.mem_map.mp member
    exact ⟨cell, inside, same ▸ each cell inside⟩
  refine .array ⟨fun member => ?_, fun member => ?_, ?_, ?_⟩ fun e member => ?_
  · obtain ⟨cell, inside, run⟩ := source _ member
    exact wf.initialised ((Cell.resolve_inv run).2.1 rfl ▸ inside)
  · obtain ⟨cell, inside, run⟩ := source _ member
    exact wf.live ((Cell.resolve_inv run).2.2 rfl ▸ inside)
  · have length := congrArg List.length views
    rw [List.length_map, List.length_map] at length
    rw [length]
    exact wf.counted
  · have bound := wf.allocated
    unfold DArray.lookupSize at bound ⊢
    rwa [List.length_map]
  · obtain ⟨cell, inside, run⟩ := source _ member
    obtain ⟨argument, rfl, resolve⟩ := (Cell.resolve_inv run).1 e rfl
    exact good argument (List.mem_filterMap.mpr ⟨_, inside, rfl⟩) e resolve

theorem DStruct.resolve_eq_ok {message : DStruct Field} {d : DStruct Element} (ran : message.resolve memory = .ok d) :
    d = message.mapKey (fun _ field => (field.resolve memory).value) ∧
      ∀ key field, (key, field) ∈ message.hashtable.bindings → field.resolve memory = .ok (field.resolve memory).value := by
  obtain ⟨body, resolved, same⟩ := bind_eq_ok.mp ran
  cases same
  obtain ⟨each, rfl⟩ := mapM_eq_ok resolved
  have fields : ∀ key field, .live key field ∈ message.hashtable.body →
      field.resolve memory = .ok (field.resolve memory).value := by
    intro key field member
    obtain ⟨e, here, -⟩ := bind_eq_ok.mp (each _ member)
    rw [here]
    rfl
  refine ⟨?_, fun key field member => ?_⟩
  · rw [DStruct.mapKey, Hashtable.mapKey]
    congr 2
    refine List.map_congr_left fun entry member => ?_
    cases entry with
    | live key field =>
      rw [HashtableEntry.resolve, fields key field member]
      rfl
    | _ => rfl
  · obtain ⟨i, at_i⟩ := mem_bindings_iff.mp member
    exact fields key field (List.mem_of_getElem? at_i)

theorem DStruct.resolve_wf {message : DStruct Field} {d : DStruct Element} (wf : message.Wf)
    (good : ∀ key field, (key, field) ∈ message.hashtable.bindings → field.Good memory)
    (ran : message.resolve memory = .ok d) : (Element.dstruct d).Wf := by
  obtain ⟨rfl, each⟩ := DStruct.resolve_eq_ok ran
  refine .dstruct (wf.mapKey _) fun key e member => ?_
  rw [DStruct.mapKey, Hashtable.mapKey_bindings] at member
  obtain ⟨⟨key, field⟩, inside, same⟩ := List.mem_map.mp member
  cases same
  exact good key field inside _ (each key field inside)

theorem DStruct.resolve_lookup {message : DStruct Field} {d : DStruct Element} (ran : message.resolve memory = .ok d)
    (key : CString) : d.hashtable.lookup key =
      (message.hashtable.lookup key).map fun field => (field.resolve memory).value := by
  obtain ⟨rfl, -⟩ := DStruct.resolve_eq_ok ran
  rw [Hashtable.lookup, DStruct.mapKey, Hashtable.mapKey_bindings]
  exact lookup_mapKey (fun _ (field : Field) => (field.resolve memory).value) _ key

end Resolve

end DynamicRPC
