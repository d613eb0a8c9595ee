import DynamicRPC.ArgumentTrip
import DynamicRPC.ClientAssertions

namespace DynamicRPC
open Outcome

/-- A value that fits where another was: a string that is no longer, a buffer
of the same length. -/
def Value.Fits : Value → Value → Prop
  | .str content, .str content' => content'.length ≤ content.length
  | .sizedbuf block, .sizedbuf block' => block'.length = block.length
  | _, _ => True

section Moves
variable {memory memory' : Memory Element} {contents contents' : Contents} {original repacked len : Nat}

/-- Freeing a list of objects leaves the others. -/
theorem freeAll_cells {addresses : List Nat} (freed : addresses.foldlM Memory.free memory = .ok memory') (address : Nat) :
    memory'.cells address = if address ∈ addresses then none else memory.cells address := by
  induction addresses generalizing memory with
  | nil =>
    cases freed
    exact (if_neg List.not_mem_nil).symm
  | cons first addresses ih =>
    rw [List.foldlM_cons] at freed
    obtain ⟨middle, free, rest⟩ := bind_eq_ok.mp freed
    obtain ⟨-, cells, -⟩ := Memory.free_eq_ok.mp free
    rw [ih rest, cells, Function.update_apply]
    by_cases here : address = first
    · simp [here]
    · simp [here]

theorem moveContainer_cells (apart : original ≠ repacked)
    (ran : moveContainer contents memory original repacked = .ok (memory', contents')) :
    contents' = Function.update contents original [] ∧ ∃ object released, memory.cells repacked = some object ∧
      (∀ address, released address = if address ∈ contents original then none else memory.cells address) ∧
      memory'.cells = Function.update (Function.update released original (some object)) repacked none := by
  rw [moveContainer, if_neg apart] at ran
  obtain ⟨released, insides, rest⟩ := bind_eq_ok.mp ran
  obtain ⟨object, read, rest⟩ := bind_eq_ok.mp rest
  obtain ⟨middle, written, rest⟩ := bind_eq_ok.mp rest
  obtain ⟨last, freed, same⟩ := bind_eq_ok.mp rest
  cases same
  obtain ⟨-, first, -⟩ := Memory.write_eq_ok.mp written
  obtain ⟨-, second, -⟩ := Memory.free_eq_ok.mp freed
  have still := Memory.read_eq_ok.mp read
  rw [freeAll_cells insides] at still
  refine ⟨rfl, object, released.cells, ?_, freeAll_cells insides, by rw [second, first]⟩
  split at still
  · cases still
  · exact still

theorem moveStr_cells (apart : original ≠ repacked) (ran : moveStr memory original repacked = .ok memory') :
    ∃ block source originalStr repackedStr, memory.cells original = some (.str block) ∧
      CString.read block = .ok originalStr ∧ memory.cells repacked = some source ∧ source.asStr = .ok repackedStr ∧
      memory'.cells = Function.update (Function.update memory.cells original (some (.str
        (repackedStr.block.take (min originalStr.bytes.length repackedStr.bytes.length + 1) ++
          block.drop (min originalStr.bytes.length repackedStr.bytes.length + 1))))) repacked none := by
  rw [moveStr, if_neg apart] at ran
  obtain ⟨object, read, rest⟩ := bind_eq_ok.mp ran
  cases object with
  | str block =>
    obtain ⟨originalStr, text, rest⟩ := bind_eq_ok.mp rest
    obtain ⟨source, found, rest⟩ := bind_eq_ok.mp rest
    obtain ⟨repackedStr, text', rest⟩ := bind_eq_ok.mp rest
    obtain ⟨middle, written, freed⟩ := bind_eq_ok.mp rest
    obtain ⟨-, first, -⟩ := Memory.write_eq_ok.mp written
    obtain ⟨-, second, -⟩ := Memory.free_eq_ok.mp freed
    exact ⟨block, source, originalStr, repackedStr, Memory.read_eq_ok.mp read, text, Memory.read_eq_ok.mp found, text',
      by rw [second, first]⟩
  | _ => cases rest

theorem moveBuffer_cells (ran : moveBuffer memory original repacked len = .ok memory') :
    ∃ block content, memory.cells original = some (.sizedbuf block) ∧ memory.cells repacked = some (.sizedbuf content) ∧
      len ≤ block.length ∧ len ≤ content.length ∧
      memory'.cells = Function.update memory.cells original (some (.sizedbuf (content.take len ++ block.drop len))) := by
  obtain ⟨object, read, rest⟩ := bind_eq_ok.mp ran
  obtain ⟨source, found, rest⟩ := bind_eq_ok.mp rest
  cases object with
  | sizedbuf block =>
    cases source with
    | sizedbuf content =>
      dsimp only at rest
      split at rest
      · cases rest
      · next long =>
        obtain ⟨-, cells, -⟩ := Memory.write_eq_ok.mp rest
        rw [not_or, not_lt, not_lt] at long
        exact ⟨block, content, Memory.read_eq_ok.mp read, Memory.read_eq_ok.mp found, long.1, long.2, cells⟩
    | _ => cases rest
  | _ => cases rest

end Moves

section Content
variable {memory memory' : Memory Element} {contents contents' : Contents} {passed : DrpcTypeUpdate} {address len : Nat}
  {held : passed.type.isPointer = true} {v v' : Value}

theorem DrpcTypeUpdate.view_eq_ok : passed.view memory = (passed.type.toChar, .ok v) ↔
    ∃ e, readArgument memory passed.type passed.ptr passed.len = .ok e ∧ e.value = v := by
  rw [DrpcTypeUpdate.view, Prod.mk.injEq, and_iff_right rfl, map_eq_ok]

/-- A container that is moved is read at the caller's pointer. -/
theorem moveContainer_content (container : passed.type.isContainer = true) (apart : passed.ptr ≠ address)
    (ran : moveContainer contents memory passed.ptr address = .ok (memory', contents'))
    (sent : (Argument.pointer passed.type address len held).view memory = (passed.type.toChar, .ok v')) :
    passed.view memory' = (passed.type.toChar, .ok v') := by
  obtain ⟨-, object, _, live, -, cells⟩ := moveContainer_cells apart ran
  obtain ⟨e, resolved, rfl⟩ := map_eq_ok.mp (Prod.mk.inj sent).2
  obtain ⟨object', live', type, same, shape⟩ := readArgument_inv resolved
  rw [live] at live'
  cases live'
  have notBuffer (block : List UInt8) : object ≠ .sizedbuf block := by
    rintro rfl
    have buffer : DrpcTypes.dSizedbuf = passed.type := DrpcTypes.toChar_injective type
    rw [← buffer] at container
    cases container
  obtain rfl | ⟨block, buffer, -⟩ := shape
  · refine DrpcTypeUpdate.view_eq_ok.mpr ⟨object, readArgument_whole ?_ type fun block same => ?_, rfl⟩
    · rw [cells, Function.update_of_ne apart, Function.update_self]
    · exact absurd same (notBuffer block)
  · exact absurd buffer (notBuffer block)

/-- A string that is no longer than the caller's is copied with its NUL. -/
theorem moveStr_content (str : passed.type = .dStr) (apart : passed.ptr ≠ address)
    (ran : moveStr memory passed.ptr address = .ok memory')
    (before : passed.view memory = (passed.type.toChar, .ok v))
    (sent : (Argument.pointer passed.type address len held).view memory = (passed.type.toChar, .ok v'))
    (fits : v.Fits v') : passed.view memory' = (passed.type.toChar, .ok v') := by
  obtain ⟨block, source, originalStr, repackedStr, live, text, live', text', cells⟩ := moveStr_cells apart ran
  obtain ⟨e, resolved, rfl⟩ := map_eq_ok.mp (Prod.mk.inj sent).2
  obtain ⟨object, found, -, -, shape⟩ := readArgument_inv resolved
  rw [live'] at found
  cases found
  cases source with
  | str content =>
    obtain rfl | ⟨_, wrong, -⟩ := shape
    swap
    · cases wrong
    obtain ⟨e, read, rfl⟩ := DrpcTypeUpdate.view_eq_ok.mp before
    obtain ⟨object, found, -, -, shape⟩ := readArgument_inv read
    rw [live] at found
    cases found
    obtain rfl | ⟨_, wrong, -⟩ := shape
    swap
    · cases wrong
    have shorter : repackedStr.bytes.length ≤ originalStr.bytes.length := by
      rw [← CString.takeWhile_of_read text, ← CString.takeWhile_of_read text']
      exact fits
    rw [Nat.min_eq_right shorter, List.take_of_length_le (by rw [CString.block_length])] at cells
    refine DrpcTypeUpdate.view_eq_ok.mpr
      ⟨.str (repackedStr.block ++ block.drop (repackedStr.bytes.length + 1)),
        readArgument_whole ?_ ?_ ?_, ?_⟩
    · rw [cells, Function.update_of_ne apart, Function.update_self]
    · rw [str]
      rfl
    · rintro block ⟨⟩
    · rw [Element.value, Element.value, CString.takeWhile_of_read text', CString.block, List.append_assoc]
      exact congrArg Value.str (CString.takeWhile_append_nul repackedStr _)
  | _ => cases text'

/-- A buffer of the length that was passed is copied whole. -/
theorem moveBuffer_content (buffer : passed.type = .dSizedbuf)
    (placed : (Argument.pointer passed.type address len held).Placed memory)
    (ran : moveBuffer memory passed.ptr address len = .ok memory')
    (before : passed.view memory = (passed.type.toChar, .ok v))
    (sent : (Argument.pointer passed.type address len held).view memory = (passed.type.toChar, .ok v'))
    (fits : v.Fits v') : passed.view memory' = (passed.type.toChar, .ok v') := by
  obtain ⟨block, content, live, live', long, long', cells⟩ := moveBuffer_cells ran
  obtain ⟨object, found, -, -, whole, resolved⟩ := placed.resolve
  rw [live'] at found
  cases found
  have exact_length := whole content rfl
  have same : v' = .sizedbuf content := by
    obtain ⟨e, read, rfl⟩ := map_eq_ok.mp (Prod.mk.inj sent).2
    rw [show readArgument memory passed.type address len = .ok e from read] at resolved
    cases resolved
    rfl
  obtain ⟨e, read, rfl⟩ := DrpcTypeUpdate.view_eq_ok.mp before
  have sized : passed.len = content.length := by
    obtain ⟨object, read, rest⟩ := bind_eq_ok.mp read
    rw [(readObject_eq_ok.mp read).1] at live
    cases live
    dsimp only at rest
    split at rest
    · cases rest
    · next within =>
      cases rest
      rw [same] at fits
      have length : content.length = (block.take passed.len).length := fits
      rw [length, List.length_take]
      omega
  rw [same]
  refine DrpcTypeUpdate.view_eq_ok.mpr ⟨.sizedbuf content, ?_, rfl⟩
  unfold readArgument
  rw [readObject_eq_ok.mpr ⟨by rw [cells, Function.update_self], by rw [buffer]; rfl⟩, ok_bind]
  dsimp only
  rw [exact_length, sized, List.take_length, if_neg, List.take_left' rfl]
  · rfl
  · rw [List.length_append]
    omega

end Content

/-- What the case of its type does to the caller's object. -/
def moveArgument (contents : Contents) (memory : Memory Element) (passed : DrpcTypeUpdate) (address len : Nat) :
    Outcome (Memory Element × Contents) :=
  if passed.type.isContainer then moveContainer contents memory passed.ptr address
  else if passed.type = .dStr then do
    let memory ← moveStr memory passed.ptr address
    pure (memory, contents)
  else do
    let memory ← moveBuffer memory passed.ptr address len
    pure (memory, contents)

section Move
variable {memory memory' : Memory Element} {contents contents' : Contents} {passed : DrpcTypeUpdate} {address len : Nat}
  {held : passed.type.isPointer = true} {v v' : Value}

theorem moveArgument_str (str : passed.type = .dStr) : moveArgument contents memory passed address len = (do
    let memory ← moveStr memory passed.ptr address
    pure (memory, contents)) := by
  rw [moveArgument, if_neg (by rw [str]; decide), if_pos str]

theorem moveArgument_buffer (buffer : passed.type = .dSizedbuf) : moveArgument contents memory passed address len = (do
    let memory ← moveBuffer memory passed.ptr address len
    pure (memory, contents)) := by
  rw [moveArgument, if_neg (by rw [buffer]; decide), if_neg (by rw [buffer]; decide)]

theorem moveArgument_avoids : Avoids .assertion (moveArgument contents memory passed address len) := by
  unfold moveArgument
  split
  · exact moveContainer_avoids
  · split
    · exact avoids_bind.mpr ⟨moveStr_avoids, fun _ _ => avoids_ok _⟩
    · exact avoids_bind.mpr ⟨moveBuffer_avoids, fun _ _ => avoids_ok _⟩

/-- Only the caller's object, what it holds and the repacked one change. -/
theorem moveArgument_cells (apart : passed.ptr ≠ address)
    (ran : moveArgument contents memory passed address len = .ok (memory', contents')) {other : Nat}
    (notPassed : other ≠ passed.ptr) (notHeld : other ∉ contents passed.ptr) (notRepacked : other ≠ address) :
    memory'.cells other = memory.cells other := by
  unfold moveArgument at ran
  split at ran
  · obtain ⟨-, object, released, -, insides, cells⟩ := moveContainer_cells apart ran
    rw [cells, Function.update_of_ne notRepacked, Function.update_of_ne notPassed, insides, if_neg notHeld]
  · split at ran
    · obtain ⟨_, moved, same⟩ := bind_eq_ok.mp ran
      cases same
      obtain ⟨_, _, _, _, -, -, -, -, cells⟩ := moveStr_cells apart moved
      rw [cells, Function.update_of_ne notRepacked, Function.update_of_ne notPassed]
    · obtain ⟨_, moved, same⟩ := bind_eq_ok.mp ran
      cases same
      obtain ⟨_, _, -, -, -, -, cells⟩ := moveBuffer_cells moved
      rw [cells, Function.update_of_ne notPassed]

/-- No container of the caller's comes to hold more of the caller's objects. -/
theorem moveArgument_contents (ran : moveArgument contents memory passed address len = .ok (memory', contents'))
    (container : Nat) : contents' container ⊆ contents container := by
  unfold moveArgument at ran
  split at ran
  · by_cases same : passed.ptr = address
    · rw [moveContainer, if_pos same] at ran
      cases ran
      exact List.Subset.refl _
    · obtain ⟨rfl, -⟩ := moveContainer_cells same ran
      rw [Function.update_apply]
      split
      · exact List.nil_subset _
      · exact List.Subset.refl _
  · split at ran
    · obtain ⟨_, -, same⟩ := bind_eq_ok.mp ran
      cases same
      exact List.Subset.refl _
    · obtain ⟨_, -, same⟩ := bind_eq_ok.mp ran
      cases same
      exact List.Subset.refl _

/-- The caller's object ends with the content of the repacked one, if that fits. -/
theorem moveArgument_content (apart : passed.ptr ≠ address)
    (placed : (Argument.pointer passed.type address len held).Placed memory)
    (ran : moveArgument contents memory passed address len = .ok (memory', contents'))
    (before : passed.view memory = (passed.type.toChar, .ok v))
    (sent : (Argument.pointer passed.type address len held).view memory = (passed.type.toChar, .ok v'))
    (fits : v.Fits v') : passed.view memory' = (passed.type.toChar, .ok v') := by
  unfold moveArgument at ran
  split at ran
  · next container => exact moveContainer_content container apart ran sent
  · next other =>
    split at ran
    · next str =>
      obtain ⟨_, moved, same⟩ := bind_eq_ok.mp ran
      cases same
      exact moveStr_content str apart moved before sent fits
    · next notStr =>
      obtain ⟨_, moved, same⟩ := bind_eq_ok.mp ran
      cases same
      have buffer : passed.type = .dSizedbuf := by
        cases type : passed.type <;> rw [type] at held other notStr <;> first | rfl | contradiction
      exact moveBuffer_content buffer placed moved before sent fits

end Move

section Round
variable {s : ClientRepack} {size i address len : Nat} {passed : DrpcTypeUpdate} {queue : List DrpcTypeUpdate}
  {held : passed.type.isPointer = true}

theorem unlinkRepacked_pointer {repacked : DArray Argument} (holds : repacked.Holds size repacked.lookup)
    {type : DrpcTypes} {held : type.isPointer = true} (here : repacked.lookup i = some (.pointer type address len held)) :
    ∃ repacked', unlinkRepacked repacked i = .ok repacked' ∧ repacked'.Holds size repacked'.lookup ∧
      repacked'.lookup = Function.update repacked.lookup i none := by
  obtain ⟨repacked', deleted, held'⟩ := holds.del i
  refine ⟨repacked', ?_, { held' with lookup := fun _ => rfl }, funext held'.lookup⟩
  rw [unlinkRepacked, dArrayUnlink, holds.get, ok_bind, here]
  change (dArrayDelInternal repacked i >>= fun a' => pure (a', true)) >>= _ = _
  rw [deleted]
  rfl

/-- One round of the loop meets its assertions where the array holds the
argument of the type that was passed, and moves it. -/
theorem clientRepack_eq (holds : s.repacked.Holds size s.repacked.lookup)
    (here : s.repacked.lookup i = some (.pointer passed.type address len held)) (next : s.repackable = passed :: queue)
    (returnIs : Int) : ∃ repacked nativeReturn, repacked.Holds size repacked.lookup ∧
      (∀ n, n ≠ i → repacked.lookup n = s.repacked.lookup n) ∧
      (∀ argument, repacked.lookup i = some argument → s.repacked.lookup i = some argument) ∧
      clientRepack returnIs s i = moveArgument s.contents s.memory passed address len >>= fun moved =>
        pure ⟨repacked, moved.1, queue, nativeReturn, moved.2⟩ := by
  obtain ⟨typed, found⟩ := holds.reads i
  rw [here] at typed
  have pointer : repackedPointer s.repacked i passed.type.toChar = .ok (address, len) := by
    rw [repackedPointer, found, here, ok_bind]
    simp [Option.filter, DStructElement.type, Argument.type]
  obtain ⟨unlinked, ran, held', lookup⟩ := unlinkRepacked_pointer holds here
  have others : ∀ n, n ≠ i → unlinked.lookup n = s.repacked.lookup n := fun n other => by
    rw [lookup, Function.update_of_ne other]
  have gone : ∀ argument, unlinked.lookup i = some argument → s.repacked.lookup i = some argument := fun argument at_i => by
    rw [lookup, Function.update_self] at at_i
    cases at_i
  obtain ⟨type, length, index, ptr⟩ := passed
  rw [clientRepack, typed, ok_bind, next]
  simp only [Option.map_some, Option.getD_some, DStructElement.type, Argument.type, ne_eq, not_true_eq_false, if_false,
    pointer, ran, ok_bind]
  cases type with
  | dStruct => exact ⟨unlinked, _, held', others, gone, rfl⟩
  | dArray => exact ⟨unlinked, _, held', others, gone, rfl⟩
  | dQueue => exact ⟨unlinked, _, held', others, gone, rfl⟩
  | dStr =>
    refine ⟨unlinked, if returnIs = i then some (.pointer .dStr ptr) else s.nativeReturn, held', others, gone, ?_⟩
    rw [moveArgument_str rfl, bind_assoc]
    rfl
  | dSizedbuf =>
    refine ⟨s.repacked, s.nativeReturn, holds, fun _ _ => rfl, fun _ same => same, ?_⟩
    rw [moveArgument_buffer rfl, bind_assoc]
    rfl
  | _ => cases held

end Round

end DynamicRPC
