import DynamicRPC.ClientSync

namespace DynamicRPC
open Outcome

/-- The pointer is passed at one index only. -/
def PassedOnce (passed : List DrpcTypeUpdate) (i : Nat) (update : DrpcTypeUpdate) : Prop :=
  ∀ j other, passed[j]? = some other → other.ptr = update.ptr → j = i

/-- None of the containers that are passed holds the object. -/
def Unheld (contents : Contents) (passed : List DrpcTypeUpdate) (address : Nat) : Prop :=
  ∀ other ∈ passed, address ∉ contents other.ptr

/-- An array that answers the passed pointers: an argument of its type for each
of them, at addresses of its own, with content that fits the caller's object. -/
structure Answers (contents : Contents) (arrival : Memory Element) (passed : List DrpcTypeUpdate)
    (loaded : DArray Argument) : Prop where
  argument : ∀ i update, passed[i]? = some update →
    ∃ address len held, loaded.lookup i = some (.pointer update.type address len held)
  placed : ∀ i argument, loaded.lookup i = some argument → argument.Placed arrival
  apart : ∀ update ∈ passed, ∀ i argument, loaded.lookup i = some argument → argument.address ≠ some update.ptr
  unheld : ∀ i argument address, loaded.lookup i = some argument → argument.address = some address →
    Unheld contents passed address
  distinct : ∀ i j argument argument' address, loaded.lookup i = some argument → loaded.lookup j = some argument' →
    argument.address = some address → argument'.address = some address → i = j
  fits : ∀ i update argument, passed[i]? = some update → loaded.lookup i = some argument →
    ∃ v v', update.view arrival = (update.type.toChar, .ok v) ∧ argument.view arrival = (update.type.toChar, .ok v') ∧
      v.Fits v'

theorem Argument.Placed.congr {memory memory' : Memory Element} {argument : Argument} (placed : argument.Placed memory)
    (same : ∀ address, argument.address = some address → memory'.cells address = memory.cells address) :
    argument.Placed memory' := by
  cases placed with
  | packed sized scalar => exact .packed sized scalar
  | pointer live type wf whole => exact .pointer ((same _ rfl).trans live) type wf whole

theorem DrpcTypeUpdate.view_congr {memory memory' : Memory Element} {update : DrpcTypeUpdate}
    (same : memory'.cells update.ptr = memory.cells update.ptr) : update.view memory' = update.view memory := by
  rw [DrpcTypeUpdate.view, DrpcTypeUpdate.view, readArgument_congr same]

/-- The loop over the repacked arguments before an index: what it has not come
to is as it arrived, and every object that was passed once before the index, and in no
container, has the content of its argument. -/
structure ClientRepack.Syncs (contents : Contents) (arrival : Memory Element) (passed : List DrpcTypeUpdate)
    (loaded : DArray Argument) (size done : Nat) (s : ClientRepack) : Prop where
  holds : s.repacked.Holds size s.repacked.lookup
  queue : s.repackable = passed.drop done
  pending : ∀ n, done ≤ n → s.repacked.lookup n = loaded.lookup n
  kept : ∀ n argument, s.repacked.lookup n = some argument → loaded.lookup n = some argument
  holding : ∀ container, s.contents container ⊆ contents container
  frame : ∀ address, Unheld contents passed address →
    (∀ n < done, ∀ update, passed[n]? = some update → update.ptr ≠ address) →
    (∀ n < done, ∀ argument, loaded.lookup n = some argument → argument.address ≠ some address) →
    s.memory.cells address = arrival.cells address
  synced : ∀ n < done, ∀ update argument, passed[n]? = some update → PassedOnce passed n update →
    Unheld contents passed update.ptr → loaded.lookup n = some argument → update.view s.memory = argument.view arrival

section Loop
variable {contents : Contents} {arrival : Memory Element} {passed : List DrpcTypeUpdate} {loaded : DArray Argument}
  {size done : Nat} {s s' : ClientRepack}

theorem ClientRepack.Syncs.step (syncs : s.Syncs contents arrival passed loaded size done)
    (answers : Answers contents arrival passed loaded) (within : done < passed.length) (returnIs : Int) :
    Avoids .assertion (clientRepack returnIs s done) ∧
      ∀ s', clientRepack returnIs s done = .ok s' → s'.Syncs contents arrival passed loaded size (done + 1) := by
  have at_done : passed[done]? = some passed[done] := List.getElem?_eq_getElem within
  generalize passed[done] = update at at_done
  obtain ⟨address, len, held, arrived⟩ := answers.argument done update at_done
  have next : s.repackable = update :: passed.drop (done + 1) := by
    rw [syncs.queue, List.drop_eq_getElem_cons within]
    rw [List.getElem?_eq_getElem within] at at_done
    rw [Option.some.inj at_done]
  obtain ⟨repacked, nativeReturn, holds, others, gone, round⟩ :=
    clientRepack_eq syncs.holds ((syncs.pending done le_rfl).trans arrived) next returnIs
  refine ⟨?_, fun s' ran => ?_⟩
  · rw [round]
    exact avoids_bind.mpr ⟨moveArgument_avoids, fun _ _ => avoids_ok _⟩
  rw [round] at ran
  obtain ⟨⟨memory, contents'⟩, moved, same⟩ := bind_eq_ok.mp ran
  cases same
  have member : update ∈ passed := List.mem_of_getElem? at_done
  have apart : update.ptr ≠ address := fun same => answers.apart update member done _ arrived (congrArg some same.symm)
  have spares {other : Nat} (unheld : Unheld contents passed other) : other ∉ s.contents update.ptr := fun inside =>
    unheld update member (syncs.holding _ inside)
  refine ⟨holds, rfl, fun n later => ?_, fun n argument at_n => ?_, fun container => ?_,
    fun other unheld notPassed notLoaded => ?_, fun n before update' argument at_n once unheld held => ?_⟩
  · rw [others n (by omega), syncs.pending n (by omega)]
  · by_cases here : n = done
    · rw [here] at at_n ⊢
      exact syncs.kept done argument (gone argument at_n)
    · rw [others n here] at at_n
      exact syncs.kept n argument at_n
  · exact List.Subset.trans (moveArgument_contents moved container) (syncs.holding container)
  · rw [moveArgument_cells apart moved (notPassed done (Nat.lt_succ_self done) update at_done).symm (spares unheld)
      fun same => notLoaded done (Nat.lt_succ_self done) _ arrived (congrArg some same.symm)]
    exact syncs.frame other unheld (fun n before => notPassed n (by omega)) fun n before => notLoaded n (by omega)
  · obtain rfl | earlier : n = done ∨ n < done := by omega
    · rw [at_done] at at_n
      cases at_n
      rw [arrived] at held
      cases held
      -- the rounds before have not touched the caller's object or the argument that it is to get
      have caller : s.memory.cells update.ptr = arrival.cells update.ptr := by
        refine syncs.frame _ unheld (fun m before other at_m same => ?_) fun m before other at_m =>
          answers.apart update member m other at_m
        exact Nat.ne_of_lt before (once m other at_m same)
      have sent : s.memory.cells address = arrival.cells address := by
        refine syncs.frame _ (answers.unheld n _ address arrived rfl) (fun m before other at_m same => ?_)
          fun m before other at_m points => ?_
        · exact answers.apart other (List.mem_of_getElem? at_m) n _ arrived (congrArg some same.symm)
        · exact Nat.ne_of_lt before (answers.distinct m n _ _ address at_m arrived points rfl)
      have alike : ∀ a, (Argument.pointer update.type address len held).address = some a →
          s.memory.cells a = arrival.cells a := by
        intro a points
        cases points
        exact sent
      obtain ⟨v, v', before, after, fits⟩ := answers.fits n update _ at_done arrived
      rw [after]
      refine moveArgument_content apart ((answers.placed n _ arrived).congr alike) moved ?_ ?_ fits
      · rw [DrpcTypeUpdate.view_congr caller, before]
      · rw [Argument.view_congr alike, after]
    · rw [← syncs.synced n earlier update' argument at_n once unheld held]
      refine DrpcTypeUpdate.view_congr (moveArgument_cells apart moved (fun same => ?_) (spares unheld) fun same => ?_)
      · exact Nat.ne_of_gt earlier (once done update at_done same.symm)
      · exact answers.apart update' (List.mem_of_getElem? at_n) done _ arrived (congrArg some same.symm)

theorem ClientRepack.Syncs.run {rounds : Nat} (syncs : s.Syncs contents arrival passed loaded size done)
    (answers : Answers contents arrival passed loaded) (within : done + rounds ≤ passed.length) (returnIs : Int) :
    Avoids .assertion ((List.range' done rounds).foldlM (clientRepack returnIs) s) ∧
      ∀ s', (List.range' done rounds).foldlM (clientRepack returnIs) s = .ok s' →
        s'.Syncs contents arrival passed loaded size (done + rounds) := by
  induction rounds generalizing s done with
  | zero =>
    refine ⟨avoids_ok _, fun s' ran => ?_⟩
    cases ran
    exact syncs
  | succ rounds ih =>
    rw [List.range'_succ, List.foldlM_cons]
    obtain ⟨avoids, kept⟩ := syncs.step answers (by omega) returnIs
    refine ⟨avoids_bind.mpr ⟨avoids, fun middle first => ?_⟩, fun s' ran => ?_⟩
    · exact (ih (kept middle first) (by omega)).1
    · obtain ⟨middle, first, rest⟩ := bind_eq_ok.mp ran
      have last := (ih (kept middle first) (by omega)).2 s' rest
      rwa [show done + 1 + rounds = done + (rounds + 1) by omega] at last

theorem ClientRepack.Syncs.start (wf : loaded.Wf) :
    (⟨loaded, arrival, passed, none, contents⟩ : ClientRepack).Syncs contents arrival passed loaded
      loaded.lookupSize 0 where
  holds := wf.holds
  queue := rfl
  pending := fun _ _ => rfl
  kept := fun _ _ same => same
  holding := fun _ => List.Subset.refl _
  frame := fun _ _ _ _ => rfl
  synced := fun n before => absurd before (Nat.not_lt_zero n)

end Loop

section Release
variable {memory memory' : Memory Element} {address : Nat}

theorem free_other {other : Nat} (apart : address ≠ other) (freed : memory.free other = .ok memory') :
    memory'.cells address = memory.cells address := by
  obtain ⟨-, cells, -⟩ := Memory.free_eq_ok.mp freed
  rw [cells, Function.update_of_ne apart]

/-- Freeing an array touches the objects that it refers to only. -/
theorem dArrayFree_keeps {a : DArray Argument} (apart : address ∉ a.elements.filterMap Argument.address)
    (freed : dArrayFree memory a = .ok memory') : memory'.cells address = memory.cells address := by
  have along : Runs.Along (fun memory cell => Cell.free memory cell)
      (fun _ cell => ∀ argument, cell = .elem argument → argument.address ≠ some address) memory a.lookupTable := by
    refine Runs.along_of_all (fun cell member _ argument here points => apart ?_) memory
    rw [here] at member
    exact List.mem_filterMap.mpr ⟨argument, List.mem_filterMap.mpr ⟨_, member, rfl⟩, points⟩
  refine Runs.run_keeps (fun current => current.cells address = memory.cells address)
    (fun before cell after same free released => ?_) rfl along freed
  rw [← same]
  unfold Cell.free at released
  split at released
  · next type other len held => exact free_other (fun here => free _ rfl (congrArg some here.symm)) released
  · cases released
    rfl
  · cases released
    rfl
  · cases released
  · cases released

/-- Freeing a message touches the objects behind its fields only. -/
theorem dStructFree_keeps {message : DStruct Field}
    (apart : ∀ key field, .live key field ∈ message.hashtable.body → address ∉ field.addresses)
    (freed : dStructFree memory message = .ok memory') : memory'.cells address = memory.cells address := by
  have along : Runs.Along (fun memory entry => HashtableEntry.free memory entry)
      (fun _ entry => ∀ key field, entry = .live key field → address ∉ field.addresses) memory message.hashtable.body := by
    refine Runs.along_of_all (fun entry member _ key field here => ?_) memory
    rw [here] at member
    exact apart key field member
  refine Runs.run_keeps (fun current => current.cells address = memory.cells address)
    (fun before entry after same free released => ?_) rfl along freed
  rw [← same]
  unfold HashtableEntry.free at released
  split at released
  · next key type other =>
    refine free_other (fun here => free key _ rfl ?_) released
    rw [here]
    exact List.mem_singleton_self _
  · next key a => exact dArrayFree_keeps (free key _ rfl) released
  · cases released
    rfl

end Release

section Fields
variable {E : Type} {d d' : DStruct E} {key other : CString} {e : E}

/-- Writing through the pointer of a field replaces one field. -/
theorem dStructModify_live {written : E} (ran : dStructModify d key (fun _ => written) = .ok d')
    (member : .live other e ∈ d'.hashtable.body) : .live other e ∈ d.hashtable.body ∨ e = written := by
  obtain ⟨index, -, ran⟩ := bind_eq_ok.mp ran
  split at ran
  · cases ran
    obtain before | here := List.mem_or_eq_of_mem_set member
    · exact .inl before
    · cases here
      exact .inr rfl
  · cases ran
    exact .inl member

theorem dStructUnlink_live [DStructElement E] {done : Bool} (ran : dStructUnlink d key = .ok (d', done))
    (member : .live other e ∈ d'.hashtable.body) : .live other e ∈ d.hashtable.body := by
  obtain ⟨found, -, ran⟩ := bind_eq_ok.mp ran
  cases found with
  | none =>
    cases ran
    exact member
  | some held =>
    dsimp only at ran
    split at ran
    · cases ran
      exact member
    · obtain ⟨table, removed, same⟩ := bind_eq_ok.mp ran
      cases same
      obtain ⟨index, -, removed⟩ := bind_eq_ok.mp removed
      split at removed
      · cases removed
        exact member
      · cases removed
        obtain before | here := List.mem_or_eq_of_mem_set member
        · exact before
        · cases here

end Fields

section Finish
variable {contents : Contents} {arrival : Memory Element} {passed : List DrpcTypeUpdate} {message : DStruct Field}
  {recv : MemoryMessage} {finish : ClientFinish} {returnIs : Int}

theorem clientReturn_live {message' : DStruct Field} {nativeReturn nativeReturn' : Option Field}
    (ran : clientReturn message returnIs nativeReturn = .ok (message', nativeReturn')) {key : CString} {field : Field}
    (member : .live key field ∈ message'.hashtable.body) : .live key field ∈ message.hashtable.body := by
  unfold clientReturn at ran
  split at ran
  · obtain ⟨type, -, ran⟩ := bind_eq_ok.mp ran
    split at ran
    · cases ran
      exact member
    · obtain ⟨found, -, ran⟩ := bind_eq_ok.mp ran
      obtain ⟨⟨unlinked, done⟩, removed, same⟩ := bind_eq_ok.mp ran
      cases same
      exact dStructUnlink_live removed member
  · cases ran
    exact member

/-- What the client does with a reply of the type `return`: the loop, the
return value and the release of what is left of the reply. -/
theorem drpcClientCallFinish_inv (returned : recv.messageType = .return) (carried : recv.message = some message)
    (ran : drpcClientCallFinish contents arrival passed recv = .ok finish) :
    ∃ found returnIs message' s last, dStructGet message (.ofString "return_is") .dInt8 = .ok found ∧
      readReturnIs found = .ok returnIs ∧
      clientRepackAll contents arrival passed message returnIs = .ok (message', s) ∧
      clientReturn message' returnIs s.nativeReturn = .ok (last, finish.nativeReturn) ∧
      dStructFree s.memory last = .ok finish.memory ∧ finish.ret = .ok := by
  rw [drpcClientCallFinish, if_neg (not_not.mpr returned), carried] at ran
  obtain ⟨found, got, ran⟩ := bind_eq_ok.mp ran
  obtain ⟨returnIs, read, ran⟩ := bind_eq_ok.mp ran
  obtain ⟨⟨message', s⟩, repacked, ran⟩ := bind_eq_ok.mp ran
  obtain ⟨⟨last, nativeReturn⟩, unlinked, ran⟩ := bind_eq_ok.mp ran
  obtain ⟨memory, freed, same⟩ := bind_eq_ok.mp ran
  cases same
  exact ⟨found, returnIs, message', s, last, got, read, repacked, unlinked, freed, rfl⟩

/-- A call whose reply has the type `return` ends with the return value 0, and
after the loop it only releases what the reply holds. -/
theorem drpcClientCallFinish_returned (returned : recv.messageType = .return) (carried : recv.message = some message)
    (ran : drpcClientCallFinish contents arrival passed recv = .ok finish) :
    finish.ret = .ok ∧ ∃ returnIs message' s, clientRepackAll contents arrival passed message returnIs = .ok (message', s) ∧
      ∀ address, (∀ key field, .live key field ∈ message'.hashtable.body → address ∉ field.addresses) →
        finish.memory.cells address = s.memory.cells address := by
  obtain ⟨-, returnIs, message', s, last, -, -, repacked, unlinked, freed, zero⟩ :=
    drpcClientCallFinish_inv returned carried ran
  refine ⟨zero, returnIs, message', s, repacked, fun address apart => ?_⟩
  exact dStructFree_keeps (fun key field member => apart key field (clientReturn_live unlinked member)) freed

/-- The loop over the repacked arguments, when they answer the passed pointers. -/
theorem clientRepackAll_answers {loaded : DArray Argument} (wf : loaded.Wf) (count : loaded.realSize = passed.length)
    (get : dStructGet message (.ofString "repacked_arguments") .dArray = .ok (some (.arguments loaded)))
    (answers : Answers contents arrival passed loaded) : Avoids .assertion (clientRepackAll contents arrival passed message returnIs) ∧
      ∀ message' s, clientRepackAll contents arrival passed message returnIs = .ok (message', s) →
        s.Syncs contents arrival passed loaded loaded.lookupSize passed.length ∧
          ∀ key field, .live key field ∈ message'.hashtable.body →
            .live key field ∈ message.hashtable.body ∨ field = .arguments s.repacked := by
  have start : (⟨loaded, arrival, passed, none, contents⟩ : ClientRepack).Syncs contents arrival passed loaded
      loaded.lookupSize 0 := .start wf
  have looped := start.run answers (Nat.zero_add passed.length).le returnIs
  rw [← List.range_eq_range', Nat.zero_add] at looped
  have whole : clientRepackAll contents arrival passed message returnIs = (do
      let s ← (List.range passed.length).foldlM (clientRepack returnIs) ⟨loaded, arrival, passed, none, contents⟩
      let message ← dStructModify message (CString.ofString "repacked_arguments") fun _ => .arguments s.repacked
      pure (message, s)) := by
    rw [clientRepackAll, get, ok_bind, ← count]
    rfl
  rw [whole]
  refine ⟨avoids_bind.mpr ⟨looped.1, fun s _ => avoids_bind.mpr ⟨dStructModify_avoids _ _ _, fun _ _ => avoids_ok _⟩⟩,
    fun message' s ran => ?_⟩
  obtain ⟨s', rounds, ran⟩ := bind_eq_ok.mp ran
  obtain ⟨modified, written, same⟩ := bind_eq_ok.mp ran
  cases same
  exact ⟨looped.2 _ rounds, fun key field member => dStructModify_live written member⟩

end Finish

end DynamicRPC
