import DynamicRPC.DequeOps
import DynamicRPC.Library.Runs
import Mathlib.Data.Set.Card
import Mathlib.Order.Interval.Finset.Nat

namespace DynamicRPC
open Outcome Paged Runs
variable {α : Type} {B : Nat} {base heap : Memory (DequeBlock α)} {me : InternalDeque} {items : List α}

/-- A call on a deque. `realloc`, `malloc` and `granted` say whether the allocations of the call succeed. -/
inductive DequeCall (α : Type)
  | pushBack (realloc malloc : Bool) (data : α)
  | pushFront (realloc malloc : Bool) (data : α)
  | popFront
  | popBack
  | setAt (index : Nat) (data : α)
  | setLast (data : α)
  | getAt (index : Nat)
  | getLast
  | clear (granted : Bool)

/-- What a call returns: its code and, of a call that copies an element out, the element. -/
structure DequeAnswer (α : Type) where
  err : BkErr
  data : Option α
  deriving DecidableEq

/-- The answer of a call that finds an element or has an invalid argument. -/
def DequeAnswer.found (data : Option α) : DequeAnswer α := ⟨if data.isSome then .ok else .einval, data⟩

/-- A deque, with the answers of the calls so far. -/
structure DequeState (α : Type) where
  me : InternalDeque
  heap : Memory (DequeBlock α)
  answers : List (DequeAnswer α)

def DequeState.after (s : DequeState α) (r : DequeResult α) : DequeState α :=
  ⟨r.me, r.heap, s.answers ++ [⟨r.err, none⟩]⟩

def DequeCall.run (s : DequeState α) : DequeCall α → Outcome (DequeState α)
  | .pushBack realloc malloc data => s.after <$> dequePushBack realloc malloc s.me s.heap data
  | .pushFront realloc malloc data => s.after <$> dequePushFront realloc malloc s.me s.heap data
  | .popFront => do
    let r ← dequePopFront s.me s.heap
    pure ⟨r.2, s.heap, s.answers ++ [.found r.1]⟩
  | .popBack => do
    let r ← dequePopBack s.me s.heap
    pure ⟨r.2, s.heap, s.answers ++ [.found r.1]⟩
  | .setAt index data => s.after <$> dequeSetAt s.me s.heap index data
  | .setLast data => s.after <$> dequeSetLast s.me s.heap data
  | .getAt index => do
    let r ← dequeGetAt s.me s.heap index
    pure ⟨s.me, s.heap, s.answers ++ [.found r]⟩
  | .getLast => do
    let r ← dequeGetLast s.me s.heap
    pure ⟨s.me, s.heap, s.answers ++ [.found r]⟩
  | .clear granted => s.after <$> dequeClear granted s.me s.heap

/-- The answers that a list of items gives: a call that is refused leaves it alone. -/
inductive DequeSpec (items : List α) : DequeCall α → DequeAnswer α → List α → Prop
  | pushBack (realloc malloc : Bool) (data : α) :
      DequeSpec items (.pushBack realloc malloc data) ⟨.ok, none⟩ (items ++ [data])
  | pushFront (realloc malloc : Bool) (data : α) :
      DequeSpec items (.pushFront realloc malloc data) ⟨.ok, none⟩ (data :: items)
  | popFront : DequeSpec items .popFront (.found items.head?) items.tail
  | popBack : DequeSpec items .popBack (.found items.getLast?) items.dropLast
  | setAt (index : Nat) (data : α) :
      DequeSpec items (.setAt index data) ⟨if index < items.length then .ok else .einval, none⟩ (items.set index data)
  | setLast (data : α) :
      DequeSpec items (.setLast data) ⟨if items = [] then .einval else .ok, none⟩ (items.set (items.length - 1) data)
  | getAt (index : Nat) : DequeSpec items (.getAt index) (.found items[index]?) items
  | getLast : DequeSpec items .getLast (.found items.getLast?) items
  | clear : DequeSpec items (.clear true) ⟨.ok, none⟩ []
  | unclear : DequeSpec items (.clear false) ⟨.enomem, none⟩ items
  | backRefused (realloc malloc : Bool) (data : α) (err : BkErr)
      (refusal : err = .enomem ∧ ¬ (realloc ∧ malloc) ∨ err = .erange) :
      DequeSpec items (.pushBack realloc malloc data) ⟨err, none⟩ items
  | frontRefused (realloc malloc : Bool) (data : α) (err : BkErr)
      (refusal : err = .enomem ∧ ¬ (realloc ∧ malloc) ∨ err = .erange) :
      DequeSpec items (.pushFront realloc malloc data) ⟨err, none⟩ items

/-- A run on a list that is empty at first: its calls, their answers and what is in the list at the end. -/
inductive DequeTrace : List (DequeCall α) → List (DequeAnswer α) → List α → Prop
  | start : DequeTrace [] [] []
  | call {calls : List (DequeCall α)} {call : DequeCall α} {answers : List (DequeAnswer α)} {answer : DequeAnswer α}
      {items items' : List α} (past : DequeTrace calls answers items) (spec : DequeSpec items call answer items') :
      DequeTrace (calls ++ [call]) (answers ++ [answer]) items'

/-- The table and the blocks are bounded by the number of items that the deque has had at most. -/
structure DequeFrugal (peak B : Nat) (me : InternalDeque) : Prop where
  several : 2 ≤ me.blockCount
  blocks : me.allocated ≤ peak / B + 2
  entries : me.blockCount ≤ 2 * (peak / B + 2 + dequeInitialBlockCount)

def DequeCall.Pushes : DequeCall α → Prop
  | .pushBack .. | .pushFront .. => True
  | _ => False

theorem DequeRep.frugal_pushed (rep : DequeRep B base me heap items) {peak : Nat} (frugal : DequeFrugal peak B me)
    (few : items.length ≤ peak) {realloc malloc : Bool} {err : BkErr} {me' : InternalDeque}
    (pushed : Pushed realloc malloc B items.length me err me') : DequeFrugal peak B me' where
  several := pushed.several frugal.several
  blocks := by
    have blocks := frugal.blocks
    rcases pushed.allocated with same | ⟨more, used⟩
    · omega
    · have full := (Nat.le_div_iff_mul_le rep.shape.positive).mpr (show (me.allocated - 1) * B ≤ peak by omega)
      have ordered := rep.shape.ordered
      have some_block : 0 < me.allocated := by
        unfold InternalDeque.allocated
        omega
      omega
  entries := by
    have blocks := frugal.blocks
    have entries := frugal.entries
    have grown := pushed.entries frugal.several
    omega

/-- A push is refused only where an allocation fails or the items fill the address space. -/
theorem Pushed.refusal {realloc malloc : Bool} {count : Nat} {err : BkErr} {me' : InternalDeque}
    (pushed : Pushed realloc malloc B count me err me') (refused : err ≠ .ok) :
    err = .enomem ∧ ¬ (realloc ∧ malloc) ∨ err = .erange := by
  have memory := pushed.memory
  have einval := pushed.einval
  cases err with
  | ok => exact absurd rfl refused
  | enomem => exact .inl ⟨rfl, memory rfl⟩
  | einval => exact absurd rfl einval
  | erange => exact .inr rfl

theorem Pushed.full {realloc malloc : Bool} {count peak : Nat} {err : BkErr} {me' : InternalDeque}
    (pushed : Pushed realloc malloc B count me err me') (erange : err = .erange) (frugal : DequeFrugal peak B me) :
    (2 ^ 64 - 1) / B ≤ peak / B + 2 + dequeInitialBlockCount := by
  have bound := pushed.range erange
  have blocks := frugal.blocks
  omega

/-- The blocks that are too many for a table are those of nearly 2^64 items. -/
theorem crowded {peak : Nat} (positive : 0 < B) (bound : (2 ^ 64 - 1) / B ≤ peak / B + 2 + dequeInitialBlockCount) :
    2 ^ 64 ≤ peak + 11 * B := by
  by_contra room
  have blocks : (peak + 11 * B) / B = peak / B + 11 := Nat.add_mul_div_right _ _ positive
  have more := @Nat.div_le_div_right _ _ B (show peak + 11 * B ≤ 2 ^ 64 - 1 by omega)
  rw [blocks] at more
  unfold dequeInitialBlockCount at bound
  omega

theorem DequeAnswer.found_err (data : Option α) : (DequeAnswer.found data).err ≠ .erange := by
  cases data <;> simp [DequeAnswer.found]

/-- The table and the blocks are those of another deque that keeps to the bounds. -/
theorem DequeFrugal.same {peak : Nat} (frugal : DequeFrugal peak B me) {me' : InternalDeque}
    (blocks : me'.allocated = me.allocated) (entries : me'.blockCount = me.blockCount) : DequeFrugal peak B me' where
  several := by rw [entries]; exact frugal.several
  blocks := by rw [blocks]; exact frugal.blocks
  entries := by rw [entries]; exact frugal.entries

/-- One call: it returns, answers as the list does, and keeps to the bounds. -/
theorem DequeRep.step {s : DequeState α} (rep : DequeRep B base s.me s.heap items) (peak : Nat) (call : DequeCall α) :
    ∃ s' answer items', call.run s = .ok s' ∧ s'.answers = s.answers ++ [answer] ∧
      DequeRep B base s'.me s'.heap items' ∧ DequeSpec items call answer items' ∧
      (DequeFrugal peak B s.me → items.length ≤ peak → DequeFrugal peak B s'.me) ∧
      (items'.length ≤ items.length ∨ call.Pushes ∧ items'.length = items.length + 1) ∧
      (answer.err = .erange → DequeFrugal peak B s.me → (2 ^ 64 - 1) / B ≤ peak / B + 2 + dequeInitialBlockCount) := by
  cases call with
  | pushBack realloc malloc data =>
    obtain ⟨r, run, result, pushed⟩ := rep.pushBack realloc malloc data
    have returns : (DequeCall.pushBack realloc malloc data).run s = .ok (s.after r) := by
      simp only [DequeCall.run, run]
      rfl
    rcases result with ⟨ok, held⟩ | ⟨refused, held⟩
    · refine ⟨_, ⟨r.err, none⟩, _, returns, rfl, held, by rw [ok]; exact .pushBack ..,
        fun frugal few => rep.frugal_pushed frugal few pushed, .inr ⟨trivial, by simp⟩, pushed.full⟩
    · exact ⟨_, ⟨r.err, none⟩, _, returns, rfl, held, .backRefused _ _ _ _ (pushed.refusal refused),
        fun frugal few => rep.frugal_pushed frugal few pushed, .inl (Nat.le_refl _), pushed.full⟩
  | pushFront realloc malloc data =>
    obtain ⟨r, run, result, pushed⟩ := rep.pushFront realloc malloc data
    have returns : (DequeCall.pushFront realloc malloc data).run s = .ok (s.after r) := by
      simp only [DequeCall.run, run]
      rfl
    rcases result with ⟨ok, held⟩ | ⟨refused, held⟩
    · refine ⟨_, ⟨r.err, none⟩, _, returns, rfl, held, by rw [ok]; exact .pushFront ..,
        fun frugal few => rep.frugal_pushed frugal few pushed, .inr ⟨trivial, by simp⟩, pushed.full⟩
    · exact ⟨_, ⟨r.err, none⟩, _, returns, rfl, held, .frontRefused _ _ _ _ (pushed.refusal refused),
        fun frugal few => rep.frugal_pushed frugal few pushed, .inl (Nat.le_refl _), pushed.full⟩
  | popFront =>
    obtain ⟨me', run, held, blocks, entries⟩ := rep.popFront
    refine ⟨⟨me', s.heap, _⟩, _, _, by simp only [DequeCall.run, run]; rfl, rfl, held, .popFront,
      fun frugal _ => frugal.same blocks entries, .inl (by simp), fun erange => ?_⟩
    exact absurd erange (DequeAnswer.found_err _)
  | popBack =>
    obtain ⟨me', run, held, blocks, entries⟩ := rep.popBack
    refine ⟨⟨me', s.heap, _⟩, _, _, by simp only [DequeCall.run, run]; rfl, rfl, held, .popBack,
      fun frugal _ => frugal.same blocks entries, .inl (by simp), fun erange => ?_⟩
    exact absurd erange (DequeAnswer.found_err _)
  | setAt index data =>
    obtain ⟨after, run, held⟩ := rep.setAt index data
    refine ⟨⟨s.me, after, _⟩, _, _, by simp only [DequeCall.run, run]; rfl, rfl, held, .setAt .., fun frugal _ => frugal,
      .inl (by simp), fun erange => ?_⟩
    dsimp only at erange
    split at erange <;> cases erange
  | setLast data =>
    obtain ⟨after, run, held⟩ := rep.setLast data
    refine ⟨⟨s.me, after, _⟩, _, _, by simp only [DequeCall.run, run]; rfl, rfl, held, .setLast .., fun frugal _ => frugal,
      .inl (by simp), fun erange => ?_⟩
    dsimp only at erange
    split at erange <;> cases erange
  | getAt index =>
    refine ⟨⟨s.me, s.heap, _⟩, _, _, by simp only [DequeCall.run, rep.getAt index]; rfl, rfl, rep, .getAt ..,
      fun frugal _ => frugal, .inl (Nat.le_refl _), fun erange => ?_⟩
    exact absurd erange (DequeAnswer.found_err _)
  | getLast =>
    refine ⟨⟨s.me, s.heap, _⟩, _, _, by simp only [DequeCall.run, rep.getLast]; rfl, rfl, rep, .getLast,
      fun frugal _ => frugal, .inl (Nat.le_refl _), fun erange => ?_⟩
    exact absurd erange (DequeAnswer.found_err _)
  | clear granted =>
    obtain ⟨r, run, err, held, blocks, entries, several⟩ := rep.clear granted
    refine ⟨s.after r, ⟨r.err, none⟩, _, by simp only [DequeCall.run, run]; rfl, rfl, held, ?_, fun frugal _ => ?_, ?_,
      fun erange => ?_⟩
    · cases granted with
      | false => rw [err]; exact .unclear
      | true => rw [err]; exact .clear
    · have few := frugal.blocks
      have small := frugal.entries
      refine ⟨several frugal.several, Nat.le_trans blocks few, ?_⟩
      change r.me.blockCount ≤ _
      omega
    · cases granted <;> simp
    · dsimp only at erange
      rw [err] at erange
      split at erange <;> cases erange

/-- The addresses at which the memory is not that of `base` are those of the blocks. -/
theorem DequeRep.blocks_ncard (rep : DequeRep B base me heap items) :
    {address | heap.cells address ≠ base.cells address}.ncard ≤ me.allocated := by
  have covered : {address | heap.cells address ≠ base.cells address} ⊆
      ↑((Finset.Icc me.allocBlockStart me.allocBlockEnd).image fun i => (me.page i).getD 0) := by
    intro address differs
    have held : me.Points address := by
      by_contra free
      exact differs (rep.frame address free)
    obtain ⟨i, lower, upper, entry⟩ := held
    simp only [Finset.coe_image, Set.mem_image, Finset.mem_coe, Finset.mem_Icc]
    exact ⟨i, ⟨lower, upper⟩, by rw [entry]; rfl⟩
  have counted := Set.ncard_le_ncard covered (Finset.finite_toSet _)
  rw [Set.ncard_coe_finset] at counted
  have images := @Finset.card_image_le _ _ (Finset.Icc me.allocBlockStart me.allocBlockEnd)
    (fun i => (me.page i).getD 0) _
  rw [Nat.card_Icc] at images
  exact Nat.le_trans counted images

section Init
variable {dataSize : Nat} (made : dequeInit true dataSize base = some (me, heap))
include made

theorem dequeInit_inv : me = .initial dataSize (dequeBlockSize dataSize) base.next ∧
    heap = (mallocBlock base (dequeBlockSize dataSize)).2 := by
  unfold dequeInit at made
  split at made
  · cases made
  · split at made
    · cases made
    · cases made
      exact ⟨rfl, rfl⟩

theorem dequeInit_rep : DequeRep me.blockSize base me heap [] := by
  obtain ⟨rfl, rfl⟩ := dequeInit_inv made
  have sized : 0 < dequeBlockSize dataSize ∧ dequeBlockSize dataSize ≤ 4096 := by
    have quotient := Nat.div_le_self 4096 dataSize
    unfold dequeBlockSize
    split <;> omega
  refine .initial sized.1 sized.2 (Function.update_self ..) (base.unused _ (Nat.le_refl _)) ?_ (Nat.le_succ _)
  exact fun address other => Function.update_of_ne other ..

theorem dequeInit_frugal (peak : Nat) : DequeFrugal peak me.blockSize me := by
  obtain ⟨rfl, -⟩ := dequeInit_inv made
  refine ⟨show 2 ≤ dequeInitialBlockCount by decide, ?_, ?_⟩
  · simp only [InternalDeque.allocated, InternalDeque.initial]
    have blocks := Nat.zero_le (peak / dequeBlockSize dataSize)
    omega
  · simp only [InternalDeque.initial]
    have blocks := Nat.zero_le (peak / dequeBlockSize dataSize)
    omega

theorem deque_history (calls : List (DequeCall α)) :
    ∃ s, run DequeCall.run ⟨me, heap, []⟩ calls = .ok s ∧
      ∃ items, DequeRep me.blockSize base s.me s.heap items ∧ DequeTrace calls s.answers items :=
  run_history_along
    (fun past (s : DequeState α) => ∃ items, DequeRep me.blockSize base s.me s.heap items ∧ DequeTrace past s.answers items)
    (fun past s call held (_ : True) => by
      obtain ⟨items, rep, trace⟩ := held
      obtain ⟨s', answer, items', here, answers, rep', spec, -⟩ := rep.step 0 call
      exact ⟨s', here, items', rep', by rw [answers]; exact trace.call spec⟩)
    ⟨[], dequeInit_rep made, .start⟩ (along_of_all (fun _ _ _ => trivial) _)

/-- In every run of calls on a new deque, with any of the allocations failing,
each call returns, without an access outside a block or to what nothing has
written, and answers as the list does. Destroying the deque then frees every
block once and leaves the memory as it was. -/
theorem deque_run (calls : List (DequeCall α)) :
    ∃ s items, run DequeCall.run ⟨me, heap, []⟩ calls = .ok s ∧ DequeTrace calls s.answers items ∧
      dequeSize s.me = items.length ∧ ∃ last, dequeDestroy s.me s.heap = .ok last ∧ last.cells = base.cells := by
  obtain ⟨s, runs, items, rep, trace⟩ := deque_history made calls
  exact ⟨s, items, runs, trace, rep.size, rep.destroy⟩

/-- A trim after a run keeps the items in blocks of the deque exactly if the
first index is not behind the last block. -/
theorem deque_trim_iff {calls : List (DequeCall α)} {s : DequeState α}
    (runs : run DequeCall.run ⟨me, heap, []⟩ calls = .ok s) :
    ∃ items, DequeTrace calls s.answers items ∧
      ((∃ r, dequeTrim true s.me s.heap = .ok r ∧ DequeRep me.blockSize base r.me r.heap items) ↔
        s.me.startIndex / me.blockSize ≤ s.me.allocBlockEnd) := by
  obtain ⟨other, again, items, rep, trace⟩ := deque_history made calls
  rw [runs] at again
  cases again
  exact ⟨items, trace, (rep.trim_iff true).trans (forall_prop_of_true rfl)⟩

/-- In a run that pushes only while the deque has fewer than `peak` items, the
blocks that are allocated are at most two more than `peak` items fill, the table
of blocks stays within a fixed multiple of that, and no call fails for lack of
indices as long as eleven blocks more than `peak` items can be counted. -/
theorem deque_frugal {peak : Nat} {calls : List (DequeCall α)}
    (few : Along DequeCall.run (fun s call => call.Pushes → dequeSize s.me < peak) ⟨me, heap, []⟩ calls) :
    ∃ s, run DequeCall.run ⟨me, heap, []⟩ calls = .ok s ∧
      {address | s.heap.cells address ≠ base.cells address}.ncard ≤ peak / me.blockSize + 2 ∧
      s.me.data.length ≤ 2 * (peak / me.blockSize + 10) ∧
      (peak + 11 * me.blockSize < 2 ^ 64 → ∀ answer ∈ s.answers, answer.err ≠ .erange) := by
  obtain ⟨s, runs, items, rep, frugal, -, answers⟩ := run_history_along
    (fun _ (s : DequeState α) => ∃ items, DequeRep me.blockSize base s.me s.heap items ∧
      DequeFrugal peak me.blockSize s.me ∧ items.length ≤ peak ∧
      (peak + 11 * me.blockSize < 2 ^ 64 → ∀ answer ∈ s.answers, answer.err ≠ .erange))
    (fun past s call held safe => by
      obtain ⟨items, rep, frugal, within, answered⟩ := held
      obtain ⟨s', answer, items', here, answers, rep', -, kept, longer, range⟩ := rep.step peak call
      refine ⟨s', here, items', rep', kept frugal within, ?_, fun room => ?_⟩
      · rcases longer with shorter | ⟨pushes, more⟩
        · omega
        · have below := safe pushes
          rw [rep.size] at below
          omega
      · rw [answers]
        intro other member
        rcases List.mem_append.mp member with old | new
        · exact answered room other old
        · rw [List.mem_singleton.mp new]
          intro erange
          exact Nat.not_le_of_lt room (crowded rep.shape.positive (range erange frugal)))
    ⟨[], dequeInit_rep made, dequeInit_frugal made peak, Nat.zero_le _, by simp⟩ few
  refine ⟨s, runs, Nat.le_trans rep.blocks_ncard frugal.blocks, ?_, answers⟩
  rw [rep.shape.table]
  exact frugal.entries

end Init

/-- A push and a pop of a new deque of numbers. -/
theorem deque_run_pushPop :
    ∃ (s : DequeState Nat) (items : List Nat),
      run DequeCall.run ⟨.initial 8 512 1, (mallocBlock Memory.empty 512).2, []⟩
        [.pushBack true true 7, .popFront] = .ok s ∧
      DequeTrace [.pushBack true true 7, .popFront] s.answers items ∧ dequeSize s.me = items.length ∧
      ∃ last, dequeDestroy s.me s.heap = .ok last ∧ last.cells = (Memory.empty : Memory (DequeBlock Nat)).cells :=
  @deque_run Nat Memory.empty _ _ 8 rfl _

theorem deque_trim_iff_new :
    ∃ items, DequeTrace [] ([] : List (DequeAnswer Nat)) items ∧
      ((∃ r, dequeTrim true (.initial 8 512 1) (mallocBlock Memory.empty 512).2 = .ok r ∧
          DequeRep 512 Memory.empty r.me r.heap items) ↔ 2048 / 512 ≤ 4) :=
  @deque_trim_iff Nat Memory.empty (mallocBlock Memory.empty 512).2 (.initial 8 512 1) 8 rfl [] ⟨_, _, []⟩ rfl

theorem deque_frugal_push :
    ∃ s : DequeState Nat, run DequeCall.run ⟨.initial 8 512 1, (mallocBlock Memory.empty 512).2, []⟩ [.pushBack true true 7] = .ok s ∧
      {address | s.heap.cells address ≠ (Memory.empty : Memory (DequeBlock Nat)).cells address}.ncard ≤ 1 / 512 + 2 ∧
      s.me.data.length ≤ 2 * (1 / 512 + 10) ∧
      (1 + 11 * 512 < 2 ^ 64 → ∀ answer ∈ s.answers, answer.err ≠ .erange) :=
  @deque_frugal Nat Memory.empty (mallocBlock Memory.empty 512).2 (.initial 8 512 1) 8 rfl 1 _
    ⟨fun _ => by decide, fun _ _ => trivial⟩

end DynamicRPC
