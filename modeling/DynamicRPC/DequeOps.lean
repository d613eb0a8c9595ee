import DynamicRPC.DequePush

namespace DynamicRPC
open Outcome Paged
variable {α : Type} {B : Nat} {base heap heap' : Memory (DequeBlock α)} {me me' : InternalDeque} {items : List α}

/-- What a push does to the size of the table and the number of blocks, with its result. -/
structure Pushed (realloc malloc : Bool) (B count : Nat) (me : InternalDeque) (err : BkErr) (me' : InternalDeque) :
    Prop where
  several : 2 ≤ me.blockCount → 2 ≤ me'.blockCount
  entries : 2 ≤ me.blockCount → me'.blockCount ≤ max me.blockCount (2 * (me.allocated + dequeInitialBlockCount))
  allocated : me'.allocated = me.allocated ∨ me'.allocated = me.allocated + 1 ∧ (me.allocated - 1) * B < count
  memory : err = .enomem → ¬ (realloc ∧ malloc)
  range : err = .erange → (2 ^ 64 - 1) / B ≤ me.allocated + dequeInitialBlockCount
  einval : err ≠ .einval

section Pushed
variable {realloc malloc : Bool} {count : Nat} {roomed taken : InternalDeque} {err : BkErr}

theorem TableRoomed.refuses (room : TableRoomed realloc me err roomed) (size : me.blockSize = B) :
    err ≠ .ok → Pushed realloc malloc B count me err roomed := by
  intro refused
  exact {
    several := fun several => Nat.le_trans several room.grows
    entries := room.entries
    allocated := .inl room.allocated
    memory := fun enomem => by simp [room.memory enomem]
    range := by rw [← size]; exact room.range
    einval := room.einval }

theorem TableRoomed.takes {first : BkErr} (room : TableRoomed realloc me first roomed)
    (took : BlockTaken malloc B count roomed err taken) : Pushed realloc malloc B count me err taken where
  several := by rw [took.blockCount]; exact fun several => Nat.le_trans several room.grows
  entries := by rw [took.blockCount]; exact room.entries
  allocated := by rw [← room.allocated]; exact took.allocated
  memory := fun enomem => by
    have failed := (took.refused (by rw [enomem]; simp)).2
    simp [failed]
  range := fun erange => by
    have failed := (took.refused (by rw [erange]; simp)).1
    rw [erange] at failed
    cases failed
  einval := fun einval => by
    have failed := (took.refused (by rw [einval]; simp)).1
    rw [einval] at failed
    cases failed

/-- The indices of the first and last element do not matter to the bounds. -/
theorem Pushed.indices (pushed : Pushed realloc malloc B count me err taken) (start finish : Nat) :
    Pushed realloc malloc B count me err { taken with startIndex := start, endIndex := finish } :=
  { pushed with }

end Pushed

namespace DequeRep

/-- An empty deque with one block. -/
theorem initial {dataSize block : Nat} (positive : 0 < B) (small : B ≤ 4096)
    (object : heap.cells block = some (List.replicate B none)) (unused : base.cells block = none)
    (frame : ∀ address, address ≠ block → heap.cells address = base.cells address) (newer : base.next ≤ heap.next) :
    DequeRep B base (.initial dataSize B block) heap [] := by
  have middle : B * dequeInitialBlockCount / 2 = 4 * B := by
    unfold dequeInitialBlockCount
    omega
  have quotient : B * dequeInitialBlockCount / 2 / B = 4 := by rw [middle, Nat.mul_div_cancel _ positive]
  have first : (InternalDeque.initial dataSize B block).allocBlockStart = 4 := quotient
  have last : (InternalDeque.initial dataSize B block).allocBlockEnd = 4 := quotient
  have entry : (InternalDeque.initial dataSize B block).page 4 = some block := by
    simp only [InternalDeque.page, InternalDeque.initial, quotient]
    rw [List.getElem?_set_self (by simp [dequeInitialBlockCount])]
    rfl
  have points : ∀ address, (InternalDeque.initial dataSize B block).Points address ↔ address = block := by
    intro address
    constructor
    · rintro ⟨i, lower, upper, held⟩
      have here : i = 4 := by omega
      rw [here, entry] at held
      exact (Option.some.inj held).symm
    · rintro rfl
      exact ⟨4, by omega, by omega, entry⟩
  refine {
    shape := {
      blockSize := rfl, positive, small, within := ?_, table := by simp [InternalDeque.initial], ordered := Nat.le_refl _
      bounded := by rw [last]; exact show 4 < dequeInitialBlockCount by decide
      lower := by rw [first]; exact Nat.le_of_eq middle.symm
      upper := by rw [last]; change B * dequeInitialBlockCount / 2 ≤ _; omega }
    span := rfl
    owned := ⟨?_, ?_⟩
    holds := .nil _ _
    newer
    fresh := fun address held => by rw [(points address).mp held, unused]
    frame := fun address free => frame address (fun same => free ((points address).mpr same)) }
  · change 8 * B < 2 ^ 64
    omega
  · intro i lower upper
    have here : i = 4 := by omega
    subst here
    exact ⟨block, _, entry, object, List.length_replicate⟩
  · intro i j lower upper lower' upper' _
    omega

section Operations
variable (rep : DequeRep B base me heap items)
include rep

theorem size : dequeSize me = items.length := by
  have span := rep.span
  unfold dequeSize
  omega

theorem finite : me.startIndex + items.length < 2 ^ 64 := by
  have bound := rep.shape.end_le
  have within := rep.shape.within
  have span := rep.span
  omega

/-- The cells of the items lie in blocks of the deque. -/
theorem inside {k : Nat} (within : k < items.length) :
    me.allocBlockStart ≤ (me.startIndex + k) / B ∧ (me.startIndex + k) / B ≤ me.allocBlockEnd := by
  have lower := rep.shape.lower
  have upper := rep.shape.upper
  have span := rep.span
  have below : (me.startIndex + k) / B < me.allocBlockEnd + 1 :=
    (Nat.div_lt_iff_lt_mul rep.shape.positive).mpr (by omega)
  exact ⟨(Nat.le_div_iff_mul_le rep.shape.positive).mpr (by omega), by omega⟩

/-- Other indices into the same blocks. -/
theorem narrowed {start finish : Nat} {kept : List α} (lower : me.allocBlockStart * B ≤ start)
    (upper : finish ≤ (me.allocBlockEnd + 1) * B) (span : finish = start + kept.length)
    (holds : Holds (cellAt B me.page heap.cells) start kept) :
    DequeRep B base { me with startIndex := start, endIndex := finish } heap kept where
  shape := { rep.shape with lower, upper }
  span
  owned := rep.owned
  holds
  newer := rep.newer
  fresh := rep.fresh
  frame := rep.frame

/-- Written cells, in the same blocks. -/
theorem rewritten {kept : List α} (next : heap'.next = heap.next)
    (owned : Owned B me.page heap'.cells me.allocBlockStart me.allocBlockEnd)
    (frame : ∀ address, ¬ me.Points address → heap'.cells address = heap.cells address)
    (length : kept.length = items.length)
    (holds : Holds (cellAt B me.page heap'.cells) me.startIndex kept) : DequeRep B base me heap' kept where
  shape := rep.shape
  span := by rw [length, rep.span]
  owned
  holds
  newer := by rw [next]; exact rep.newer
  fresh := rep.fresh
  frame := fun address free => (frame address free).trans (rep.frame address free)

theorem pushBack (realloc malloc : Bool) (data : α) :
    ∃ r, dequePushBack realloc malloc me heap data = .ok r ∧
      (r.err = .ok ∧ DequeRep B base r.me r.heap (items ++ [data]) ∨
        r.err ≠ .ok ∧ DequeRep B base r.me r.heap items) ∧
      Pushed realloc malloc B items.length me r.err r.me := by
  obtain ⟨err, roomed, run, held, room, space⟩ := dequeMakeRoomBack_spec rep realloc
  unfold dequePushBack
  rw [run, ok_bind]
  dsimp only
  by_cases fits : err = .ok
  swap
  · rw [if_pos fits]
    exact ⟨_, rfl, .inr ⟨fits, held⟩, room.refuses rep.shape.blockSize fits⟩
  rw [if_neg (not_not.mpr fits)]
  obtain ⟨taken, run, held, took, space⟩ := dequeTakeBlockBack_spec held (space fits) malloc
  have pushed := room.takes took
  rw [run, ok_bind]
  by_cases there : taken.err = .ok
  swap
  · rw [if_pos there]
    exact ⟨_, rfl, .inr ⟨there, held⟩, pushed⟩
  rw [if_neg (not_not.mpr there)]
  have span := held.span
  have lower := held.shape.lower
  have above : taken.me.allocBlockStart ≤ taken.me.endIndex / B :=
    (Nat.le_div_iff_mul_le held.shape.positive).mpr (by omega)
  obtain ⟨after, write, next, owned, frame, cell, others⟩ := held.writeElement above (space there) data
  rw [write, ok_bind]
  rw [there] at pushed
  refine ⟨_, rfl, .inl ⟨rfl, ?_⟩, pushed.indices _ _⟩
  have same : Holds (cellAt B taken.me.page after.cells) taken.me.startIndex items := by
    refine held.holds.moved fun k within => ?_
    obtain ⟨low, high⟩ := held.inside within
    exact others _ low high (by omega)
  have kept := held.rewritten next owned frame rfl same
  refine kept.narrowed lower ?_ (by rw [List.length_append, List.length_singleton]; omega) (same.concat ?_)
  · have room := (Nat.div_lt_iff_lt_mul held.shape.positive).mp (Nat.lt_succ_of_le (space there))
    exact room
  · rw [← span]
    exact cell

theorem pushFront (realloc malloc : Bool) (data : α) :
    ∃ r, dequePushFront realloc malloc me heap data = .ok r ∧
      (r.err = .ok ∧ DequeRep B base r.me r.heap (data :: items) ∨
        r.err ≠ .ok ∧ DequeRep B base r.me r.heap items) ∧
      Pushed realloc malloc B items.length me r.err r.me := by
  obtain ⟨err, roomed, run, held, room, space⟩ := dequeMakeRoomFront_spec rep realloc
  unfold dequePushFront
  rw [run, ok_bind]
  dsimp only
  by_cases fits : err = .ok
  swap
  · rw [if_pos fits]
    exact ⟨_, rfl, .inr ⟨fits, held⟩, room.refuses rep.shape.blockSize fits⟩
  rw [if_neg (not_not.mpr fits)]
  obtain ⟨taken, run, held, start, took, space'⟩ := dequeTakeBlockFront_spec held (space fits) malloc
  have pushed := room.takes took
  rw [run, ok_bind]
  by_cases there : taken.err = .ok
  swap
  · rw [if_pos there]
    exact ⟨_, rfl, .inr ⟨there, held⟩, pushed⟩
  rw [if_neg (not_not.mpr there)]
  have span := held.span
  have upper := held.shape.upper
  have room := space' there
  have above : taken.me.allocBlockStart ≤ (taken.me.startIndex - 1) / B :=
    (Nat.le_div_iff_mul_le held.shape.positive).mpr (by omega)
  have below : (taken.me.startIndex - 1) / B < taken.me.allocBlockEnd + 1 :=
    (Nat.div_lt_iff_lt_mul held.shape.positive).mpr (by omega)
  obtain ⟨after, write, next, owned, frame, cell, others⟩ := held.writeElement above (by omega) data
  have moved : ({ taken.me with startIndex := taken.me.startIndex - 1 } : InternalDeque).writeElement taken.heap
      (taken.me.startIndex - 1) data = .ok after := write
  rw [moved, ok_bind]
  rw [there] at pushed
  refine ⟨_, rfl, .inl ⟨rfl, ?_⟩, pushed.indices _ _⟩
  have same : Holds (cellAt B taken.me.page after.cells) taken.me.startIndex items := by
    refine held.holds.moved fun k within => ?_
    obtain ⟨low, high⟩ := held.inside within
    exact others _ low high (by omega)
  have kept := held.rewritten next owned frame rfl same
  refine kept.narrowed (by omega) upper (by rw [List.length_cons]; omega) (Holds.cons ?_ cell)
  rwa [show taken.me.startIndex - 1 + 1 = taken.me.startIndex by omega]

theorem isEmpty_iff : dequeIsEmpty me = true ↔ items = [] := by
  unfold dequeIsEmpty
  rw [rep.size, decide_eq_true_iff, List.length_eq_zero_iff]

theorem popFront : ∃ me', dequePopFront me heap = .ok (items.head?, me') ∧ DequeRep B base me' heap items.tail ∧
    me'.allocated = me.allocated ∧ me'.blockCount = me.blockCount := by
  unfold dequePopFront
  cases items with
  | nil =>
    rw [if_pos (rep.isEmpty_iff.mpr rfl)]
    exact ⟨me, rfl, rep, rfl, rfl⟩
  | cons a items =>
    rw [if_neg (by rw [rep.isEmpty_iff]; simp)]
    obtain ⟨low, high⟩ := @inside _ _ _ _ _ _ rep 0 (by simp)
    rw [Nat.add_zero] at low high
    rw [rep.readElement low high rep.holds.head, ok_bind]
    have lower := rep.shape.lower
    have span := rep.span
    rw [List.length_cons] at span
    exact ⟨_, rfl, rep.narrowed (by omega) rep.shape.upper (by rw [List.tail_cons]; omega) rep.holds.tail, rfl, rfl⟩

theorem popBack : ∃ me', dequePopBack me heap = .ok (items.getLast?, me') ∧ DequeRep B base me' heap items.dropLast ∧
    me'.allocated = me.allocated ∧ me'.blockCount = me.blockCount := by
  unfold dequePopBack
  rcases List.eq_nil_or_concat items with rfl | ⟨items, a, rfl⟩
  · rw [if_pos (rep.isEmpty_iff.mpr rfl)]
    exact ⟨me, rfl, rep, rfl, rfl⟩
  · rw [if_neg (by rw [rep.isEmpty_iff]; simp), List.concat_eq_append, List.getLast?_concat, List.dropLast_concat]
    rw [List.concat_eq_append] at rep
    have span := rep.span
    rw [List.length_append, List.length_singleton] at span
    have final : me.endIndex - 1 = me.startIndex + items.length := by omega
    obtain ⟨low, high⟩ := @inside _ _ _ _ _ _ rep items.length (by simp)
    rw [final, rep.readElement low high rep.holds.last, ok_bind]
    have upper := rep.shape.upper
    exact ⟨_, rfl, rep.narrowed rep.shape.lower (by omega) rfl rep.holds.init, rfl, rfl⟩

theorem getAt (index : Nat) : dequeGetAt me heap index = .ok items[index]? := by
  unfold dequeGetAt
  rw [rep.size]
  by_cases within : index < items.length
  · rw [if_neg (by omega)]
    have finite := rep.finite
    rw [Nat.mod_eq_of_lt (by omega), Nat.add_comm]
    obtain ⟨low, high⟩ := rep.inside within
    have there := rep.holds index within
    rw [List.getElem?_eq_getElem within] at there
    rw [rep.readElement low high there, ok_bind, List.getElem?_eq_getElem within]
    rfl
  · rw [if_pos (by omega), List.getElem?_eq_none (by omega)]
    rfl

theorem setAt (index : Nat) (data : α) :
    ∃ heap', dequeSetAt me heap index data = .ok ⟨if index < items.length then .ok else .einval, me, heap'⟩ ∧
      DequeRep B base me heap' (items.set index data) := by
  unfold dequeSetAt
  rw [rep.size]
  by_cases within : index < items.length
  · rw [if_neg (by omega), if_pos within]
    have finite := rep.finite
    rw [Nat.mod_eq_of_lt (by omega), Nat.add_comm]
    obtain ⟨low, high⟩ := rep.inside within
    obtain ⟨after, write, next, owned, frame, cell, others⟩ := rep.writeElement low high data
    rw [write, ok_bind]
    refine ⟨after, rfl, rep.rewritten next owned frame List.length_set (rep.holds.set cell fun i first last other => ?_)⟩
    obtain ⟨low', high'⟩ := rep.inside (show i - me.startIndex < items.length by omega)
    rw [show me.startIndex + (i - me.startIndex) = i by omega] at low' high'
    exact others i low' high' other
  · rw [if_pos (by omega), if_neg within, List.set_eq_of_length_le (by omega)]
    exact ⟨heap, rfl, rep⟩

theorem getLast : dequeGetLast me heap = .ok items.getLast? := by
  have finite := rep.finite
  unfold dequeGetLast
  rw [rep.getAt, rep.size, List.getLast?_eq_getElem?]
  by_cases empty : items = []
  · subst empty
    simp
  · have positive := List.length_pos_iff.mpr empty
    rw [sizeSub_of_le (by omega) positive]

theorem setLast (data : α) :
    ∃ heap', dequeSetLast me heap data = .ok ⟨if items = [] then .einval else .ok, me, heap'⟩ ∧
      DequeRep B base me heap' (items.set (items.length - 1) data) := by
  have finite := rep.finite
  unfold dequeSetLast
  rw [rep.size]
  by_cases empty : items = []
  · subst empty
    obtain ⟨after, run, held⟩ := rep.setAt (sizeSub 0 1) data
    exact ⟨after, run, held⟩
  · have positive := List.length_pos_iff.mpr empty
    rw [sizeSub_of_le (by omega) positive, if_neg empty]
    obtain ⟨after, run, held⟩ := rep.setAt (items.length - 1) data
    rw [if_pos (by omega)] at run
    exact ⟨after, run, held⟩

end Operations

section Free

/-- The loop frees the blocks behind the entries, each of them once. -/
theorem freed {i count : Nat}
    (live : ∀ j, i ≤ j → j < i + count → ∃ p block, me.page j = some p ∧ heap.cells p = some block)
    (distinct : ∀ j k, i ≤ j → j < i + count → i ≤ k → k < i + count → me.page j = me.page k → j = k) :
    ∃ heap', me.freeBlocks heap i count = .ok heap' ∧ heap'.next = heap.next ∧
      (∀ p, me.PointsIn i count p → heap'.cells p = none) ∧
      ∀ p, ¬ me.PointsIn i count p → heap'.cells p = heap.cells p := by
  induction count generalizing i heap with
  | zero =>
    refine ⟨heap, rfl, rfl, ?_, fun p _ => rfl⟩
    rintro p ⟨j, lower, upper, -⟩
    omega
  | succ count ih =>
    obtain ⟨p, block, entry, object⟩ := live i (Nat.le_refl _) (by omega)
    have present : (heap.cells p).isSome := by rw [object]; rfl
    have released : (heap.replace p none present).cells p = none := Function.update_self ..
    have others : ∀ q, q ≠ p → (heap.replace p none present).cells q = heap.cells q :=
      fun q other => Function.update_of_ne other ..
    obtain ⟨last, run, next, gone, kept⟩ := @ih (heap.replace p none present) (i + 1) (by
      intro j lower upper
      obtain ⟨q, other, held, there⟩ := live j (by omega) (by omega)
      refine ⟨q, other, held, ?_⟩
      have apart : q ≠ p := by
        rintro rfl
        have same := distinct i j (Nat.le_refl _) (by omega) (by omega) (by omega) (entry.trans held.symm)
        omega
      rw [others q apart, there]) (fun j k lower upper lower' upper' same =>
        distinct j k (by omega) (by omega) (by omega) (by omega) same)
    have later : ∀ q, me.PointsIn (i + 1) count q → me.PointsIn i (count + 1) q := by
      rintro q ⟨j, lower, upper, held⟩
      exact ⟨j, by omega, by omega, held⟩
    refine ⟨last, ?_, next, ?_, fun q free => ?_⟩
    · unfold InternalDeque.freeBlocks
      rw [InternalDeque.load_of_page entry, ok_bind, Memory.free, dif_pos present, pure_eq_ok, ok_bind, run]
    · rintro q ⟨j, lower, upper, held⟩
      by_cases more : me.PointsIn (i + 1) count q
      · exact gone q more
      · have here : j = i := by
          by_contra other
          exact more ⟨j, by omega, by omega, held⟩
        rw [here, entry] at held
        cases held
        rw [kept p more, released]
    · have apart : q ≠ p := by
        rintro rfl
        exact free ⟨i, Nat.le_refl _, by omega, entry⟩
      rw [kept q (fun more => free (later q more)), others q apart]

variable (rep : DequeRep B base me heap items)
include rep

theorem live_block {j : Nat} (low : me.allocBlockStart ≤ j) (high : j ≤ me.allocBlockEnd) :
    ∃ p block, me.page j = some p ∧ heap.cells p = some block := by
  obtain ⟨p, block, entry, object, -⟩ := rep.owned.live j low high
  exact ⟨p, block, entry, object⟩

theorem points_iff (address : Nat) : me.Points address ↔
    me.PointsIn me.allocBlockStart (me.allocBlockEnd + 1 - me.allocBlockStart) address := by
  have ordered := rep.shape.ordered
  constructor
  · rintro ⟨j, lower, upper, held⟩
    exact ⟨j, lower, by omega, held⟩
  · rintro ⟨j, lower, upper, held⟩
    exact ⟨j, lower, by omega, held⟩

/-- Destroying the deque gives every block back, and leaves the memory as it was before the deque was made. -/
theorem destroy : ∃ last, dequeDestroy me heap = .ok last ∧ last.cells = base.cells := by
  have ordered := rep.shape.ordered
  obtain ⟨last, run, -, gone, kept⟩ := @freed _ heap me me.allocBlockStart (me.allocBlockEnd + 1 - me.allocBlockStart)
    (fun j lower upper => rep.live_block lower (by omega))
    (fun j k lower upper lower' upper' same => rep.owned.distinct j k lower (by omega) lower' (by omega) same)
  refine ⟨last, run, funext fun p => ?_⟩
  by_cases held : me.Points p
  · rw [gone p ((rep.points_iff p).mp held), rep.fresh p held]
  · rw [kept p (fun there => held ((rep.points_iff p).mpr there)), rep.frame p held]

theorem clear (granted : Bool) :
    ∃ r, dequeClear granted me heap = .ok r ∧ r.err = (if granted then .ok else .enomem) ∧
      DequeRep B base r.me r.heap (if granted then [] else items) ∧
      r.me.allocated ≤ me.allocated ∧ r.me.blockCount ≤ max me.blockCount dequeInitialBlockCount ∧
      (2 ≤ me.blockCount → 2 ≤ r.me.blockCount) := by
  have ordered := rep.shape.ordered
  unfold dequeClear
  cases granted with
  | false => exact ⟨_, rfl, rfl, rep, Nat.le_refl _, Nat.le_max_left .., id⟩
  | true =>
    rw [if_neg (by simp), rep.shape.blockSize]
    have unused : heap.cells heap.next = none := heap.unused _ (Nat.le_refl _)
    have object : (mallocBlock heap B).2.cells heap.next = some (List.replicate B none) := Function.update_self ..
    have elsewhere : ∀ address, address ≠ heap.next → (mallocBlock heap B).2.cells address = heap.cells address :=
      fun address other => Function.update_of_ne other ..
    have apart : ∀ j p block, me.page j = some p → heap.cells p = some block → p ≠ heap.next := by
      rintro j p block - there rfl
      rw [unused] at there
      cases there
    obtain ⟨last, run, next, gone, kept⟩ := @freed _ (mallocBlock heap B).2 me me.allocBlockStart
      (me.allocBlockEnd + 1 - me.allocBlockStart)
      (fun j lower upper => by
        obtain ⟨p, block, entry, there, -⟩ := rep.owned.live j lower (by omega)
        exact ⟨p, block, entry, by rw [elsewhere p (apart j p block entry there), there]⟩)
      (fun j k lower upper lower' upper' same => rep.owned.distinct j k lower (by omega) lower' (by omega) same)
    dsimp only
    rw [run, ok_bind]
    have outside : ¬ me.Points heap.next := by
      rintro ⟨j, lower, upper, held⟩
      obtain ⟨p, block, entry, there, -⟩ := rep.owned.live j lower upper
      rw [held] at entry
      cases entry
      exact apart j _ block held there rfl
    refine ⟨_, rfl, rfl, initial rep.shape.positive rep.shape.small ?_ ?_ ?_ ?_, ?_, Nat.le_max_right .., fun _ => ?_⟩
    · change last.cells heap.next = _
      rw [kept _ (fun there => outside ((rep.points_iff _).mpr there)), object]
    · exact base.unused _ rep.newer
    · intro address other
      by_cases held : me.Points address
      · rw [gone address ((rep.points_iff address).mp held), rep.fresh address held]
      · rw [kept address (fun there => held ((rep.points_iff address).mpr there)), elsewhere address other,
          rep.frame address held]
    · rw [next]
      exact Nat.le_trans rep.newer (Nat.le_succ _)
    · simp only [InternalDeque.allocated, InternalDeque.initial]
      omega
    · exact show 2 ≤ dequeInitialBlockCount by decide

/-- The block that `deque_trim` takes for the last one. -/
theorem trim_last {last : Nat} (ends : last = if dequeIsEmpty me then me.startIndex / B else (me.endIndex - 1) / B) :
    (items = [] → last = me.startIndex / B) ∧ (items ≠ [] → last = (me.endIndex - 1) / B) :=
  ⟨fun none => ends.trans (if_pos (rep.isEmpty_iff.mpr none)),
    fun some_item => ends.trans (if_neg (fun none => some_item (rep.isEmpty_iff.mp none)))⟩

/-- Where the first index is in a block, the trimmed deque holds the same items. -/
theorem trim_keeps (inside : me.startIndex / B ≤ me.allocBlockEnd) :
    ∃ r, dequeTrim true me heap = .ok r ∧ DequeRep B base r.me r.heap items := by
  have positive := rep.shape.positive
  have table := rep.shape.table
  have ordered := rep.shape.ordered
  have bounded := rep.shape.bounded
  have lower := rep.shape.lower
  have upper := rep.shape.upper
  have span := rep.span
  have first := (Nat.le_div_iff_mul_le positive).mpr lower
  unfold dequeTrim
  rw [rep.shape.blockSize]
  dsimp only
  obtain ⟨last, ends⟩ : ∃ last, last = if dequeIsEmpty me then me.startIndex / B else (me.endIndex - 1) / B := ⟨_, rfl⟩
  obtain ⟨empty, filled⟩ := rep.trim_last ends
  rw [← ends, if_neg (by simp)]
  have beyond : me.startIndex < (me.startIndex / B + 1) * B := (Nat.div_lt_iff_lt_mul positive).mp (Nat.lt_succ_self _)
  have before : me.startIndex / B * B ≤ me.startIndex := Nat.div_mul_le_self ..
  have ordered' : me.startIndex / B ≤ last ∧ last ≤ me.allocBlockEnd ∧ me.endIndex ≤ (last + 1) * B := by
    by_cases none : items = []
    · subst none
      rw [List.length_nil] at span
      rw [empty rfl]
      exact ⟨Nat.le_refl _, inside, by omega⟩
    · have some_item := List.length_pos_iff.mpr none
      have above := @Nat.div_le_div_right _ _ B (show me.startIndex ≤ me.endIndex - 1 by omega)
      have below : (me.endIndex - 1) / B < me.allocBlockEnd + 1 := (Nat.div_lt_iff_lt_mul positive).mpr (by omega)
      have finish := (Nat.div_lt_iff_lt_mul positive).mp (Nat.lt_succ_self ((me.endIndex - 1) / B))
      rw [Nat.succ_eq_add_one] at finish
      rw [filled none]
      exact ⟨above, by omega, by omega⟩
  obtain ⟨narrow, short, finish⟩ := ordered'
  obtain ⟨front, run, next, gone, kept⟩ := @freed _ heap me me.allocBlockStart (me.startIndex / B - me.allocBlockStart)
    (fun j low high => rep.live_block low (by omega))
    (fun j k low high low' high' same => rep.owned.distinct j k low (by omega) low' (by omega) same)
  have clear_front : ∀ j p, me.startIndex / B ≤ j → j ≤ me.allocBlockEnd → me.page j = some p →
      front.cells p = heap.cells p := by
    intro j p low high entry
    refine kept p ?_
    rintro ⟨i, low', high', held⟩
    have same := rep.owned.distinct i j low' (by omega) (by omega) high (held.trans entry.symm)
    omega
  obtain ⟨back, run', next', gone', kept'⟩ := @freed _ front me (last + 1) (me.allocBlockEnd - last)
    (fun j low high => by
      obtain ⟨p, block, entry, object⟩ := @live_block _ _ _ _ _ _ rep j (by omega) (by omega)
      exact ⟨p, block, entry, by rw [clear_front j p (by omega) (by omega) entry, object]⟩)
    (fun j k low high low' high' same =>
      rep.owned.distinct j k (by omega) (by omega) (by omega) (by omega) same)
  have clear_back : ∀ j p, me.startIndex / B ≤ j → j ≤ last → me.page j = some p → back.cells p = heap.cells p := by
    intro j p low high entry
    rw [← clear_front j p low (by omega) entry]
    refine kept' p ?_
    rintro ⟨i, low', high', held⟩
    have same := rep.owned.distinct i j (by omega) (by omega) (by omega) (by omega) (held.trans entry.symm)
    omega
  rw [if_neg (by omega), run, ok_bind, run', ok_bind]
  have page : ∀ j ≤ last - me.startIndex / B,
      ((((me.data.drop (me.startIndex / B)).take (last - me.startIndex / B + 1))[j]?).join) =
        me.page (j + me.startIndex / B) := by
    intro j low
    rw [List.getElem?_take_of_lt (by omega), List.getElem?_drop, Nat.add_comm]
    rfl
  have width : (last - me.startIndex / B + 1) * B = (last + 1) * B - me.startIndex / B * B := by
    rw [← Nat.sub_mul]
    congr 1
    omega
  have total := Nat.mul_le_mul_right B (show last + 1 ≤ me.blockCount by omega)
  have within := rep.shape.within
  refine ⟨_, rfl, ⟨⟨rfl, positive, rep.shape.small, ?_, ?_, Nat.zero_le _, ?_, ?_, ?_⟩, ?_, ⟨?_, ?_⟩, ?_, ?_, ?_, ?_⟩⟩
  · dsimp only
    omega
  · simp only [List.length_take, List.length_drop]
    omega
  · dsimp only
    omega
  · dsimp only
    omega
  · dsimp only
    rw [show last - me.startIndex / B + 1 - 1 + 1 = last - me.startIndex / B + 1 by omega, width]
    omega
  · dsimp only
    omega
  · intro j low high
    dsimp only at high
    obtain ⟨p, block, entry, object, length⟩ := rep.owned.live (j + me.startIndex / B) (by omega) (by omega)
    exact ⟨p, block, (page j (by omega)).trans entry,
      by rw [clear_back _ p (by omega) (by omega) entry, object], length⟩
  · intro j k low high low' high' same
    dsimp only at high high'
    have moved : me.page (j + me.startIndex / B) = me.page (k + me.startIndex / B) := by
      rw [← page j (by omega), ← page k (by omega)]
      exact same
    have shifted := rep.owned.distinct _ _ (by omega) (by omega) (by omega) (by omega) moved
    omega
  · refine rep.holds.moved fun k low => ?_
    have index : me.startIndex + k = me.startIndex - me.startIndex / B * B + k + me.startIndex / B * B := by omega
    have high : (me.startIndex + k) / B < last + 1 := (Nat.div_lt_iff_lt_mul positive).mpr (by omega)
    have above : me.startIndex / B ≤ (me.startIndex + k) / B := Nat.div_le_div_right (by omega)
    have quotient : (me.startIndex + k) / B = (me.startIndex - me.startIndex / B * B + k) / B + me.startIndex / B := by
      rw [index, Nat.add_mul_div_right _ _ positive]
    have entry := page ((me.startIndex - me.startIndex / B * B + k) / B) (by omega)
    rw [← cellAt_frame (fun p entry => clear_back _ p above (by omega) entry), index]
    exact (cellAt_shift positive entry.symm).symm
  · change base.next ≤ back.next
    rw [next', next]
    exact rep.newer
  · rintro p ⟨j, low, high, entry⟩
    dsimp only at high
    exact rep.fresh p ⟨j + me.startIndex / B, by omega, by omega, (page j (by omega)).symm.trans entry⟩
  · intro p free
    by_cases late : me.PointsIn (last + 1) (me.allocBlockEnd - last) p
    · obtain ⟨j, low, high, entry⟩ := late
      rw [gone' p ⟨j, low, high, entry⟩, rep.fresh p ⟨j, by omega, by omega, entry⟩]
    · rw [kept' p late]
      by_cases early : me.PointsIn me.allocBlockStart (me.startIndex / B - me.allocBlockStart) p
      · obtain ⟨j, low, high, entry⟩ := early
        rw [gone p ⟨j, low, high, entry⟩, rep.fresh p ⟨j, low, by omega, entry⟩]
      · rw [kept p early]
        refine rep.frame p ?_
        rintro ⟨j, low, high, entry⟩
        by_cases left : j < me.startIndex / B
        · exact early ⟨j, low, by omega, entry⟩
        · by_cases right : last < j
          · exact late ⟨j, by omega, by omega, entry⟩
          · refine free ⟨j - me.startIndex / B, Nat.zero_le _, by dsimp only; omega, ?_⟩
            refine (page _ (by omega)).trans ?_
            rw [show j - me.startIndex / B + me.startIndex / B = j by omega, entry]

/-- Where the first index is behind the last block, no block is left for the
entry that the smaller table keeps. -/
theorem trim_loses (outside : ¬ me.startIndex / B ≤ me.allocBlockEnd) :
    ¬ ∃ r, dequeTrim true me heap = .ok r ∧ DequeRep B base r.me r.heap items := by
  have positive := rep.shape.positive
  have ordered := rep.shape.ordered
  have upper := rep.shape.upper
  have span := rep.span
  have below : me.startIndex / B < me.allocBlockEnd + 2 := (Nat.div_lt_iff_lt_mul positive).mpr (by
    rw [show me.allocBlockEnd + 2 = me.allocBlockEnd + 1 + 1 by omega, Nat.succ_mul]
    omega)
  unfold dequeTrim
  rw [rep.shape.blockSize]
  dsimp only
  obtain ⟨last, ends⟩ : ∃ last, last = if dequeIsEmpty me then me.startIndex / B else (me.endIndex - 1) / B := ⟨_, rfl⟩
  obtain ⟨empty, -⟩ := rep.trim_last ends
  rw [← ends, if_neg (by simp)]
  have none : items = [] := by
    by_contra some_item
    have length := List.length_pos_iff.mpr some_item
    have below : me.startIndex / B < me.allocBlockEnd + 1 := (Nat.div_lt_iff_lt_mul positive).mpr (by omega)
    exact outside (by omega)
  rw [empty none]
  rintro ⟨r, trims, held⟩
  split at trims
  · cases trims
  · obtain ⟨front, run, trims⟩ := bind_eq_ok.mp trims
    obtain ⟨other, again, -, gone, kept⟩ := @freed _ heap me me.allocBlockStart
      (me.startIndex / B - me.allocBlockStart)
      (fun j low high => rep.live_block low (by omega))
      (fun j k low high low' high' same => rep.owned.distinct j k low (by omega) low' (by omega) same)
    rw [run] at again
    cases again
    rw [show me.allocBlockEnd - me.startIndex / B = 0 by omega] at trims
    cases trims
    -- no block is left for the entry that the smaller table keeps
    obtain ⟨p, block, entry, object, -⟩ := held.owned.live 0 (Nat.le_refl _) (Nat.zero_le _)
    have unused := held.fresh p ⟨0, Nat.le_refl _, Nat.zero_le _, entry⟩
    change front.cells p = some block at object
    by_cases points : me.Points p
    · obtain ⟨j, low, high, pointed⟩ := points
      rw [gone p ⟨j, low, by omega, pointed⟩] at object
      cases object
    · rw [kept p (fun there => points ?_), rep.frame p points, unused] at object
      · cases object
      · obtain ⟨j, low, high, pointed⟩ := there
        exact ⟨j, low, by omega, pointed⟩

/-- A trim without memory for the smaller table changes nothing; otherwise the
deque keeps its items exactly if its first index is not behind its last block,
where an empty deque can have it. -/
theorem trim_iff (granted : Bool) : (∃ r, dequeTrim granted me heap = .ok r ∧ DequeRep B base r.me r.heap items) ↔
    granted = true → me.startIndex / B ≤ me.allocBlockEnd := by
  cases granted with
  | false => exact iff_of_true ⟨_, rfl, rep⟩ (by simp)
  | true =>
    rw [forall_prop_of_true rfl]
    exact ⟨fun kept => by
      by_contra outside
      exact rep.trim_loses outside kept, rep.trim_keeps⟩

end Free

end DequeRep

end DynamicRPC
