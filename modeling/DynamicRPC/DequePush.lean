import DynamicRPC.DequeRep

namespace DynamicRPC
open Outcome Paged
variable {α : Type} {B : Nat} {base heap : Memory (DequeBlock α)} {me : InternalDeque} {items : List α}

section Resize

theorem roundDouble_exact {n : Nat} (small : n < 2 ^ 53) : roundDouble n = n := by
  have unit : 2 ^ (Nat.log2 n - 52) = 1 := by
    by_cases zero : n = 0
    · subst zero
      rfl
    · have bound : Nat.log2 n < 53 := (Nat.log2_lt zero).mpr small
      rw [show Nat.log2 n - 52 = 0 by omega, Nat.pow_zero]
  simp only [roundDouble, unit, Nat.mod_one, Nat.zero_mul, Nat.zero_lt_one, true_or, if_true, Nat.div_one, Nat.mul_one]

/-- A rounding moves a number by a small part of it. -/
theorem roundDouble_near (n : Nat) : roundDouble n ≤ n + n / 16 ∧ n ≤ roundDouble n + n / 16 := by
  by_cases small : n < 2 ^ 53
  · rw [roundDouble_exact small]
    omega
  · have wide : 53 ≤ Nat.log2 n := (Nat.le_log2 (by omega)).mpr (by omega)
    have share : 2 ^ (Nat.log2 n - 52) * 16 ≤ n := by
      have below : 2 ^ Nat.log2 n ≤ n := Nat.log2_self_le (by omega)
      have power : 2 ^ (Nat.log2 n - 52) * 16 = 2 ^ (Nat.log2 n - 48) := by
        rw [show Nat.log2 n - 48 = Nat.log2 n - 52 + 4 by omega, Nat.pow_add]
      rw [power]
      exact Nat.le_trans (Nat.pow_le_pow_right (by omega) (by omega)) below
    have positive : 0 < 2 ^ (Nat.log2 n - 52) := Nat.two_pow_pos _
    unfold roundDouble
    revert share positive
    generalize 2 ^ (Nat.log2 n - 52) = unit
    intro share positive
    have parts := Nat.div_add_mod' n unit
    have rest := Nat.mod_lt n positive
    have next : (n / unit + 1) * unit = n / unit * unit + unit := Nat.succ_mul _ _
    dsimp only
    split <;> omega

/-- From two blocks on, the product is larger than the number of blocks, and at most twice that. -/
theorem resized_bounds {count : Nat} (several : 2 ≤ count) : count < resized count ∧ resized count ≤ 2 * count := by
  unfold resized
  by_cases small : count < 2 ^ 51
  · rw [roundDouble_exact (by omega : count < 2 ^ 53), roundDouble_exact (by omega : 3 * count < 2 ^ 53)]
    omega
  · have first := roundDouble_near count
    have second := roundDouble_near (3 * roundDouble count)
    omega

theorem dequeGetNewBlockCount_spec (shape : DequeShape B me) :
    dequeGetNewBlockCount me = 0 ∧ (2 ^ 64 - 1) / B = me.blockCount ∨
      me.blockCount < dequeGetNewBlockCount me ∧ dequeGetNewBlockCount me * B < 2 ^ 64 ∧
        (2 ≤ me.blockCount → dequeGetNewBlockCount me ≤ 2 * me.blockCount) := by
  have count : me.blockCount ≤ (2 ^ 64 - 1) / B := by
    have within := shape.within
    exact (Nat.le_div_iff_mul_le shape.positive).mpr (by omega)
  have fits : ∀ n ≤ (2 ^ 64 - 1) / B, n * B < 2 ^ 64 := by
    intro n bound
    have product := (Nat.le_div_iff_mul_le shape.positive).mp bound
    omega
  unfold dequeGetNewBlockCount
  rw [shape.blockSize]
  dsimp only
  by_cases full : (2 ^ 64 - 1) / B = me.blockCount
  · rw [if_pos full]
    exact .inl ⟨rfl, full⟩
  · rw [if_neg full]
    right
    split
    · next limited =>
      refine ⟨by omega, fits _ (Nat.le_refl _), fun several => ?_⟩
      have bounds := resized_bounds several
      omega
    · next larger =>
      refine ⟨by omega, fits _ (by omega), fun several => (resized_bounds several).2⟩

end Resize

/-- What making room in the table does to a deque, with its result. -/
structure TableRoomed (realloc : Bool) (me : InternalDeque) (err : BkErr) (me' : InternalDeque) : Prop where
  allocated : me'.allocated = me.allocated
  grows : me.blockCount ≤ me'.blockCount
  entries : 2 ≤ me.blockCount → me'.blockCount ≤ max me.blockCount (2 * (me.allocated + dequeInitialBlockCount))
  refused : err ≠ .ok → me' = me
  memory : err = .enomem → realloc = false
  range : err = .erange → (2 ^ 64 - 1) / me.blockSize ≤ me.allocated + dequeInitialBlockCount
  einval : err ≠ .einval

/-- What taking a block for one more element does, with its result. -/
structure BlockTaken (malloc : Bool) (B count : Nat) (me : InternalDeque) (err : BkErr) (me' : InternalDeque) : Prop where
  blockCount : me'.blockCount = me.blockCount
  allocated : me'.allocated = me.allocated ∨ me'.allocated = me.allocated + 1 ∧ (me.allocated - 1) * B < count
  refused : err ≠ .ok → err = .enomem ∧ malloc = false

theorem TableRoomed.same (realloc : Bool) (me : InternalDeque) : TableRoomed realloc me .ok me where
  allocated := rfl
  grows := Nat.le_refl _
  entries := fun _ => Nat.le_max_left ..
  refused := fun _ => rfl
  memory := by simp
  range := by simp
  einval := by simp

section Back
variable (rep : DequeRep B base me heap items)
include rep

/-- Behind the last block there is an entry for the next one, or the call refuses. -/
theorem dequeMakeRoomBack_spec (realloc : Bool) :
    ∃ err me', dequeMakeRoomBack realloc me = .ok (err, me') ∧ DequeRep B base me' heap items ∧
      TableRoomed realloc me err me' ∧ (err = .ok → me'.endIndex < me'.blockCount * B) := by
  have shape := rep.shape
  unfold dequeMakeRoomBack
  rw [shape.blockSize]
  by_cases full : me.endIndex = me.blockCount * B
  swap
  · rw [if_neg full]
    have bound := shape.end_le
    exact ⟨.ok, me, rfl, rep, .same realloc me, fun _ => by omega⟩
  rw [if_pos full]
  have atEnd : me.allocBlockEnd + 1 = me.blockCount := by
    have upper := shape.upper
    have bounded := shape.bounded
    by_contra short
    have less : (me.allocBlockEnd + 1 + 1) * B ≤ me.blockCount * B := Nat.mul_le_mul_right B (by omega)
    rw [Nat.succ_mul] at less
    have positive := shape.positive
    omega
  dsimp only
  by_cases free : me.allocBlockStart > dequeInitialBlockCount
  · rw [if_pos free]
    have ordered := shape.ordered
    have bounded := shape.bounded
    have table := shape.table
    have lower := shape.lower
    have upper := shape.upper
    have span := rep.span
    have positive := shape.positive
    obtain ⟨d, shift⟩ : ∃ d, d = me.allocBlockStart - me.allocBlockStart / 2 := ⟨_, rfl⟩
    obtain ⟨data, moves, length, entries⟩ := InternalDeque.memmove_spec
      (show me.allocBlockStart + (me.allocBlockEnd - me.allocBlockStart + 1) ≤ me.data.length by omega)
      (show me.allocBlockStart / 2 + (me.allocBlockEnd - me.allocBlockStart + 1) ≤ me.data.length by omega)
    rw [moves, ok_bind, ← shift]
    have some_shift : 0 < d := by
      unfold dequeInitialBlockCount at free
      omega
    have first : d * B ≤ me.allocBlockStart * B := Nat.mul_le_mul_right B (by omega)
    have start : (me.allocBlockStart - d) * B = me.allocBlockStart * B - d * B := Nat.sub_mul ..
    have last : (me.allocBlockEnd - d + 1) * B = (me.allocBlockEnd + 1) * B - d * B := by
      rw [← Nat.sub_mul]
      congr 1
      omega
    have page : ∀ j, me.allocBlockStart - d ≤ j → j ≤ me.allocBlockEnd - d →
        (data[j]?).join = me.page (j + d) := by
      intro j above below
      have entry := entries (j - me.allocBlockStart / 2) (by omega)
      rw [show me.allocBlockStart / 2 + (j - me.allocBlockStart / 2) = j by omega,
        show me.allocBlockStart + (j - me.allocBlockStart / 2) = j + d by omega] at entry
      rw [entry, InternalDeque.page]
    refine ⟨.ok, _, rfl, rep.moved ?_ ?_ (· + d) ?_ ?_ ?_ ?_, ?_, ?_⟩
    · exact {
        blockSize := shape.blockSize
        positive
        small := shape.small
        within := shape.within
        table := length.trans table
        ordered := by dsimp only; omega
        bounded := by dsimp only; omega
        lower := by dsimp only; omega
        upper := by dsimp only; omega }
    · dsimp only
      omega
    · intro j above below
      dsimp only at above below ⊢
      exact ⟨by omega, by omega, page j above below⟩
    · intro j k _ _ _ _ same
      omega
    · intro i above below
      exact ⟨i - d, by dsimp only; omega, by dsimp only; omega, by omega⟩
    · intro k within
      dsimp only
      have index : me.startIndex + k = me.startIndex - d * B + k + d * B := by omega
      rw [index, cellAt_shift positive]
      have above : me.allocBlockStart - d ≤ (me.startIndex - d * B + k) / B :=
        (Nat.le_div_iff_mul_le positive).mpr (by omega)
      have below : (me.startIndex - d * B + k) / B < me.allocBlockEnd - d + 1 :=
        (Nat.div_lt_iff_lt_mul positive).mpr (by omega)
      exact (page _ above (by omega)).symm
    · exact {
        allocated := by simp only [InternalDeque.allocated]; omega
        grows := Nat.le_refl _
        entries := fun _ => Nat.le_max_left ..
        refused := by simp
        memory := by simp
        range := by simp
        einval := by simp }
    · intro _
      dsimp only
      have product : 0 < d * B := Nat.mul_pos some_shift positive
      omega
  · rw [if_neg free]
    have allocated : me.blockCount ≤ me.allocated + dequeInitialBlockCount := by
      simp only [InternalDeque.allocated]
      omega
    rcases dequeGetNewBlockCount_spec shape with ⟨none, limit⟩ | ⟨more, fits, twice⟩
    · rw [if_pos none]
      refine ⟨.erange, me, rfl, rep, { TableRoomed.same realloc me with
        refused := fun _ => rfl, memory := by simp, range := fun _ => ?_, einval := by simp }, by simp⟩
      rw [shape.blockSize, limit]
      exact allocated
    · rw [if_neg (by omega)]
      cases realloc with
      | false =>
        exact ⟨.enomem, me, rfl, rep, { TableRoomed.same false me with
          refused := fun _ => rfl, memory := fun _ => rfl, range := by simp, einval := by simp }, by simp⟩
      | true =>
        have table := shape.table
        have bounded := shape.bounded
        have page : ∀ j ≤ me.allocBlockEnd,
            { me.realloc (dequeGetNewBlockCount me) with blockCount := dequeGetNewBlockCount me }.page j =
              me.page j := by
          intro j below
          exact congrArg Option.join (InternalDeque.realloc_entry (by omega))
        refine ⟨.ok, _, rfl, rep.moved ?_ rep.span id ?_ ?_ ?_ ?_, ?_, ?_⟩
        · exact {
            blockSize := shape.blockSize
            positive := shape.positive
            small := shape.small
            within := fits
            table := InternalDeque.realloc_length (by omega)
            ordered := shape.ordered
            bounded := Nat.lt_trans bounded more
            lower := shape.lower
            upper := shape.upper }
        · exact fun j above below => ⟨above, below, page j below⟩
        · exact fun j k _ _ _ _ same => same
        · exact fun i above below => ⟨i, above, below, rfl⟩
        · intro k within
          refine cellAt_congr (page _ ?_)
          have upper := shape.upper
          have span := rep.span
          have below : (me.startIndex + k) / B < me.allocBlockEnd + 1 :=
            (Nat.div_lt_iff_lt_mul shape.positive).mpr (by omega)
          exact Nat.lt_succ_iff.mp below
        · exact {
            allocated := rfl
            grows := Nat.le_of_lt more
            entries := fun several => by
              have bound := twice several
              change dequeGetNewBlockCount me ≤ _
              omega
            refused := by simp
            memory := by simp
            range := by simp
            einval := by simp }
        · intro _
          change me.endIndex < dequeGetNewBlockCount me * B
          rw [full]
          exact Nat.mul_lt_mul_of_pos_right more shape.positive

/-- The block for the next element is there, or the call refuses. -/
theorem dequeTakeBlockBack_spec (room : me.endIndex < me.blockCount * B) (malloc : Bool) :
    ∃ r, dequeTakeBlockBack malloc me heap = .ok r ∧ DequeRep B base r.me r.heap items ∧
      BlockTaken malloc B items.length me r.err r.me ∧ (r.err = .ok → r.me.endIndex / B ≤ r.me.allocBlockEnd) := by
  have shape := rep.shape
  have positive := shape.positive
  have lower := shape.lower
  have upper := shape.upper
  have span := rep.span
  have table := shape.table
  have ordered := shape.ordered
  have bounded := shape.bounded
  unfold dequeTakeBlockBack
  rw [shape.blockSize]
  dsimp only
  by_cases needed : me.endIndex % B = 0 ∧ me.endIndex / B > me.allocBlockEnd
  swap
  · rw [if_neg needed]
    refine ⟨⟨.ok, me, heap⟩, rfl, rep, ⟨rfl, .inl rfl, by simp⟩, fun _ => ?_⟩
    dsimp only
    by_contra beyond
    have same : me.endIndex = (me.allocBlockEnd + 1) * B := by
      have above := (Nat.le_div_iff_mul_le positive).mp (show me.allocBlockEnd + 1 ≤ me.endIndex / B by omega)
      omega
    exact needed ⟨by rw [same, Nat.mul_mod_left], by omega⟩
  rw [if_pos needed]
  obtain ⟨boundary, beyond⟩ := needed
  have atEnd : me.endIndex = (me.allocBlockEnd + 1) * B := by
    have above := (Nat.le_div_iff_mul_le positive).mp (show me.allocBlockEnd + 1 ≤ me.endIndex / B by omega)
    omega
  have index : me.endIndex / B = me.allocBlockEnd + 1 := by rw [atEnd, Nat.mul_div_cancel _ positive]
  have entry : me.allocBlockEnd + 1 < me.blockCount := by
    rw [atEnd] at room
    exact Nat.lt_of_mul_lt_mul_right room
  have wider : (me.allocBlockEnd + 1 + 1) * B = (me.allocBlockEnd + 1) * B + B := Nat.succ_mul ..
  rw [index]
  have used : ∀ k < items.length, (me.startIndex + k) / B ≠ me.allocBlockEnd + 1 := by
    intro k within same
    have below := (Nat.le_div_iff_mul_le positive).mp (Nat.le_of_eq same.symm)
    omega
  by_cases spare : me.startIndex / B > me.allocBlockStart
  · rw [if_pos spare]
    have above := (Nat.le_div_iff_mul_le positive).mp (show me.allocBlockStart + 1 ≤ me.startIndex / B by omega)
    obtain ⟨block, _, held, -, -⟩ := rep.owned.live me.allocBlockStart (Nat.le_refl _) ordered
    rw [InternalDeque.load_of_page held, ok_bind, InternalDeque.store_eq (by omega), ok_bind]
    refine ⟨_, rfl, rep.moved ?_ span (fun j => if j = me.allocBlockEnd + 1 then me.allocBlockStart else j) ?_ ?_ ?_ ?_,
      ?_, fun _ => ?_⟩
    · exact {
        blockSize := shape.blockSize
        positive
        small := shape.small
        within := shape.within
        table := by simpa using table
        ordered := by dsimp only; omega
        bounded := entry
        lower := above
        upper := by dsimp only; omega }
    · intro j first last
      dsimp only at first last ⊢
      by_cases here : j = me.allocBlockEnd + 1
      · subst here
        rw [if_pos rfl, held]
        exact ⟨Nat.le_refl _, ordered, InternalDeque.page_set (by omega) rfl⟩
      · rw [if_neg here]
        exact ⟨by omega, by omega, InternalDeque.page_set_ne rfl here⟩
    · intro j k first last first' last' same
      dsimp only at first last first' last' same
      split_ifs at same <;> omega
    · intro i first last
      by_cases here : i = me.allocBlockStart
      · exact ⟨me.allocBlockEnd + 1, by dsimp only; omega, Nat.le_refl _, by rw [if_pos rfl, here]⟩
      · exact ⟨i, by dsimp only; omega, by dsimp only; omega, if_neg (by omega)⟩
    · intro k within
      exact cellAt_congr (InternalDeque.page_set_ne rfl (used k within))
    · exact ⟨rfl, .inl (by simp only [InternalDeque.allocated]; omega), by simp⟩
    · exact Nat.le_of_eq index
  · rw [if_neg spare]
    have used_up : me.startIndex < (me.allocBlockStart + 1) * B :=
      (Nat.div_lt_iff_lt_mul positive).mp (by omega)
    cases malloc with
    | true =>
      rw [if_pos rfl, InternalDeque.store_eq (by omega), ok_bind]
      refine ⟨_, rfl, rep.grown ?_ rfl rfl (InternalDeque.page_set (by omega) rfl)
        (fun j other => InternalDeque.page_set_ne rfl other) ?_ (by omega), ⟨rfl, .inr ⟨?_, ?_⟩, by simp⟩, fun _ => ?_⟩
      · exact {
          blockSize := shape.blockSize
          positive
          small := shape.small
          within := shape.within
          table := by simpa using table
          ordered := by dsimp only; omega
          bounded := entry
          lower
          upper := by dsimp only; omega }
      · intro j
        dsimp only
        omega
      · simp only [InternalDeque.allocated]
        omega
      · have blocks : (me.allocated - 1) * B + (me.allocBlockStart + 1) * B = (me.allocBlockEnd + 1) * B := by
          rw [← Nat.add_mul]
          congr 1
          simp only [InternalDeque.allocated]
          omega
        omega
      · exact Nat.le_of_eq index
    | false =>
      rw [if_neg Bool.false_ne_true, InternalDeque.store_eq (by omega), ok_bind]
      refine ⟨_, rfl, rep.moved ?_ span id ?_ (fun j k _ _ _ _ same => same) (fun i first last => ⟨i, first, last, rfl⟩) ?_,
        ⟨rfl, .inl rfl, fun _ => ⟨rfl, rfl⟩⟩, by simp⟩
      · exact { shape with table := by simpa using table }
      · exact fun j first last => ⟨first, last, InternalDeque.page_set_ne rfl (by dsimp only at last; omega)⟩
      · exact fun k within => cellAt_congr (InternalDeque.page_set_ne rfl (used k within))

end Back

theorem sizeSub_of_le {a b : Nat} (bound : a < 2 ^ 64) (le : b ≤ a) : sizeSub a b = a - b := by
  unfold sizeSub
  omega

section Front
variable (rep : DequeRep B base me heap items)
include rep

/-- The blocks, moved `d` entries towards the end of a table of `count` entries. -/
theorem DequeRep.shifted {d count : Nat} {data : List (Option Nat)} (length : data.length = count)
    (within : count * B < 2 ^ 64) (bound : me.allocBlockEnd + d < count)
    (entries : ∀ i, me.allocBlockStart ≤ i → i ≤ me.allocBlockEnd → data[i + d]? = me.data[i]?) :
    DequeRep B base { me with
      startIndex := me.startIndex + d * B
      endIndex := me.endIndex + d * B
      blockCount := count
      allocBlockStart := me.allocBlockStart + d
      allocBlockEnd := me.allocBlockEnd + d
      data := data } heap items := by
  have shape := rep.shape
  have positive := shape.positive
  have lower := shape.lower
  have upper := shape.upper
  have span := rep.span
  have ordered := shape.ordered
  have first : (me.allocBlockStart + d) * B = me.allocBlockStart * B + d * B := Nat.add_mul ..
  have last : (me.allocBlockEnd + d + 1) * B = (me.allocBlockEnd + 1) * B + d * B := by
    rw [← Nat.add_mul]
    congr 1
    omega
  refine rep.moved ?_ ?_ (· - d) ?_ ?_ ?_ ?_
  · exact {
      blockSize := shape.blockSize
      positive
      small := shape.small
      within
      table := length
      ordered := by dsimp only; omega
      bounded := bound
      lower := by dsimp only; omega
      upper := by dsimp only; omega }
  · dsimp only
    omega
  · intro j above below
    dsimp only at above below ⊢
    have entry := entries (j - d) (by omega) (by omega)
    rw [show j - d + d = j by omega] at entry
    exact ⟨by omega, by omega, congrArg Option.join entry⟩
  · intro j k above below above' below' same
    dsimp only at above below above' below' same
    omega
  · intro i above below
    exact ⟨i + d, by dsimp only; omega, by dsimp only; omega, Nat.add_sub_cancel ..⟩
  · intro k inside
    dsimp only
    have index : me.startIndex + d * B + k = me.startIndex + k + d * B := by omega
    rw [index]
    apply cellAt_shift positive
    have above : me.allocBlockStart ≤ (me.startIndex + k) / B := (Nat.le_div_iff_mul_le positive).mpr (by omega)
    have below : (me.startIndex + k) / B < me.allocBlockEnd + 1 := (Nat.div_lt_iff_lt_mul positive).mpr (by omega)
    exact congrArg Option.join (entries _ above (by omega))

/-- Before the first block there is an entry for the next one, or the call refuses. -/
theorem dequeMakeRoomFront_spec (realloc : Bool) :
    ∃ err me', dequeMakeRoomFront realloc me = .ok (err, me') ∧ DequeRep B base me' heap items ∧
      TableRoomed realloc me err me' ∧ (err = .ok → 0 < me'.startIndex) := by
  have shape := rep.shape
  have positive := shape.positive
  have table := shape.table
  have ordered := shape.ordered
  have bounded := shape.bounded
  unfold dequeMakeRoomFront
  rw [shape.blockSize]
  by_cases full : me.startIndex = 0
  swap
  · rw [if_neg full]
    exact ⟨.ok, me, rfl, rep, .same realloc me, fun _ => by omega⟩
  rw [if_pos full]
  have atStart : me.allocBlockStart = 0 := by
    have lower := shape.lower
    rw [full] at lower
    have product := Nat.le_zero.mp lower
    rcases Nat.mul_eq_zero.mp product with zero | zero <;> omega
  dsimp only
  by_cases free : me.blockCount - me.allocBlockEnd - 1 > dequeInitialBlockCount
  · rw [if_pos free]
    obtain ⟨d, shift⟩ : ∃ d, d = (me.blockCount - me.allocBlockEnd - 1) / 2 := ⟨_, rfl⟩
    rw [← shift]
    have some_shift : 0 < d := by
      unfold dequeInitialBlockCount at free
      omega
    obtain ⟨data, moves, length, entries⟩ := InternalDeque.memmove_spec
      (show me.allocBlockStart + (me.allocBlockEnd - me.allocBlockStart + 1) ≤ me.data.length by omega)
      (show me.allocBlockStart + d + (me.allocBlockEnd - me.allocBlockStart + 1) ≤ me.data.length by omega)
    rw [moves, ok_bind]
    refine ⟨.ok, _, rfl, rep.shifted (length.trans table) shape.within
      (show me.allocBlockEnd + d < me.blockCount by omega) ?_, ?_, ?_⟩
    · intro i above below
      have entry := entries (i - me.allocBlockStart) (by omega)
      rwa [show me.allocBlockStart + d + (i - me.allocBlockStart) = i + d by omega,
        show me.allocBlockStart + (i - me.allocBlockStart) = i by omega] at entry
    · exact { TableRoomed.same realloc me with
        allocated := by simp only [InternalDeque.allocated]; omega
        refused := by simp }
    · intro _
      have product : 0 < d * B := Nat.mul_pos some_shift positive
      dsimp only
      omega
  · rw [if_neg free]
    have allocated : me.blockCount ≤ me.allocated + dequeInitialBlockCount := by
      simp only [InternalDeque.allocated]
      omega
    rcases dequeGetNewBlockCount_spec shape with ⟨none, limit⟩ | ⟨more, fits, twice⟩
    · rw [if_pos none]
      refine ⟨.erange, me, rfl, rep, { TableRoomed.same realloc me with
        refused := fun _ => rfl, memory := by simp, range := fun _ => ?_, einval := by simp }, by simp⟩
      rw [shape.blockSize, limit]
      exact allocated
    · rw [if_neg (by omega)]
      cases realloc with
      | false =>
        exact ⟨.enomem, me, rfl, rep, { TableRoomed.same false me with
          refused := fun _ => rfl, memory := fun _ => rfl, range := by simp, einval := by simp }, by simp⟩
      | true =>
        rw [if_pos rfl]
        have grown : (me.realloc (dequeGetNewBlockCount me)).data.length = dequeGetNewBlockCount me :=
          InternalDeque.realloc_length (by omega)
        obtain ⟨data, moves, length, entries⟩ := InternalDeque.memmove_spec
          (show 0 + me.blockCount ≤ (me.realloc (dequeGetNewBlockCount me)).data.length by omega)
          (show dequeGetNewBlockCount me - me.blockCount + me.blockCount ≤
            (me.realloc (dequeGetNewBlockCount me)).data.length by omega)
        rw [moves, ok_bind]
        refine ⟨.ok, _, rfl, rep.shifted (length.trans grown) fits (by omega) ?_, ?_, ?_⟩
        · intro i above below
          have entry := entries i (by omega)
          rw [Nat.zero_add, InternalDeque.realloc_entry (by omega)] at entry
          rw [Nat.add_comm, entry]
        · exact {
            allocated := by simp only [InternalDeque.allocated]; omega
            grows := Nat.le_of_lt more
            entries := fun several => by
              have bound := twice several
              change dequeGetNewBlockCount me ≤ _
              omega
            refused := by simp
            memory := by simp
            range := by simp
            einval := by simp }
        · intro _
          have product : 0 < (dequeGetNewBlockCount me - me.blockCount) * B := Nat.mul_pos (by omega) positive
          dsimp only
          omega

/-- The block for the element before the first is there, or the call refuses. -/
theorem dequeTakeBlockFront_spec (room : 0 < me.startIndex) (malloc : Bool) :
    ∃ r, dequeTakeBlockFront malloc me heap = .ok r ∧ DequeRep B base r.me r.heap items ∧
      r.me.startIndex = me.startIndex ∧ BlockTaken malloc B items.length me r.err r.me ∧
      (r.err = .ok → r.me.allocBlockStart * B < r.me.startIndex) := by
  have shape := rep.shape
  have positive := shape.positive
  have lower := shape.lower
  have upper := shape.upper
  have span := rep.span
  have table := shape.table
  have ordered := shape.ordered
  have bounded := shape.bounded
  have finite := shape.end_le
  have within := shape.within
  unfold dequeTakeBlockFront
  rw [shape.blockSize]
  dsimp only
  by_cases needed : me.startIndex % B = 0 ∧ sizeSub (me.startIndex / B) 1 < me.allocBlockStart
  swap
  · rw [if_neg needed]
    refine ⟨⟨.ok, me, heap⟩, rfl, rep, rfl, ⟨rfl, .inl rfl, by simp⟩, fun _ => ?_⟩
    dsimp only
    by_contra short
    have same : me.startIndex = me.allocBlockStart * B := by omega
    have some_block : 0 < me.allocBlockStart := by
      by_contra zero
      rw [show me.allocBlockStart = 0 by omega, Nat.zero_mul] at same
      omega
    have quotient : me.startIndex / B = me.allocBlockStart := by rw [same, Nat.mul_div_cancel _ positive]
    have small : me.allocBlockStart ≤ me.allocBlockStart * B := Nat.le_mul_of_pos_right _ positive
    refine needed ⟨by rw [same, Nat.mul_mod_left], ?_⟩
    rw [quotient, sizeSub_of_le (by omega) (by omega)]
    omega
  rw [if_pos needed]
  obtain ⟨boundary, before⟩ := needed
  have whole : me.startIndex / B * B = me.startIndex := Nat.div_mul_cancel (Nat.dvd_of_mod_eq_zero boundary)
  have quotient : 0 < me.startIndex / B := by
    rcases Nat.eq_zero_or_pos (me.startIndex / B) with zero | some_block
    · rw [zero, Nat.zero_mul] at whole
      omega
    · exact some_block
  have small : me.startIndex / B ≤ me.startIndex := Nat.div_le_self ..
  rw [sizeSub_of_le (by omega) (by omega)] at before
  have above := (Nat.le_div_iff_mul_le positive).mpr lower
  have first : me.startIndex / B = me.allocBlockStart := by omega
  rw [first] at whole
  rw [sizeSub_of_le (show me.startIndex / B < 2 ^ 64 by omega) (by omega), sizeSub_of_le (by omega) (by omega), first]
  obtain ⟨a, atStart⟩ : ∃ a, me.allocBlockStart = a + 1 := ⟨me.allocBlockStart - 1, by omega⟩
  rw [atStart, Nat.add_sub_cancel]
  rw [atStart, Nat.succ_mul] at whole
  have used : ∀ k < items.length, (me.startIndex + k) / B ≠ a := by
    intro k inside same
    have below := (Nat.div_lt_iff_lt_mul positive).mp (show (me.startIndex + k) / B < a + 1 by omega)
    rw [Nat.succ_mul] at below
    omega
  by_cases spare : (me.endIndex - 1) / B < me.allocBlockEnd
  · rw [if_pos spare]
    have below := (Nat.div_lt_iff_lt_mul positive).mp spare
    obtain ⟨block, _, held, -, -⟩ := rep.owned.live me.allocBlockEnd ordered (Nat.le_refl _)
    rw [InternalDeque.load_of_page held, ok_bind, InternalDeque.store_eq (by omega), ok_bind]
    refine ⟨_, rfl, rep.moved ?_ span (fun j => if j = a then me.allocBlockEnd else j) ?_ ?_ ?_ ?_, rfl, ?_, fun _ => ?_⟩
    · exact {
        blockSize := shape.blockSize
        positive
        small := shape.small
        within
        table := by simpa using table
        ordered := by dsimp only; omega
        bounded := by dsimp only; omega
        lower := by dsimp only; rw [atStart, Nat.add_sub_cancel]; omega
        upper := by dsimp only; rw [show me.allocBlockEnd - 1 + 1 = me.allocBlockEnd by omega]; omega }
    · intro j low high
      dsimp only at low high ⊢
      by_cases here : j = a
      · subst here
        rw [if_pos rfl, held]
        exact ⟨ordered, Nat.le_refl _, InternalDeque.page_set (by omega) rfl⟩
      · rw [if_neg here]
        exact ⟨by omega, by omega, InternalDeque.page_set_ne rfl here⟩
    · intro j k low high low' high' same
      dsimp only at low high low' high' same
      split_ifs at same <;> omega
    · intro i low high
      by_cases here : i = me.allocBlockEnd
      · exact ⟨a, by dsimp only; omega, by dsimp only; omega, by rw [if_pos rfl, here]⟩
      · exact ⟨i, by dsimp only; omega, by dsimp only; omega, if_neg (by omega)⟩
    · intro k inside
      exact cellAt_congr (InternalDeque.page_set_ne rfl (used k inside))
    · exact ⟨rfl, .inl (by simp only [InternalDeque.allocated]; omega), by simp⟩
    · dsimp only
      rw [atStart, Nat.add_sub_cancel]
      omega
  · rw [if_neg spare]
    have used_up := (Nat.le_div_iff_mul_le positive).mp (show me.allocBlockEnd ≤ (me.endIndex - 1) / B by omega)
    cases malloc with
    | true =>
      rw [if_pos rfl, InternalDeque.store_eq (by omega), ok_bind]
      refine ⟨_, rfl, rep.grown ?_ rfl rfl (InternalDeque.page_set (by omega) rfl)
        (fun j other => InternalDeque.page_set_ne rfl other) ?_ (by omega), rfl, ⟨rfl, .inr ⟨?_, ?_⟩, by simp⟩,
        fun _ => ?_⟩
      · exact {
          blockSize := shape.blockSize
          positive
          small := shape.small
          within
          table := by simpa using table
          ordered := by dsimp only; omega
          bounded
          lower := by dsimp only; rw [atStart, Nat.add_sub_cancel]; omega
          upper }
      · intro j
        dsimp only
        omega
      · simp only [InternalDeque.allocated]
        omega
      · have blocks : (me.allocated - 1) * B + (a + 1) * B = me.allocBlockEnd * B := by
          rw [← Nat.add_mul]
          congr 1
          simp only [InternalDeque.allocated]
          omega
        rw [Nat.succ_mul] at blocks
        omega
      · dsimp only
        rw [atStart, Nat.add_sub_cancel]
        omega
    | false =>
      rw [if_neg Bool.false_ne_true, InternalDeque.store_eq (by omega), ok_bind]
      refine ⟨_, rfl, rep.moved ?_ span id ?_ (fun j k _ _ _ _ same => same) (fun i low high => ⟨i, low, high, rfl⟩) ?_,
        rfl, ⟨rfl, .inl rfl, fun _ => ⟨rfl, rfl⟩⟩, by simp⟩
      · exact { shape with table := by simpa using table }
      · exact fun j low high => ⟨low, high, InternalDeque.page_set_ne rfl (by dsimp only at low; omega)⟩
      · exact fun k inside => cellAt_congr (InternalDeque.page_set_ne rfl (used k inside))

end Front

end DynamicRPC
