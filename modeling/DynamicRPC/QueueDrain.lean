import DynamicRPC.Copy

namespace DynamicRPC
open Outcome

/-- The value of a `char` where it is compared with an enumeration. -/
def promoteChar (c : UInt8) : UInt32 := if c < 128 then c.toUInt32 else c.toUInt32 + 0xFFFFFF00

/-- The width of the variable that the caller of `d_queue_pop` gives for a scalar type. -/
def popWidth (type : UInt32) : Option Nat :=
  (DrpcTypes.scalars.find? fun scalar => promoteChar scalar.toChar = type).bind DrpcTypes.scalarWidth

/-- What `d_queue_pop` stores for its caller: the bytes of a scalar, or the
pointer to what the element holds, with the length of a buffer. -/
inductive Popped
  | scalar (bytes : List UInt8)
  | pointer (e : Element)
  deriving Inhabited

/-- The switch of `d_queue_pop`. -/
def Element.popValue (type : UInt32) (e : Element) : Outcome Popped :=
  match popWidth type with
  | none => pure (.pointer e)
  | some width =>
    match e with
    | .packed _ data => do
      let bytes ← drpcDeconvert data width
      pure (.scalar bytes)
    | _ => .error .outside

/-- `d_queue_pop`: `none` is the return value 1. -/
def dQueuePop (q : DQueue) (type : UInt32) : Outcome (DQueue × Option Popped) :=
  match queuePop q with
  | (none, que) => pure (que, none)
  | (some element, que) =>
    if promoteChar element.type ≠ type then pure (queuePush que (some element), none)
    else do
      let value ← element.popValue type
      pure (que, some value)

/-- A call on a queue while it is drained. -/
inductive DrainCall
  | pop
  | buf
  | copy
  deriving DecidableEq

/-- A call, with what the pops so far have returned. -/
def DrainCall.run (type : UInt32) (s : DQueue × List (Option Popped)) : DrainCall → Outcome (DQueue × List (Option Popped))
  | .pop => do
    let (q, result) ← dQueuePop s.1 type
    pure (q, s.2 ++ [result])
  | .buf => do
    let (_, q) ← dQueueBuf s.1
    pure (q, s.2)
  | .copy => do
    let (_, q) ← dQueueCopy s.1
    pure (q, s.2)

def drainQueue (type : UInt32) (q : DQueue) (calls : List DrainCall) : Outcome (DQueue × List (Option Popped)) :=
  calls.foldlM (DrainCall.run type) (q, [])

/-- An element that can be read as its type says: a well-formed one, or a packed
one that has at least the bytes of its type, whatever type byte came off the wire. -/
def Element.Readable (e : Element) : Prop :=
  e.Wf ∨ ∃ type data, e = .packed type data ∧
    ∀ width, popWidth (promoteChar type) = some width → width ≤ data.packedData.length

/-- The value of an element. -/
def Element.popped (e : Element) : Popped :=
  match popWidth (promoteChar e.type), e with
  | some width, .packed _ data => .scalar (data.packedData.take width)
  | _, e => .pointer e

theorem popWidth_toChar (t : DrpcTypes) : popWidth (promoteChar t.toChar) = t.scalarWidth := by
  cases t <;> decide

theorem Element.popValue_eq {e : Element} (readable : e.Readable) :
    e.popValue (promoteChar e.type) = .ok e.popped := by
  have packed : ∀ (type : UInt8) (data : DrpcType),
      (∀ width, popWidth (promoteChar type) = some width → width ≤ data.packedData.length) →
      (Element.packed type data).popValue (promoteChar type) = .ok (Element.packed type data).popped := by
    intro type data enough
    unfold popValue popped
    rw [Element.type]
    cases known : popWidth (promoteChar type) with
    | none => rfl
    | some width =>
      have read : drpcDeconvert data width = .ok (data.packedData.take width) :=
        drpcDeconvert_eq_ok.mpr ⟨enough width known, rfl⟩
      dsimp only
      rw [read]
      rfl
  obtain wf | ⟨type, data, rfl, enough⟩ := readable
  · cases wf with
    | @packed t bytes sized =>
      refine packed t.toChar ⟨t.toChar, bytes⟩ fun width known => ?_
      rw [popWidth_toChar, sized] at known
      exact (Option.some.inj known).ge
    | str | sizedbuf | dstruct | queue | array => rfl
  · exact packed type data enough

theorem Element.Readable.pack {e : Element} (readable : e.Readable) : e.pack = .ok e.packedUp := by
  obtain wf | ⟨type, data, rfl, -⟩ := readable
  · exact wf.pack
  · rfl

theorem Element.Readable.copies {e : Element} (readable : e.Readable) : ∃ e', e.copy = .ok ⟨e, e'⟩ := by
  obtain wf | ⟨type, data, rfl, -⟩ := readable
  · obtain ⟨e', copied⟩ := wf.copies
    exact ⟨e', copied.run⟩
  · exact ⟨_, rfl⟩

section Drain
variable {type : UInt32} {es : List Element}

theorem dQueueBuf_keeps (readable : ∀ e ∈ es, e.Readable) :
    dQueueBuf (es.map some) = .ok (queueBuf (es.map some), es.map some) := by
  refine dQueueBuf_eq fun e member => ?_
  have inside : e ∈ es := by simpa using member
  exact (readable e inside).pack

theorem dQueueCopy_keeps (readable : ∀ e ∈ es, e.Readable) : ∃ new, dQueueCopy (es.map some) = .ok (new, es.map some) := by
  have each : ∀ e, some e ∈ es.map some → ∃ e', e.copy = .ok ⟨e, e'⟩ := by
    intro e member
    have inside : e ∈ es := by simpa using member
    exact (readable e inside).copies
  choose! twin copies using each
  have full : none ∉ es.map some := by simp
  exact ⟨_, dQueueCopy_run full copies⟩

/-- One pop takes the first element out of the queue or to its end. -/
theorem dQueuePop_cons {e : Element} (readable : e.Readable) (q : DQueue) : dQueuePop (some e :: q) type =
    if promoteChar e.type = type then .ok (q, some e.popped) else .ok (q ++ [some e], none) := by
  rw [dQueuePop, queuePop]
  dsimp only
  by_cases same : promoteChar e.type = type
  · have value := e.popValue_eq readable
    rw [same] at value
    rw [if_neg (not_not.mpr same), if_pos same, value]
    rfl
  · rw [if_pos same, if_neg same]
    rfl

/-- What the pop that reaches an element returns. -/
def drained (type : UInt32) (e : Element) : Option Popped :=
  if promoteChar e.type = type then some e.popped else none

def ofOtherType (type : UInt32) (e : Element) : Bool := promoteChar e.type ≠ type

/-- The calls from a point on, where `front` is what no pop has reached and `kept`
what the pops so far moved to the end. -/
theorem drainQueue_run {front kept : List Element} {calls : List DrainCall} {results : List (Option Popped)}
    (readable : ∀ e ∈ front ++ kept, e.Readable) (enough : calls.count .pop = front.length) :
    calls.foldlM (DrainCall.run type) ((front ++ kept).map some, results) =
      .ok ((kept ++ front.filter (ofOtherType type)).map some, results ++ front.map (drained type)) := by
  induction calls generalizing front kept results with
  | nil =>
    have reached : front = [] := List.eq_nil_of_length_eq_zero enough.symm
    subst reached
    simp
  | cons call calls ih =>
    rw [List.foldlM_cons]
    cases call with
    | buf =>
      have rest : calls.count .pop = front.length := by simpa using enough
      rw [DrainCall.run, dQueueBuf_keeps readable, ok_bind]
      exact ih readable rest
    | copy =>
      have rest : calls.count .pop = front.length := by simpa using enough
      obtain ⟨new, copied⟩ := dQueueCopy_keeps readable
      rw [DrainCall.run, copied, ok_bind]
      exact ih readable rest
    | pop =>
      cases front with
      | nil => simp at enough
      | cons e front =>
        have rest : calls.count .pop = front.length := by simpa using enough
        have first := readable e List.mem_cons_self
        have others : ∀ other ∈ front ++ kept, other.Readable :=
          fun other member => readable other (List.mem_cons_of_mem e member)
        rw [DrainCall.run, List.cons_append, List.map_cons, dQueuePop_cons first]
        by_cases same : promoteChar e.type = type
        · have after := @ih front kept (results ++ [some e.popped]) others rest
          rw [if_pos same, ok_bind]
          simpa [drained, ofOtherType, same] using after
        · have moved : ∀ other ∈ front ++ (kept ++ [e]), other.Readable := by
            intro other member
            rw [← List.append_assoc, List.mem_append, List.mem_singleton] at member
            obtain there | rfl := member
            · exact others other there
            · exact first
          have after := @ih front (kept ++ [e]) (results ++ [none]) moved rest
          rw [if_neg same, ok_bind]
          simpa [drained, ofOtherType, same] using after

end Drain

/-- As many pops of one type as a queue has elements: each returns the value of the element
that it reaches, in the order of the pushes, or fails where the type is another one, and the
elements of the other types stay, in their order. Serialisations and copies of the queue
before, between and after the pops change nothing. -/
theorem typedDraining_partitions (type : UInt32) (es : List Element) (readable : ∀ e ∈ es, e.Readable)
    (calls : List DrainCall) (enough : calls.count .pop = es.length) :
    drainQueue type (es.map some) calls = .ok ((es.filter fun e => promoteChar e.type ≠ type).map some,
      es.map fun e => if promoteChar e.type = type then some e.popped else none) := by
  have all : ∀ e ∈ es ++ [], e.Readable := by rwa [List.append_nil]
  have run := @drainQueue_run type es [] calls [] all enough
  rw [List.append_nil, List.nil_append, List.nil_append] at run
  exact run

/-- Two numbers with a string between them. -/
def mixedElements : List Element := [.packed 1 ⟨1, [7]⟩, .str [104, 105, 0], .packed 1 ⟨1, [9]⟩]

theorem mixedElements_readable : ∀ e ∈ mixedElements, e.Readable := by
  have number (byte : UInt8) : (Element.packed 1 ⟨1, [byte]⟩).Wf := @Element.Wf.packed .dInt8 [byte] rfl
  have string : (Element.str [104, 105, 0]).Wf := .str (by decide)
  simp only [mixedElements, List.forall_mem_cons]
  exact ⟨.inl (number 7), .inl string, .inl (number 9), by simp⟩

/-- Three pops for numbers, with a serialisation and a copy in between: the string stays. -/
theorem typedDraining_partitions_mixed : drainQueue 1 (mixedElements.map some) [.buf, .pop, .copy, .pop, .pop] =
    .ok ([some (.str [104, 105, 0])], [some (.scalar [7]), none, some (.scalar [9])]) :=
  typedDraining_partitions 1 mixedElements mixedElements_readable [.buf, .pop, .copy, .pop, .pop] rfl

end DynamicRPC
