import DynamicRPC.Library.Outcome
import Mathlib.Tactic

/-! Blocks of memory that are filled from their start on: a write outside the
block faults, and so does a read of what nothing has written. -/

namespace WriteBuffer
open Outcome
variable {α : Type}

/-- A block as `malloc` returns it. -/
def malloc (size : Nat) : List (Option α) := List.replicate size none

/-- `memcpy` to an offset of a block. -/
def write (block : List (Option α)) (offset : Nat) (data : List α) : Outcome (List (Option α)) :=
  if block.length < offset + data.length then .error .outside
  else pure (block.take offset ++ data.map some ++ block.drop (offset + data.length))

/-- A read of the whole block. -/
def read : List (Option α) → Outcome (List α)
  | [] => pure []
  | none :: _ => .error .uninitialised
  | some a :: block => do
    let data ← read block
    pure (a :: data)

/-- Pieces that are written one behind the other. -/
def writeAll (block : List (Option α)) (offset : Nat) : List (List α) → Outcome (List (Option α))
  | [] => pure block
  | data :: pieces => do
    let block ← write block offset data
    writeAll block (offset + data.length) pieces

/-- A block with its first part written and `room` cells behind it. -/
def upTo (written : List α) (room : Nat) : List (Option α) := written.map some ++ List.replicate room none

theorem malloc_eq (size : Nat) : (malloc size : List (Option α)) = upTo [] size := rfl

theorem write_upTo (written data : List α) (room : Nat) : write (upTo written room) written.length data =
    if data.length ≤ room then .ok (upTo (written ++ data) (room - data.length)) else .error .outside := by
  have size : (upTo written room).length = written.length + room := by simp [upTo]
  rw [write, size]
  split
  · rw [if_neg (by omega)]
  · rw [if_pos (by omega)]
    have front : (upTo written room).take written.length = written.map some := List.take_left' (by simp)
    have back : (upTo written room).drop (written.length + data.length) = List.replicate (room - data.length) none := by
      rw [← List.drop_drop, upTo, List.drop_left' (by simp), List.drop_replicate]
    rw [front, back, upTo, List.map_append]
    rfl

theorem writeAll_upTo (written : List α) (room : Nat) (pieces : List (List α)) :
    writeAll (upTo written room) written.length pieces =
      if pieces.flatten.length ≤ room then .ok (upTo (written ++ pieces.flatten) (room - pieces.flatten.length))
      else .error .outside := by
  induction pieces generalizing written room with
  | nil => simp [writeAll]
  | cons data pieces ih =>
    have total : (data :: pieces).flatten.length = data.length + pieces.flatten.length := by simp
    rw [writeAll, write_upTo]
    by_cases fits : data.length ≤ room
    · have next := ih (written ++ data) (room - data.length)
      rw [List.length_append] at next
      rw [if_pos fits, ok_bind, next, total, List.flatten_cons, List.append_assoc, Nat.sub_sub]
      by_cases rest : pieces.flatten.length ≤ room - data.length
      · rw [if_pos rest, if_pos (by omega)]
      · rw [if_neg rest, if_neg (by omega)]
    · rw [if_neg fits, error_bind, if_neg (by omega)]

theorem writeAll_append (block : List (Option α)) (offset : Nat) (before after : List (List α)) :
    writeAll block offset (before ++ after) =
      writeAll block offset before >>= fun block => writeAll block (offset + before.flatten.length) after := by
  induction before generalizing block offset with
  | nil => rfl
  | cons data before ih =>
    rw [List.cons_append, writeAll, writeAll, bind_assoc]
    simp only [ih, List.flatten_cons, List.length_append, Nat.add_assoc]

theorem read_upTo (written : List α) (room : Nat) :
    read (upTo written room) = if room = 0 then .ok written else .error .uninitialised := by
  induction written with
  | nil => cases room <;> rfl
  | cons a written ih =>
    have shape : upTo (a :: written) room = some a :: upTo written room := rfl
    rw [shape, read, ih]
    split
    · rfl
    · rfl

/-- A new block comes out whole exactly when it has the size of what is written
to it; a smaller one is overrun and a larger one stays unwritten in part. -/
theorem fill_eq (size : Nat) (pieces : List (List α)) :
    (writeAll (malloc size) 0 pieces >>= read) =
      if size = pieces.flatten.length then .ok pieces.flatten
      else if size < pieces.flatten.length then .error .outside
      else .error .uninitialised := by
  have filled := writeAll_upTo [] size pieces
  rw [malloc_eq]
  rw [List.length_nil, List.nil_append] at filled
  rw [filled]
  by_cases fits : pieces.flatten.length ≤ size
  · rw [if_pos fits, ok_bind, read_upTo]
    by_cases exact_size : size = pieces.flatten.length
    · rw [if_pos exact_size, if_pos (by omega)]
    · rw [if_neg exact_size, if_neg (by omega), if_neg (by omega)]
  · rw [if_neg fits, error_bind, if_neg (by omega), if_pos (by omega)]

end WriteBuffer
