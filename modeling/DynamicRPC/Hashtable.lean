import DynamicRPC.CString
import DynamicRPC.Library.CyclicSearch

namespace DynamicRPC

/-- A slot of the open-addressing table: `key == NULL`, the tombstone
`key == (char*)0xDEAD`, or a key with its value. -/
inductive HashtableEntry (V : Type)
  | null
  | dead
  | live (key : CString) (value : V)
  deriving DecidableEq

/-- `capacity` is the length of `body`. The counter `size` also counts, for
every resize, the keys that the resize inserted again. -/
structure Hashtable (V : Type) where
  size : Nat
  body : List (HashtableEntry V)
  deriving DecidableEq

namespace HashtableEntry
variable {V : Type}

def isNull : HashtableEntry V → Bool
  | .null => true
  | _ => false

def isDead : HashtableEntry V → Bool
  | .dead => true
  | _ => false

def map {W : Type} (f : V → W) : HashtableEntry V → HashtableEntry W
  | .null => .null
  | .dead => .dead
  | .live key value => .live key (f value)

def binding : HashtableEntry V → Option (CString × V)
  | .live key value => some (key, value)
  | _ => none

end HashtableEntry

variable {V : Type}

def Hashtable.capacity (t : Hashtable V) : Nat := t.body.length

/-- The keys and values in slot order, as the loops over `body` see them. -/
def Hashtable.bindings (t : Hashtable V) : List (CString × V) :=
  t.body.filterMap HashtableEntry.binding

def Hashtable.keys (t : Hashtable V) : List CString := t.bindings.map Prod.fst

def Hashtable.nullCount (t : Hashtable V) : Nat := t.body.countP HashtableEntry.isNull

def Hashtable.deadCount (t : Hashtable V) : Nat := t.body.countP HashtableEntry.isDead

def hashtableInitialCapacity : Nat := 4

/-- The djb hash, over the sign-extended characters, in `unsigned long`. -/
def hashtableHash (str : CString) : UInt64 :=
  str.bytes.foldl (fun hash c => ((hash <<< 5) + hash) + c.toInt8.toInt64.toUInt64) 5381

/-- The exit test of the probe loop at one slot. -/
def hashtableSlotStops (t : Hashtable V) (key : CString) (index : Nat) : Bool :=
  match t.body[index]? with
  | some .null => true
  | some .dead => false
  | some (.live other _) => other == key
  | none => false

def hashtableStart (t : Hashtable V) (key : CString) : Nat :=
  (hashtableHash key).toNat % t.capacity

/-- The probe loop, for as many steps as it may need: a round that meets no
exit repeats for ever (`hashtableFindSlot_diverges_iff`). -/
def hashtableFindSlot (t : Hashtable V) (key : CString) : Outcome Nat :=
  match CyclicSearch.search (hashtableSlotStops t key) t.capacity t.capacity (hashtableStart t key) with
  | some index => .ok index
  | none => .error .diverges

def hashtableGet (t : Hashtable V) (key : CString) : Outcome (Option V) := do
  let index ← hashtableFindSlot t key
  match t.body[index]? with
  | some (.live _ value) => pure (some value)
  | _ => pure none

/-- The conversion of an `unsigned int` to `float`: 24 significant bits,
rounding to the nearest with ties to even. -/
def floatOfUnsigned (n : Nat) : Nat :=
  if n < 2 ^ 24 then n
  else
    let unit := 2 ^ (n.log2 - 23)
    let low := n / unit * unit
    if 2 * (n - low) < unit ∨ (2 * (n - low) = unit ∧ n / unit % 2 = 0) then low else low + unit

/-- `(float)t->size / t->capacity > 0.8`. Capacities are powers of two, so the
quotient is exact, and no such quotient lies between 0.8 and its `double`. -/
def hashtableCrowded (size capacity : Nat) : Bool := 4 * capacity < 5 * floatOfUnsigned size

def hashtableBodyAllocate (capacity : Nat) : List (HashtableEntry V) :=
  List.replicate capacity .null

/-- `hashtable_resize`, over the insertion it calls for every old entry. The
counter `size` is not reset. -/
def hashtableResizeWith (setNL : Hashtable V → CString → V → Outcome (Hashtable V))
    (t : Hashtable V) (capacity : Nat) : Outcome (Hashtable V) :=
  if capacity < t.size then .error .assertion
  else
    t.body.foldlM (fun new entry =>
      match entry with
      | .live key value => setNL new key value
      | _ => pure new) { size := t.size, body := hashtableBodyAllocate capacity }

/-- `hashtable_set_NL`, over the resize it calls. -/
def hashtableSetWith (resize : Hashtable V → Nat → Outcome (Hashtable V))
    (t : Hashtable V) (key : CString) (value : V) : Outcome (Hashtable V) := do
  let index ← hashtableFindSlot t key
  match t.body[index]? with
  | some (.live same _) => pure { t with body := t.body.set index (.live same value) }
  | _ =>
    let grown := { t with size := t.size + 1 }
    if hashtableCrowded grown.size grown.capacity then do
      let resized ← resize grown (grown.capacity * 2)
      let index ← hashtableFindSlot resized key
      pure { resized with body := resized.body.set index (.live key value) }
    else pure { grown with body := grown.body.set index (.live key value) }

/-- Resizing inserts the old entries by `hashtable_set_NL`, which may resize
again; `depth` bounds that nesting. -/
def hashtableSetNL : Nat → Hashtable V → CString → V → Outcome (Hashtable V)
  | 0 => hashtableSetWith fun _ _ => .error .diverges
  | depth + 1 => hashtableSetWith (hashtableResizeWith (hashtableSetNL depth))

/-- A resize nests only while the table it fills holds entries, so the
capacity is depth enough (`hashtableSet_spec`). -/
def hashtableSet (t : Hashtable V) (key : CString) (value : V) : Outcome (Hashtable V) :=
  hashtableSetNL (t.capacity + 1) t key value

def hashtableResize (t : Hashtable V) (capacity : Nat) : Outcome (Hashtable V) :=
  hashtableResizeWith (hashtableSetNL (t.capacity + 1)) t capacity

def hashtableRemove (t : Hashtable V) (key : CString) : Outcome (Hashtable V) := do
  let index ← hashtableFindSlot t key
  match t.body[index]? with
  | some .null => pure t
  | _ => pure { size := t.size - 1, body := t.body.set index .dead }

def hashtableCreate : Hashtable V where
  size := 0
  body := hashtableBodyAllocate hashtableInitialCapacity

end DynamicRPC
