import Mathlib.Data.List.Basic

/-! Cipher block chaining over any type of blocks: a block is combined with the
cipher block before it and then enciphered. -/

namespace BlockChaining
variable {β : Type} (xor : β → β → β) (enc dec : β → β)

def encrypt (iv : β) : List β → List β
  | [] => []
  | block :: blocks => enc (xor block iv) :: encrypt (enc (xor block iv)) blocks

def decrypt (iv : β) : List β → List β
  | [] => []
  | block :: blocks => xor (dec block) iv :: decrypt block blocks

variable {xor enc dec} {iv : β}

@[simp] theorem encrypt_length (iv : β) (blocks : List β) : (encrypt xor enc iv blocks).length = blocks.length := by
  induction blocks generalizing iv with
  | nil => rfl
  | cons block blocks ih => simp [encrypt, ih]

@[simp] theorem decrypt_length (iv : β) (blocks : List β) : (decrypt xor dec iv blocks).length = blocks.length := by
  induction blocks generalizing iv with
  | nil => rfl
  | cons block blocks ih => simp [decrypt, ih]

/-- Deciphering with the same first block gives back what was enciphered. -/
theorem decrypt_encrypt (inverse : ∀ block, dec (enc block) = block) (cancel : ∀ a b, xor (xor a b) b = a) (iv : β)
    (blocks : List β) : decrypt xor dec iv (encrypt xor enc iv blocks) = blocks := by
  induction blocks generalizing iv with
  | nil => rfl
  | cons block blocks ih => rw [encrypt, decrypt, inverse, cancel, ih]

/-- A text in two pieces: the second starts from the last cipher block of the first. -/
theorem encrypt_append (iv : β) (front back : List β) : encrypt xor enc iv (front ++ back) =
    encrypt xor enc iv front ++ encrypt xor enc ((encrypt xor enc iv front).getLastD iv) back := by
  induction front generalizing iv with
  | nil => rfl
  | cons block front ih => simp only [List.cons_append, encrypt, ih, List.getLastD_cons]

theorem decrypt_append (iv : β) (front back : List β) :
    decrypt xor dec iv (front ++ back) = decrypt xor dec iv front ++ decrypt xor dec (front.getLastD iv) back := by
  induction front generalizing iv with
  | nil => rfl
  | cons block front ih => simp only [List.cons_append, decrypt, ih, List.getLastD_cons]

/-- Another cipher block changes its own text block and the sum with it in the
next one, and nothing else. -/
theorem decrypt_damaged (iv : β) (front back : List β) (block next : β) :
    decrypt xor dec iv (front ++ block :: next :: back) =
      decrypt xor dec iv front ++ xor (dec block) (front.getLastD iv) :: xor (dec next) block ::
        decrypt xor dec next back := by
  rw [decrypt_append]
  rfl

theorem encrypt_take (iv : β) (blocks : List β) (n : Nat) :
    (encrypt xor enc iv blocks).take n = encrypt xor enc iv (blocks.take n) := by
  induction blocks generalizing iv n with
  | nil => simp [encrypt]
  | cons block blocks ih =>
    cases n with
    | zero => rfl
    | succ n => simp only [encrypt, List.take_succ_cons, ih]

/-- From one first block, equal texts and no others have equal cipher texts. -/
theorem encrypt_inj (inverse : ∀ block, dec (enc block) = block) (cancel : ∀ a b, xor (xor a b) b = a) {iv : β}
    {blocks others : List β} : encrypt xor enc iv blocks = encrypt xor enc iv others ↔ blocks = others := by
  refine ⟨fun same => ?_, congrArg _⟩
  rw [← decrypt_encrypt inverse cancel iv blocks, same, decrypt_encrypt inverse cancel]

theorem getLastD_append (front back : List β) (first : β) :
    (front ++ back).getLastD first = back.getLastD (front.getLastD first) := by
  induction front generalizing first with
  | nil => rfl
  | cons block front ih => rw [List.cons_append, List.getLastD_cons, List.getLastD_cons, ih]

/-- A way to turn blocks into blocks that can stop after any of them: `after` is
the state in which it goes on. -/
structure Mode (σ β : Type) where
  run : σ → List β → List β
  after : σ → List β → σ
  run_nil : ∀ s, run s [] = []
  after_nil : ∀ s, after s [] = s
  run_append : ∀ s front back, run s (front ++ back) = run s front ++ run (after s front) back
  after_append : ∀ s front back, after s (front ++ back) = after (after s front) back
  run_length : ∀ s blocks, (run s blocks).length = blocks.length

def encryptMode (xor : β → β → β) (enc : β → β) : Mode β β where
  run := encrypt xor enc
  after iv blocks := (encrypt xor enc iv blocks).getLastD iv
  run_nil _ := rfl
  after_nil _ := rfl
  run_append := encrypt_append
  after_append iv front back := by rw [encrypt_append, getLastD_append]
  run_length := encrypt_length

def decryptMode (xor : β → β → β) (dec : β → β) : Mode β β where
  run := decrypt xor dec
  after iv blocks := blocks.getLastD iv
  run_nil _ := rfl
  after_nil _ := rfl
  run_append := decrypt_append
  after_append iv front back := getLastD_append front back iv
  run_length := decrypt_length

namespace Mode
variable {σ : Type} (mode : Mode σ β)

/-- The pieces of a stream, each from the state in which the one before leaves the mode. -/
def pieces (s : σ) : List (List β) → List (List β)
  | [] => []
  | piece :: rest => mode.run s piece :: pieces (mode.after s piece) rest

theorem pieces_flatten (s : σ) (stream : List (List β)) :
    (mode.pieces s stream).flatten = mode.run s stream.flatten := by
  induction stream generalizing s with
  | nil => exact (mode.run_nil s).symm
  | cons piece stream ih => rw [pieces, List.flatten_cons, List.flatten_cons, mode.run_append, ih]

theorem pieces_lengths (s : σ) (stream : List (List β)) :
    (mode.pieces s stream).map List.length = stream.map List.length := by
  induction stream generalizing s with
  | nil => rfl
  | cons piece stream ih => rw [pieces, List.map_cons, List.map_cons, mode.run_length, ih]

end Mode

end BlockChaining
