import DynamicRPC.AesCipher
import DynamicRPC.FrameSafety
import DynamicRPC.Library.BlockChaining

namespace DynamicRPC
open Outcome

/-! Buffers in cipher block chaining, and the cipher of a connection. -/

/-- `AES_ctx`. -/
structure AesCtx where
  roundKey : List AesWord
  iv : StateT
  deriving DecidableEq, Repr

def aesInitCtxIv (key iv : StateT) : AesCtx := ⟨keyExpansion key, iv⟩

def xorWithIv (buf iv : StateT) : StateT := buf.zipWith Quad.add iv

def loadWord : List UInt8 → Outcome (AesWord × List UInt8)
  | x0 :: x1 :: x2 :: x3 :: rest => pure (⟨x0, x1, x2, x3⟩, rest)
  | _ => .error .outside

/-- The block at `buf`, and what follows it in the buffer. -/
def loadBlock (buf : List UInt8) : Outcome (StateT × List UInt8) := do
  let (x0, buf) ← loadWord buf
  let (x1, buf) ← loadWord buf
  let (x2, buf) ← loadWord buf
  let (x3, buf) ← loadWord buf
  pure (⟨x0, x1, x2, x3⟩, buf)

def storeBlock (block : StateT) : List UInt8 := block.toList.flatMap Quad.toList

/-- `iv` of `drpc_protocol.c`. -/
def iv : StateT :=
  ⟨⟨0x00, 0x01, 0x02, 0x03⟩, ⟨0x04, 0x05, 0x06, 0x07⟩, ⟨0x08, 0x09, 0x0a, 0x0b⟩, ⟨0x0c, 0x0d, 0x0e, 0x0f⟩⟩

/-- The loop of `AES_CBC_encrypt_buffer`, with the `Iv` it ends with. -/
def cbcEncryptLoop (roundKey : List AesWord) : Nat → StateT → List UInt8 → Outcome (StateT × List UInt8)
  | 0, iv, buf => pure (iv, buf)
  | rounds + 1, iv, buf => do
    let (block, buf) ← loadBlock buf
    let block := cipher (xorWithIv block iv) roundKey
    let (iv, buf) ← cbcEncryptLoop roundKey rounds block buf
    pure (iv, storeBlock block ++ buf)

/-- `AES_CBC_encrypt_buffer` on a buffer of `length` bytes: `i` runs over the
multiples of 16 below `length`. -/
def cbcEncryptBuffer (ctx : AesCtx) (buf : List UInt8) : Outcome (AesCtx × List UInt8) := do
  let (iv, buf) ← cbcEncryptLoop ctx.roundKey ((buf.length + 15) / 16) ctx.iv buf
  pure ({ ctx with iv := iv }, buf)

/-- The loop of `AES_CBC_decrypt_buffer`. -/
def cbcDecryptLoop (roundKey : List AesWord) : Nat → StateT → List UInt8 → Outcome (StateT × List UInt8)
  | 0, iv, buf => pure (iv, buf)
  | rounds + 1, iv, buf => do
    let (storeNextIv, buf) ← loadBlock buf
    let block := xorWithIv (invCipher storeNextIv roundKey) iv
    let (iv, buf) ← cbcDecryptLoop roundKey rounds storeNextIv buf
    pure (iv, storeBlock block ++ buf)

/-- `AES_CBC_decrypt_buffer`. -/
def cbcDecryptBuffer (ctx : AesCtx) (buf : List UInt8) : Outcome (AesCtx × List UInt8) := do
  let (iv, buf) ← cbcDecryptLoop ctx.roundKey ((buf.length + 15) / 16) ctx.iv buf
  pure ({ ctx with iv := iv }, buf)

theorem xorWithIv_cancel (buf iv : StateT) : xorWithIv (xorWithIv buf iv) iv = buf := by
  ext : 1 <;> exact Quad.add_add_cancel ..

theorem xorWithIv_left_inj (buf other iv : StateT) : xorWithIv buf iv = xorWithIv other iv ↔ buf = other := by
  refine ⟨fun same => ?_, fun same => congrArg (xorWithIv · iv) same⟩
  rw [← xorWithIv_cancel buf iv, same, xorWithIv_cancel]

/-- A sum with one block becomes the sum with another by the sum of the two. -/
theorem xorWithIv_swap (buf iv other : StateT) : xorWithIv (xorWithIv buf iv) (xorWithIv iv other) = xorWithIv buf other := by
  have bytes (x y z : AesWord) : (x.add y).add (y.add z) = x.add z := by
    rw [← Quad.add_assoc, Quad.add_add_cancel]
  ext : 1 <;> exact bytes ..

@[simp] theorem storeBlock_length (block : StateT) : (storeBlock block).length = 16 := rfl

@[simp] theorem loadBlock_storeBlock (block : StateT) (rest : List UInt8) :
    loadBlock (storeBlock block ++ rest) = .ok (block, rest) := rfl

theorem exists_word {buf : List UInt8} (long : 4 ≤ buf.length) :
    ∃ (word : AesWord) (rest : List UInt8), buf = word.toList ++ rest := by
  obtain _ | ⟨x0, _ | ⟨x1, _ | ⟨x2, _ | ⟨x3, rest⟩⟩⟩⟩ := buf
  case cons.cons.cons.cons => exact ⟨⟨x0, x1, x2, x3⟩, rest, rfl⟩
  all_goals exact absurd long (by simp)

theorem exists_block {buf : List UInt8} (long : 16 ≤ buf.length) :
    ∃ (block : StateT) (rest : List UInt8), buf = storeBlock block ++ rest := by
  have word (w : AesWord) : w.toList.length = 4 := rfl
  obtain ⟨x0, buf, rfl⟩ := exists_word (show 4 ≤ buf.length by omega)
  rw [List.length_append, word] at long
  obtain ⟨x1, buf, rfl⟩ := exists_word (show 4 ≤ buf.length by omega)
  rw [List.length_append, word] at long
  obtain ⟨x2, buf, rfl⟩ := exists_word (show 4 ≤ buf.length by omega)
  rw [List.length_append, word] at long
  obtain ⟨x3, buf, rfl⟩ := exists_word (show 4 ≤ buf.length by omega)
  exact ⟨⟨x0, x1, x2, x3⟩, buf, rfl⟩

theorem loadWord_inv {buf rest : List UInt8} {word : AesWord} (loaded : loadWord buf = .ok (word, rest)) :
    buf = word.toList ++ rest := by
  unfold loadWord at loaded
  split at loaded
  · cases loaded
    rfl
  · cases loaded

theorem loadBlock_inv {buf rest : List UInt8} {block : StateT} (loaded : loadBlock buf = .ok (block, rest)) :
    buf = storeBlock block ++ rest := by
  obtain ⟨⟨x0, buf0⟩, load0, loaded⟩ := bind_eq_ok.mp loaded
  obtain ⟨⟨x1, buf1⟩, load1, loaded⟩ := bind_eq_ok.mp loaded
  obtain ⟨⟨x2, buf2⟩, load2, loaded⟩ := bind_eq_ok.mp loaded
  obtain ⟨⟨x3, buf3⟩, load3, loaded⟩ := bind_eq_ok.mp loaded
  cases loaded
  rw [loadWord_inv load0, loadWord_inv load1, loadWord_inv load2, loadWord_inv load3]
  rfl

/-- The blocks of a buffer, one after the other. -/
def storeBlocks (blocks : List StateT) : List UInt8 := blocks.flatMap storeBlock

@[simp] theorem storeBlocks_cons (block : StateT) (blocks : List StateT) :
    storeBlocks (block :: blocks) = storeBlock block ++ storeBlocks blocks := rfl

@[simp] theorem storeBlocks_append (front back : List StateT) :
    storeBlocks (front ++ back) = storeBlocks front ++ storeBlocks back := List.flatMap_append

@[simp] theorem storeBlocks_length (blocks : List StateT) : (storeBlocks blocks).length = 16 * blocks.length := by
  induction blocks with
  | nil => rfl
  | cons block blocks ih =>
    rw [storeBlocks_cons, List.length_append, storeBlock_length, ih, List.length_cons]
    omega

theorem storeBlocks_take (blocks : List StateT) (n : Nat) :
    (storeBlocks blocks).take (16 * n) = storeBlocks (blocks.take n) := by
  induction blocks generalizing n with
  | nil => simp [storeBlocks]
  | cons block blocks ih =>
    cases n with
    | zero => simp [storeBlocks]
    | succ n =>
      rw [storeBlocks_cons, List.take_succ_cons, storeBlocks_cons, ← ih, show 16 * (n + 1) = 16 + 16 * n by omega,
        ← storeBlock_length block, List.take_length_add_append]

theorem storeBlocks_inj {blocks others : List StateT} : storeBlocks blocks = storeBlocks others ↔ blocks = others := by
  refine ⟨fun same => ?_, congrArg _⟩
  induction blocks generalizing others with
  | nil =>
    have length := congrArg List.length same
    rw [storeBlocks_length, storeBlocks_length, List.length_nil] at length
    exact (List.eq_nil_of_length_eq_zero (by omega)).symm
  | cons block blocks ih =>
    cases others with
    | nil =>
      have length := congrArg List.length same
      simp at length
    | cons other others =>
      have loaded := congrArg loadBlock same
      rw [storeBlocks_cons, storeBlocks_cons, loadBlock_storeBlock, loadBlock_storeBlock] at loaded
      injection loaded with loaded
      injection loaded with head tail
      rw [head, ih tail]

theorem exists_blocks {buf : List UInt8} (whole : buf.length % 16 = 0) : ∃ blocks, buf = storeBlocks blocks := by
  induction length : buf.length / 16 generalizing buf with
  | zero => exact ⟨[], List.eq_nil_of_length_eq_zero (by omega)⟩
  | succ n ih =>
    obtain ⟨block, rest, rfl⟩ := exists_block (show 16 ≤ buf.length by omega)
    rw [List.length_append, storeBlock_length] at whole length
    obtain ⟨blocks, rfl⟩ := @ih rest (by omega) (by omega)
    exact ⟨block :: blocks, rfl⟩

/-! The two loops. -/

/-- The cipher blocks that a context makes of blocks of text. -/
def AesCtx.sealed (ctx : AesCtx) (blocks : List StateT) : List StateT :=
  BlockChaining.encrypt xorWithIv (cipher · ctx.roundKey) ctx.iv blocks

/-- The blocks of text that a context makes of cipher blocks. -/
def AesCtx.opened (ctx : AesCtx) (blocks : List StateT) : List StateT :=
  BlockChaining.decrypt xorWithIv (invCipher · ctx.roundKey) ctx.iv blocks

theorem cbcEncryptLoop_blocks (roundKey : List AesWord) (iv : StateT) (blocks : List StateT) :
    cbcEncryptLoop roundKey blocks.length iv (storeBlocks blocks) =
      .ok ((AesCtx.sealed ⟨roundKey, iv⟩ blocks).getLastD iv, storeBlocks (AesCtx.sealed ⟨roundKey, iv⟩ blocks)) := by
  induction blocks generalizing iv with
  | nil => rfl
  | cons block blocks ih =>
    rw [List.length_cons, cbcEncryptLoop, storeBlocks_cons, loadBlock_storeBlock, ok_bind]
    dsimp only
    rw [ih, ok_bind]
    simp only [AesCtx.sealed, BlockChaining.encrypt, List.getLastD_cons, storeBlocks_cons, pure_eq_ok]

theorem cbcDecryptLoop_blocks (roundKey : List AesWord) (iv : StateT) (blocks : List StateT) :
    cbcDecryptLoop roundKey blocks.length iv (storeBlocks blocks) =
      .ok (blocks.getLastD iv, storeBlocks (AesCtx.opened ⟨roundKey, iv⟩ blocks)) := by
  induction blocks generalizing iv with
  | nil => rfl
  | cons block blocks ih =>
    rw [List.length_cons, cbcDecryptLoop, storeBlocks_cons, loadBlock_storeBlock, ok_bind]
    dsimp only
    rw [ih, ok_bind]
    simp only [AesCtx.opened, BlockChaining.decrypt, List.getLastD_cons, storeBlocks_cons, pure_eq_ok]

/-- A loop that returns has found all its blocks in the buffer. -/
theorem cbcEncryptLoop_length {roundKey : List AesWord} {rounds : Nat} {iv : StateT} {buf : List UInt8}
    (returns : Returns (cbcEncryptLoop roundKey rounds iv buf)) : 16 * rounds ≤ buf.length := by
  induction rounds generalizing iv buf with
  | zero => omega
  | succ rounds ih =>
    rw [cbcEncryptLoop, returns_bind] at returns
    obtain ⟨⟨block, rest⟩, loaded, returns⟩ := returns
    obtain ⟨_, run, -⟩ := returns_bind.mp returns
    have later := ih ⟨_, run⟩
    rw [loadBlock_inv loaded, List.length_append, storeBlock_length]
    omega

theorem cbcDecryptLoop_length {roundKey : List AesWord} {rounds : Nat} {iv : StateT} {buf : List UInt8}
    (returns : Returns (cbcDecryptLoop roundKey rounds iv buf)) : 16 * rounds ≤ buf.length := by
  induction rounds generalizing iv buf with
  | zero => omega
  | succ rounds ih =>
    rw [cbcDecryptLoop, returns_bind] at returns
    obtain ⟨⟨block, rest⟩, loaded, returns⟩ := returns
    obtain ⟨_, run, -⟩ := returns_bind.mp returns
    have later := ih ⟨_, run⟩
    rw [loadBlock_inv loaded, List.length_append, storeBlock_length]
    omega

section Buffer
variable (ctx : AesCtx) (blocks : List StateT)

theorem cbcEncryptBuffer_blocks : cbcEncryptBuffer ctx (storeBlocks blocks) =
    .ok ({ ctx with iv := (ctx.sealed blocks).getLastD ctx.iv }, storeBlocks (ctx.sealed blocks)) := by
  rw [cbcEncryptBuffer, storeBlocks_length, show (16 * blocks.length + 15) / 16 = blocks.length by omega,
    cbcEncryptLoop_blocks]
  rfl

theorem cbcDecryptBuffer_blocks : cbcDecryptBuffer ctx (storeBlocks blocks) =
    .ok ({ ctx with iv := blocks.getLastD ctx.iv }, storeBlocks (ctx.opened blocks)) := by
  rw [cbcDecryptBuffer, storeBlocks_length, show (16 * blocks.length + 15) / 16 = blocks.length by omega,
    cbcDecryptLoop_blocks]
  rfl

theorem AesCtx.opened_sealed : ctx.opened (ctx.sealed blocks) = blocks :=
  BlockChaining.decrypt_encrypt (fun block => invCipher_cipher block ctx.roundKey) xorWithIv_cancel _ _

@[simp] theorem AesCtx.sealed_length : (ctx.sealed blocks).length = blocks.length := BlockChaining.encrypt_length ..

@[simp] theorem AesCtx.opened_length : (ctx.opened blocks).length = blocks.length := BlockChaining.decrypt_length ..

end Buffer

/-- Both functions stay inside a buffer of whole blocks and leave any other. -/
theorem cbcBuffer_returns_iff (ctx : AesCtx) (buf : List UInt8) :
    (Returns (cbcEncryptBuffer ctx buf) ↔ buf.length % 16 = 0) ∧
      (Returns (cbcDecryptBuffer ctx buf) ↔ buf.length % 16 = 0) := by
  refine ⟨⟨fun returns => ?_, fun whole => ?_⟩, fun returns => ?_, fun whole => ?_⟩
  · obtain ⟨_, run, -⟩ := returns_bind.mp returns
    have long := cbcEncryptLoop_length ⟨_, run⟩
    omega
  · obtain ⟨blocks, rfl⟩ := exists_blocks whole
    exact ⟨_, cbcEncryptBuffer_blocks ctx blocks⟩
  · obtain ⟨_, run, -⟩ := returns_bind.mp returns
    have long := cbcDecryptLoop_length ⟨_, run⟩
    omega
  · obtain ⟨blocks, rfl⟩ := exists_blocks whole
    exact ⟨_, cbcDecryptBuffer_blocks ctx blocks⟩

/-! A stream of buffers through one context. -/

/-- A call for each buffer of a stream, with the iv that the one before leaves
in the context. -/
def cbcAll (call : AesCtx → List UInt8 → Outcome (AesCtx × List UInt8)) (ctx : AesCtx) :
    List (List UInt8) → Outcome (AesCtx × List (List UInt8))
  | [] => pure (ctx, [])
  | buf :: bufs => do
    let (ctx, buf) ← call ctx buf
    let (ctx, bufs) ← cbcAll call ctx bufs
    pure (ctx, buf :: bufs)

theorem cbcAll_blocks {call : AesCtx → List UInt8 → Outcome (AesCtx × List UInt8)}
    {mode : BlockChaining.Mode StateT StateT} {roundKey : List AesWord}
    (spec : ∀ iv blocks, call ⟨roundKey, iv⟩ (storeBlocks blocks) =
      .ok (⟨roundKey, mode.after iv blocks⟩, storeBlocks (mode.run iv blocks)))
    (iv : StateT) (stream : List (List StateT)) : cbcAll call ⟨roundKey, iv⟩ (stream.map storeBlocks) =
      .ok (⟨roundKey, mode.after iv stream.flatten⟩, (mode.pieces iv stream).map storeBlocks) := by
  induction stream generalizing iv with
  | nil => rw [List.flatten_nil, mode.after_nil]; rfl
  | cons piece stream ih =>
    rw [List.map_cons, cbcAll, spec, ok_bind]
    dsimp only
    rw [ih, ok_bind, List.flatten_cons, mode.after_append]
    rfl

theorem exists_pieces {stream : List (List UInt8)} (whole : ∀ buf ∈ stream, buf.length % 16 = 0) :
    ∃ pieces : List (List StateT), stream = pieces.map storeBlocks := by
  induction stream with
  | nil => exact ⟨[], rfl⟩
  | cons buf stream ih =>
    rw [List.forall_mem_cons] at whole
    obtain ⟨blocks, rfl⟩ := exists_blocks whole.1
    obtain ⟨pieces, rfl⟩ := ih whole.2
    exact ⟨blocks :: pieces, rfl⟩

theorem flatten_map_storeBlocks (pieces : List (List StateT)) :
    (pieces.map storeBlocks).flatten = storeBlocks pieces.flatten := by
  induction pieces with
  | nil => rfl
  | cons blocks pieces ih => rw [List.map_cons, List.flatten_cons, List.flatten_cons, storeBlocks_append, ih]

theorem map_length_storeBlocks {pieces others : List (List StateT)}
    (same : pieces.map List.length = others.map List.length) :
    (pieces.map storeBlocks).map List.length = (others.map storeBlocks).map List.length := by
  have lengths (pieces : List (List StateT)) :
      (pieces.map storeBlocks).map List.length = (pieces.map List.length).map (16 * ·) := by
    simp [Function.comp_def]
  rw [lengths, lengths, same]

/-- A stream that one context encrypts, in buffers of whole blocks, comes out of
a context that starts alike, in whatever other buffers the cipher text arrives,
and both end with the same iv. -/
theorem cbc_stream (ctx : AesCtx) {texts : List (List UInt8)} (whole : ∀ text ∈ texts, text.length % 16 = 0) :
    ∃ after ciphered, cbcAll cbcEncryptBuffer ctx texts = .ok (after, ciphered) ∧
      ciphered.map List.length = texts.map List.length ∧
      ∀ arrived : List (List UInt8), arrived.flatten = ciphered.flatten → (∀ buf ∈ arrived, buf.length % 16 = 0) →
        ∃ plain, cbcAll cbcDecryptBuffer ctx arrived = .ok (after, plain) ∧
          plain.map List.length = arrived.map List.length ∧ plain.flatten = texts.flatten := by
  obtain ⟨roundKey, iv⟩ := ctx
  obtain ⟨pieces, rfl⟩ := exists_pieces whole
  refine ⟨_, _, @cbcAll_blocks _ (BlockChaining.encryptMode xorWithIv (cipher · roundKey)) roundKey
    (fun iv => cbcEncryptBuffer_blocks ⟨roundKey, iv⟩) iv pieces,
    map_length_storeBlocks (BlockChaining.Mode.pieces_lengths ..), fun arrived same whole => ?_⟩
  obtain ⟨cuts, rfl⟩ := exists_pieces whole
  rw [flatten_map_storeBlocks, flatten_map_storeBlocks, storeBlocks_inj, BlockChaining.Mode.pieces_flatten] at same
  refine ⟨((BlockChaining.decryptMode xorWithIv (invCipher · roundKey)).pieces iv cuts).map storeBlocks, ?_,
    map_length_storeBlocks (BlockChaining.Mode.pieces_lengths ..), ?_⟩
  · rw [@cbcAll_blocks _ (BlockChaining.decryptMode xorWithIv (invCipher · roundKey)) roundKey
      (fun iv => cbcDecryptBuffer_blocks ⟨roundKey, iv⟩) iv cuts, same]
    rfl
  · rw [flatten_map_storeBlocks, flatten_map_storeBlocks, BlockChaining.Mode.pieces_flatten, same]
    exact congrArg storeBlocks (AesCtx.opened_sealed ⟨roundKey, iv⟩ pieces.flatten)

/-- A text of three blocks in two buffers, that arrives in one. -/
theorem cbc_stream_twoBuffers : ∃ after ciphered, cbcAll cbcEncryptBuffer (aesInitCtxIv iv iv)
      [List.replicate 16 1, List.replicate 32 2] = .ok (after, ciphered) ∧
    ∃ plain, cbcAll cbcDecryptBuffer (aesInitCtxIv iv iv) [ciphered.flatten] = .ok (after, plain) ∧
      plain.flatten = List.replicate 16 1 ++ List.replicate 32 2 := by
  have whole : ∀ text ∈ [List.replicate 16 (1 : UInt8), List.replicate 32 2], text.length % 16 = 0 := by decide
  obtain ⟨after, ciphered, sealing, lengths, arrives⟩ := cbc_stream (aesInitCtxIv iv iv) whole
  have length : ciphered.flatten.length % 16 = 0 := by
    rw [List.length_flatten, lengths]
    rfl
  obtain ⟨plain, opening, -, same⟩ := arrives [ciphered.flatten] (by simp) (by simpa using length)
  exact ⟨after, ciphered, sealing, plain, opening, same⟩

def blockZero : StateT := ⟨⟨0, 0, 0, 0⟩, ⟨0, 0, 0, 0⟩, ⟨0, 0, 0, 0⟩, ⟨0, 0, 0, 0⟩⟩

/-- A cipher block that changes on its way, with whole blocks around it: the
text changes in its own block, to any of the others only if it changed to
another, and in the next one by the same bits. -/
theorem cbc_damage (ctx : AesCtx) {front back : List UInt8} (wholeFront : front.length % 16 = 0)
    (wholeBack : back.length % 16 = 0) (sent arrived next : StateT) :
    ∃ after before text other nextText rest, before.length = front.length ∧ (text = other ↔ sent = arrived) ∧
      cbcDecryptBuffer ctx (front ++ storeBlock sent ++ storeBlock next ++ back) =
        .ok (after, before ++ storeBlock text ++ storeBlock nextText ++ rest) ∧
      cbcDecryptBuffer ctx (front ++ storeBlock arrived ++ storeBlock next ++ back) =
        .ok (after, before ++ storeBlock other ++ storeBlock (xorWithIv nextText (xorWithIv sent arrived)) ++ rest) := by
  obtain ⟨blocks, rfl⟩ := exists_blocks wholeFront
  obtain ⟨others, rfl⟩ := exists_blocks wholeBack
  have run (block : StateT) := cbcDecryptBuffer_blocks ctx (blocks ++ block :: next :: others)
  simp only [AesCtx.opened, BlockChaining.decrypt_damaged, storeBlocks_append, storeBlocks_cons, ← List.append_assoc,
    BlockChaining.getLastD_append, List.getLastD_cons] at run
  refine ⟨⟨ctx.roundKey, others.getLastD next⟩, storeBlocks (ctx.opened blocks),
    xorWithIv (invCipher sent ctx.roundKey) (blocks.getLastD ctx.iv),
    xorWithIv (invCipher arrived ctx.roundKey) (blocks.getLastD ctx.iv), xorWithIv (invCipher next ctx.roundKey) sent,
    storeBlocks (AesCtx.opened ⟨ctx.roundKey, next⟩ others), ?_, ?_, run sent, ?_⟩
  · rw [storeBlocks_length, storeBlocks_length, AesCtx.opened_length]
  · exact (xorWithIv_left_inj ..).trans (invCipher_injective ctx.roundKey).eq_iff
  · rw [xorWithIv_swap]
    exact run arrived

/-- The second of four cipher blocks, and the block of zeros that arrives for it. -/
theorem cbc_damage_zeros : ∃ after before text other nextText rest, before.length = 16 ∧ (text = other ↔ iv = blockZero) ∧
    cbcDecryptBuffer (aesInitCtxIv iv iv) (storeBlock iv ++ storeBlock iv ++ storeBlock iv ++ storeBlock iv) =
      .ok (after, before ++ storeBlock text ++ storeBlock nextText ++ rest) ∧
    cbcDecryptBuffer (aesInitCtxIv iv iv) (storeBlock iv ++ storeBlock blockZero ++ storeBlock iv ++ storeBlock iv) =
      .ok (after, before ++ storeBlock other ++ storeBlock (xorWithIv nextText (xorWithIv iv blockZero)) ++ rest) :=
  @cbc_damage (aesInitCtxIv iv iv) (storeBlock iv) (storeBlock iv) (by decide) (by decide) iv blockZero iv

/-! The cipher of a connection: `drpc_tcp_send_message` and
`drpc_tcp_recv_message` begin every message with the same iv. -/

/-- The buffer after a call; one that the call does not get through stays. -/
def bufferAfter (buf : List UInt8) : Outcome (AesCtx × List UInt8) → List UInt8
  | .ok (_, result) => result
  | .error _ => buf

theorem cbcEncryptBuffer_whole (ctx : AesCtx) {buf : List UInt8} (whole : buf.length % 16 = 0) :
    ∃ after ciphered, cbcEncryptBuffer ctx buf = .ok (after, ciphered) ∧ ciphered.length = buf.length ∧
      cbcDecryptBuffer ctx ciphered = .ok (after, buf) := by
  obtain ⟨blocks, rfl⟩ := exists_blocks whole
  refine ⟨_, _, cbcEncryptBuffer_blocks ctx blocks, ?_, ?_⟩
  · rw [storeBlocks_length, storeBlocks_length, AesCtx.sealed_length]
  · rw [cbcDecryptBuffer_blocks, AesCtx.opened_sealed]

/-- The two functions under a key, from the iv with which every message begins. -/
def Aes.ofKey (aes128Key : StateT) : Aes where
  encryptBuffer buf := bufferAfter buf (cbcEncryptBuffer (aesInitCtxIv aes128Key iv) buf)
  decryptBuffer buf := bufferAfter buf (cbcDecryptBuffer (aesInitCtxIv aes128Key iv) buf)
  length buf whole := by
    obtain ⟨after, ciphered, run, length, -⟩ := cbcEncryptBuffer_whole (aesInitCtxIv aes128Key iv) whole
    rw [run, bufferAfter, length]
  inverse buf whole := by
    obtain ⟨after, ciphered, run, -, back⟩ := cbcEncryptBuffer_whole (aesInitCtxIv aes128Key iv) whole
    rw [run, bufferAfter, back, bufferAfter]

theorem ofKey_encryptBuffer (aes128Key : StateT) (buf : List UInt8) :
    (Aes.ofKey aes128Key).encryptBuffer buf = bufferAfter buf (cbcEncryptBuffer (aesInitCtxIv aes128Key iv) buf) := rfl

theorem ofKey_decryptBuffer (aes128Key : StateT) (buf : List UInt8) :
    (Aes.ofKey aes128Key).decryptBuffer buf = bufferAfter buf (cbcDecryptBuffer (aesInitCtxIv aes128Key iv) buf) := rfl

theorem loadWord_avoids {fault : Fault} (other : fault ≠ .outside) (buf : List UInt8) : Avoids fault (loadWord buf) := by
  unfold loadWord
  split
  · exact avoids_ok _
  · exact avoids_error.mpr other.symm

theorem loadBlock_avoids {fault : Fault} (other : fault ≠ .outside) (buf : List UInt8) :
    Avoids fault (loadBlock buf) := by
  simp only [loadBlock, avoids_bind, pure_eq_ok, avoids_ok, implies_true, and_true]
  exact ⟨loadWord_avoids other _, fun _ _ => ⟨loadWord_avoids other _, fun _ _ => ⟨loadWord_avoids other _, fun _ _ =>
    loadWord_avoids other _⟩⟩⟩

theorem cbcDecryptLoop_avoids {fault : Fault} (other : fault ≠ .outside) (roundKey : List AesWord) (rounds : Nat)
    (iv : StateT) (buf : List UInt8) : Avoids fault (cbcDecryptLoop roundKey rounds iv buf) := by
  induction rounds generalizing iv buf with
  | zero => exact avoids_ok _
  | succ rounds ih =>
    simp only [cbcDecryptLoop, avoids_bind, pure_eq_ok, avoids_ok, implies_true, and_true]
    exact ⟨loadBlock_avoids other buf, fun _ _ => ih _ _⟩

theorem cbcDecryptBuffer_avoids {fault : Fault} (other : fault ≠ .outside) (ctx : AesCtx) (buf : List UInt8) :
    Avoids fault (cbcDecryptBuffer ctx buf) :=
  avoids_bind.mpr ⟨cbcDecryptLoop_avoids other _ _ _ _, fun _ _ => avoids_ok _⟩

/-- A received body is decrypted as the code does it, and the code leaves the
buffer exactly where `aesCbcDecryptBuffer` says so. -/
theorem aesCbcDecryptBuffer_ofKey (aes128Key : StateT) (buf : List UInt8) :
    aesCbcDecryptBuffer (some (.ofKey aes128Key)) buf = Prod.snd <$> cbcDecryptBuffer (aesInitCtxIv aes128Key iv) buf := by
  rw [aesCbcDecryptBuffer]
  split
  · next whole =>
    obtain ⟨blocks, rfl⟩ := exists_blocks whole
    rw [ofKey_decryptBuffer, cbcDecryptBuffer_blocks]
    rfl
  · next ragged =>
    cases run : cbcDecryptBuffer (aesInitCtxIv aes128Key iv) buf with
    | ok result => exact absurd ((cbcBuffer_returns_iff ..).2.mp ⟨result, run⟩) ragged
    | error fault =>
      have outside : fault = .outside := by
        by_contra other
        exact cbcDecryptBuffer_avoids other _ _ run
      rw [outside]
      rfl

/-- Two messages under one key agree on the wire, block after block, exactly as
far as they agree before encryption. -/
theorem ofKey_agree (aes128Key : StateT) {buf other : List UInt8} (whole : buf.length % 16 = 0)
    (wholeOther : other.length % 16 = 0) (blocks : Nat) :
    ((Aes.ofKey aes128Key).encryptBuffer buf).take (16 * blocks) =
        ((Aes.ofKey aes128Key).encryptBuffer other).take (16 * blocks) ↔
      buf.take (16 * blocks) = other.take (16 * blocks) := by
  obtain ⟨text, rfl⟩ := exists_blocks whole
  obtain ⟨text', rfl⟩ := exists_blocks wholeOther
  simp only [ofKey_encryptBuffer, cbcEncryptBuffer_blocks, bufferAfter, storeBlocks_take, storeBlocks_inj, AesCtx.sealed,
    BlockChaining.encrypt_take]
  exact @BlockChaining.encrypt_inj _ _ _ (invCipher · _) (fun block => invCipher_cipher block _) xorWithIv_cancel ..

/-- Two messages with the same first block. -/
theorem ofKey_agree_first :
    ((Aes.ofKey iv).encryptBuffer (List.replicate 16 1 ++ List.replicate 16 2)).take 16 =
        ((Aes.ofKey iv).encryptBuffer (List.replicate 16 1 ++ List.replicate 32 3)).take 16 ∧
      ((Aes.ofKey iv).encryptBuffer (List.replicate 16 1 ++ List.replicate 16 2)).take 32 ≠
        ((Aes.ofKey iv).encryptBuffer (List.replicate 16 1 ++ List.replicate 32 3)).take 32 :=
  ⟨(ofKey_agree iv (by decide) (by decide) 1).mpr (by decide),
    fun same => absurd ((ofKey_agree iv (by decide) (by decide) 2).mp same) (by decide)⟩

end DynamicRPC
