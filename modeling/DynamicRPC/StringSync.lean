import DynamicRPC.ClientSync

namespace DynamicRPC
open Outcome

/-- A caller's block, before and after its string was synchronised with the
server's: it is terminated within the bytes of the string it held, it holds as
much of the server's string as fits there, and the bytes behind are the same. -/
structure StrSynced (original server : CString) (block block' : List UInt8) : Prop where
  terminated : 0 ∈ block'.take original.block.length
  longest : block'.takeWhile (· ≠ 0) = server.bytes.take original.bytes.length
  behind : block'.drop original.block.length = block.drop original.block.length
  length : block'.length = block.length

section Copy
variable {original server : CString} {block : List UInt8}

/-- A block is synchronised with the string it holds. -/
theorem StrSynced.refl (text : CString.read block = .ok original) : StrSynced original original block block where
  terminated := by
    rw [CString.read_inv text, List.take_left' rfl, CString.block]
    simp
  longest := by rw [CString.takeWhile_of_read text, List.take_length]
  behind := rfl
  length := rfl

/-- What the `memcpy` of the `d_str` case leaves in the caller's block. -/
def strCopied (original server : CString) (block : List UInt8) : List UInt8 :=
  server.block.take (min original.bytes.length server.bytes.length + 1) ++
    block.drop (min original.bytes.length server.bytes.length + 1)

/-- A string that fits is copied with its NUL. -/
theorem strCopied_fits (text : CString.read block = .ok original)
    (fits : server.bytes.length ≤ original.bytes.length) :
    StrSynced original server block (strCopied original server block) := by
  have room : original.bytes.length + 1 ≤ block.length := by
    have length := congrArg List.length (CString.read_inv text)
    rw [List.length_append, CString.block_length] at length
    omega
  have copied : strCopied original server block = server.block ++ block.drop (server.bytes.length + 1) := by
    have whole := CString.block_length server
    rw [strCopied, Nat.min_eq_right fits, List.take_of_length_le (by omega)]
  rw [copied]
  refine ⟨?_, ?_, ?_, ?_⟩
  · have first : server.block.take original.block.length = server.block :=
      List.take_of_length_le (by rw [CString.block_length, CString.block_length]; omega)
    rw [List.take_append, first, CString.block]
    simp
  · rw [List.take_of_length_le fits, CString.block, List.append_assoc]
    exact CString.takeWhile_append_nul server _
  · have gone : server.block.drop original.block.length = [] :=
      List.drop_of_length_le (by rw [CString.block_length, CString.block_length]; omega)
    rw [List.drop_append, gone, List.nil_append, List.drop_drop, CString.block_length, CString.block_length]
    congr 1
    omega
  · rw [List.length_append, CString.block_length, List.length_drop]
    omega

/-- Of a longer string the last byte that is copied is not its NUL. -/
theorem strCopied_long (long : original.bytes.length < server.bytes.length) :
    0 ∉ (strCopied original server block).take original.block.length := by
  have inside : server.block.take (original.bytes.length + 1) = server.bytes.take (original.bytes.length + 1) := by
    rw [CString.block, List.take_append_of_le_length (by omega)]
  have length : (server.bytes.take (original.bytes.length + 1)).length = original.block.length := by
    rw [List.length_take, CString.block_length]
    omega
  rw [strCopied, Nat.min_eq_left long.le, inside, List.take_left' length]
  exact fun zero => server.nulFree (List.mem_of_mem_take zero)

theorem strCopied_iff (text : CString.read block = .ok original) :
    StrSynced original server block (strCopied original server block) ↔
      server.bytes.length ≤ original.bytes.length := by
  refine ⟨fun synced => ?_, strCopied_fits text⟩
  by_contra long
  exact strCopied_long (not_le.mp long) synced.terminated

end Copy

section Case
variable {memory : Memory Element} {ptr address : Nat} {block : List UInt8} {object : Element}
  {original server : CString}

/-- The copy returns, and is the caller's own block where the server's string is
the caller's. -/
theorem moveStr_copies (caller : memory.cells ptr = some (.str block)) (text : CString.read block = .ok original)
    (sent : memory.cells address = some object) (reply : object.asStr = .ok server) :
    ∃ memory' block', moveStr memory ptr address = .ok memory' ∧ memory'.cells ptr = some (.str block') ∧
      (StrSynced original server block block' ↔ server.bytes.length ≤ original.bytes.length) := by
  by_cases same : ptr = address
  · subst same
    rw [caller] at sent
    cases sent
    have equal : server = original := by
      rw [show (Element.str block).asStr = CString.read block from rfl, text] at reply
      exact (Except.ok.inj reply).symm
    rw [equal]
    exact ⟨memory, block, if_pos rfl, caller, iff_of_true (.refl text) le_rfl⟩
  · have writable : (memory.cells ptr).isSome := by
      rw [caller]
      rfl
    obtain ⟨middle, written⟩ : ∃ middle, memory.write ptr (.str (strCopied original server block)) = .ok middle :=
      ⟨_, dif_pos writable⟩
    obtain ⟨-, cells, -⟩ := Memory.write_eq_ok.mp written
    have still : middle.cells address = some object := by
      rw [cells, Function.update_of_ne (fun equal => same equal.symm), sent]
    have live : (middle.cells address).isSome := by
      rw [still]
      rfl
    obtain ⟨memory', freed⟩ : ∃ memory', middle.free address = .ok memory' := ⟨_, dif_pos live⟩
    obtain ⟨-, cells', -⟩ := Memory.free_eq_ok.mp freed
    refine ⟨memory', strCopied original server block, ?_, ?_, strCopied_iff text⟩
    · rw [moveStr, if_neg same, Memory.read_eq_ok.mpr caller, ok_bind]
      dsimp only
      rw [text, ok_bind, Memory.read_eq_ok.mpr sent, ok_bind, reply, ok_bind]
      have copied : memory.write ptr (.str (server.block.take (min original.bytes.length server.bytes.length + 1) ++
          block.drop (min original.bytes.length server.bytes.length + 1))) = .ok middle := written
      rw [copied]
      exact freed
    · rw [cells', Function.update_of_ne same, cells, Function.update_self]

end Case

/-- The `d_str` case of the loop over the repacked arguments returns for every
pair of strings. It leaves the caller's block terminated within the string's
own bytes, with as much of the server's string as fits and nothing written
behind them, exactly where the server's string is no longer than the caller's. -/
theorem clientRepack_str_iff {s : ClientRepack} {i address len : Nat} {passed : DrpcTypeUpdate}
    {queue : List DrpcTypeUpdate} {block : List UInt8} {object : Element} {original server : CString} (returnIs : Int)
    (next : s.repackable = passed :: queue) (str : passed.type = .dStr)
    (here : s.repacked.lookupTable[i]? = some (.elem (.pointer .dStr address len rfl)))
    (caller : s.memory.cells passed.ptr = some (.str block)) (text : CString.read block = .ok original)
    (sent : s.memory.cells address = some object) (reply : object.asStr = .ok server) :
    ∃ s' block', clientRepack returnIs s i = .ok s' ∧ s'.memory.cells passed.ptr = some (.str block') ∧
      (StrSynced original server block block' ↔ server.bytes.length ≤ original.bytes.length) := by
  obtain ⟨memory, block', moved, cells, synced⟩ := moveStr_copies caller text sent reply
  have found : dArrayGetInternal s.repacked i = .ok (some (.pointer .dStr address len rfl)) := by
    rw [dArrayGetInternal, here]
    rfl
  have typed : dArrayGetType s.repacked i = .ok DrpcTypes.dStr.toChar := by
    rw [dArrayGetType, found]
    rfl
  have pointer : repackedPointer s.repacked i DrpcTypes.dStr.toChar = .ok (address, len) := by
    rw [repackedPointer, dArrayGet, found]
    rfl
  let repacked : DArray Argument := ⟨s.repacked.realSize - 1, s.repacked.lookupTable.set i .null⟩
  have unlinked : unlinkRepacked s.repacked i = .ok repacked := by
    have deleted : dArrayDelInternal s.repacked i = .ok repacked := by
      rw [dArrayDelInternal, found]
      rfl
    have loose : DStructElement.isPacked (Argument.pointer .dStr address len rfl) = false := rfl
    rw [unlinkRepacked, dArrayUnlink, found, ok_bind]
    dsimp only
    rw [loose, deleted]
    rfl
  obtain ⟨type, length, index, ptr⟩ := passed
  subst str
  let nativeReturn := if returnIs = i then some (Field.pointer .dStr ptr) else s.nativeReturn
  refine ⟨⟨repacked, memory, queue, nativeReturn, s.contents⟩, block', ?_, cells, synced⟩
  rw [clientRepack, typed, ok_bind, next]
  dsimp only
  rw [if_neg (by simp), pointer, ok_bind]
  dsimp only
  rw [unlinked, ok_bind, moved]
  rfl

/-- A caller that passed `caller`, when the server's string `server` is there. -/
def strRepack (caller server : List UInt8) : ClientRepack where
  repacked := ⟨1, [.elem (.pointer .dStr 2 0 (Eq.refl true))]⟩
  memory := ((Memory.empty.alloc (.str caller)).2.alloc (.str server)).2
  repackable := [⟨.dStr, 0, 0, 1⟩]
  nativeReturn := none
  contents := noContents

/-- A string of three bytes is set to one of two. -/
theorem clientRepack_str_iff_shorter : ∃ s' block',
    clientRepack (-1) (strRepack [97, 98, 99, 0] [120, 121, 0]) 0 = .ok s' ∧
    s'.memory.cells 1 = some (.str block') ∧
    (StrSynced (.ofChars ['a', 'b', 'c']) (.ofChars ['x', 'y']) [97, 98, 99, 0] block' ↔
      (CString.ofChars ['x', 'y']).bytes.length ≤ (CString.ofChars ['a', 'b', 'c']).bytes.length) := by
  have passed : (strRepack [97, 98, 99, 0] [120, 121, 0]).repackable = ⟨.dStr, 0, 0, 1⟩ :: [] := rfl
  exact clientRepack_str_iff (-1) passed rfl rfl rfl rfl rfl rfl

/-- A string of one byte loses its NUL to a server that sends two. -/
theorem clientRepack_str_unterminated : ∃ s', clientRepack (-1) (strRepack [97, 0] [120, 121, 0]) 0 = .ok s' ∧
    s'.memory.cells 1 = some (.str [120, 121]) ∧
    ¬ StrSynced (.ofChars ['a']) (.ofChars ['x', 'y']) [97, 0] [120, 121] :=
  ⟨_, rfl, rfl, fun synced => absurd synced.terminated (by decide)⟩

end DynamicRPC
