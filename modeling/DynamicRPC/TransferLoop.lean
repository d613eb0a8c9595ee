import DynamicRPC.TcpStream

namespace DynamicRPC

/-- What a `send` or a `recv` does: it moves a fragment, or returns 0 or -1. -/
inductive IoResult
  | moved (bytes : Nat)
  | closed
  | failed

/-- The length of a fragment, one byte at least and no more than there are left. -/
def fragment (bytes remaining : Nat) : Nat := max 1 (min bytes remaining)

/-- The result in a `size_t`. -/
def IoResult.curSent (remaining : Nat) : IoResult → Nat
  | .moved bytes => fragment bytes remaining
  | .closed => 0
  | .failed => 2 ^ 64 - 1

/-- The loop that `tcp_send_loop` and `tcp_recv_loop` share, from an offset on,
with what it returns. `move` is what a fragment at an offset does. A loop whose
next call has not returned yet is `none`. -/
def transferLoop {σ : Type} (move : Nat → Nat → σ → σ) (buflen : Nat) : List IoResult → Nat → σ → Option (Nat × σ)
  | [], sent, s => if sent < buflen then none else some (if sent = buflen then 0 else 1, s)
  | result :: results, sent, s =>
    if sent < buflen then
      let curSent := result.curSent (buflen - sent)
      let s := match result with
        | .moved _ => move sent curSent s
        | _ => s
      if curSent = 0 then some (if sent = buflen then 0 else 1, s)
      else transferLoop move buflen results ((sent + curSent) % 2 ^ 64) s
    else some (if sent = buflen then 0 else 1, s)

/-- `tcp_send_loop` over the results of `send`, with the bytes put on the stream. -/
def tcpSendResults (buf : List UInt8) (results : List IoResult) : Option (Nat × List UInt8) :=
  transferLoop (fun sent curSent stream => stream ++ (buf.drop sent).take curSent) buf.length results 0 []

/-- `tcp_recv_loop` over the results of `recv`, with the buffer and the number
of bytes it took off the stream. -/
def tcpRecvResults (stream : Nat → UInt8) (buf : List UInt8) (results : List IoResult) :
    Option (Nat × List UInt8 × Nat) :=
  transferLoop (fun received curSent (buf, taken) =>
    (buf.take received ++ (List.range' taken curSent).map stream ++ buf.drop (received + curSent), taken + curSent))
    buf.length results 0 (buf, 0)

/-- A 0 or a -1 comes before `buflen` bytes were moved. -/
def Interrupted (buflen : Nat) : Nat → List IoResult → Prop
  | _, [] => False
  | sent, .moved bytes :: results =>
    sent < buflen ∧ Interrupted buflen (sent + fragment bytes (buflen - sent)) results
  | sent, _ :: _ => sent < buflen

/-- 0 is returned only for the whole buffer, once and in order, and 1 after an interruption. -/
def SendsExactly (buf : List UInt8) (results : List IoResult) : Prop :=
  (∀ stream, tcpSendResults buf results = some (0, stream) → stream = buf) ∧
    (Interrupted buf.length 0 results → ∃ stream, tcpSendResults buf results = some (1, stream))

/-- 0 is returned only for the next bytes of the stream, with no more of it
taken, and 1 after an interruption. -/
def ReceivesExactly (stream : Nat → UInt8) (buf : List UInt8) (results : List IoResult) : Prop :=
  (∀ buf' taken, tcpRecvResults stream buf results = some (0, buf', taken) →
      buf' = (List.range buf.length).map stream ∧ taken = buf.length) ∧
    (Interrupted buf.length 0 results → ∃ s, tcpRecvResults stream buf results = some (1, s))

/-- No -1 comes after a part was moved, or a later result still ends the loop
before it reaches the end: a 0, or a -1 at offset 0. The offset is the bytes
moved less the -1s; `behind` says that one has come. -/
def Survives (buflen : Nat) : Bool → Nat → List IoResult → Prop
  | behind, _, [] => behind = false
  | behind, sent, .moved bytes :: results =>
    if sent < buflen then Survives buflen behind (sent + fragment bytes (buflen - sent)) results else behind = false
  | behind, sent, .closed :: _ => sent < buflen ∨ behind = false
  | behind, sent, .failed :: results =>
    if sent < buflen then
      if sent = 0 then buflen ≠ 2 ^ 64 - 1 else Survives buflen true (sent - 1) results
    else behind = false

section Loop
variable {σ : Type} {move : Nat → Nat → σ → σ} {buflen sent : Nat} {results : List IoResult} {s : σ}

theorem fragment_pos (bytes remaining : Nat) : 0 < fragment bytes remaining := by
  unfold fragment
  omega

theorem fragment_le {bytes remaining : Nat} (some_left : 0 < remaining) : fragment bytes remaining ≤ remaining := by
  unfold fragment
  omega

theorem transferLoop_done (results : List IoResult) (s : σ) :
    transferLoop move buflen results buflen s = some (0, s) := by
  cases results with
  | nil => rw [transferLoop, if_neg (lt_irrefl _), if_pos rfl]
  | cons result results => rw [transferLoop, if_neg (lt_irrefl _), if_pos rfl]

theorem transferLoop_beyond (results : List IoResult) (s : σ) (beyond : buflen < sent) :
    transferLoop move buflen results sent s = some (1, s) := by
  cases results with
  | nil => rw [transferLoop, if_neg (by omega), if_neg (by omega)]
  | cons result results => rw [transferLoop, if_neg (by omega), if_neg (by omega)]

theorem transferLoop_moved (bytes : Nat) (within : sent < buflen) (bound : buflen < 2 ^ 64) :
    transferLoop move buflen (.moved bytes :: results) sent s =
      transferLoop move buflen results (sent + fragment bytes (buflen - sent))
        (move sent (fragment bytes (buflen - sent)) s) := by
  have positive := fragment_pos bytes (buflen - sent)
  have fits : fragment bytes (buflen - sent) ≤ buflen - sent := fragment_le (by omega)
  rw [transferLoop, if_pos within]
  dsimp only [IoResult.curSent]
  rw [if_neg (by omega), Nat.mod_eq_of_lt (by omega)]

theorem transferLoop_closed (within : sent < buflen) :
    transferLoop move buflen (.closed :: results) sent s = some (1, s) := by
  rw [transferLoop, if_pos within]
  dsimp only [IoResult.curSent]
  rw [if_pos rfl, if_neg (by omega)]

/-- A -1 takes the offset back by one. -/
theorem transferLoop_failed (within : sent < buflen) (positive : 0 < sent) (bound : buflen < 2 ^ 64) :
    transferLoop move buflen (.failed :: results) sent s = transferLoop move buflen results (sent - 1) s := by
  have back : (sent + (2 ^ 64 - 1)) % 2 ^ 64 = sent - 1 := by omega
  rw [transferLoop, if_pos within]
  dsimp only [IoResult.curSent]
  rw [if_neg (by decide), back]

/-- At the start a -1 takes the offset to the last `size_t`. -/
theorem transferLoop_failed_first (within : 0 < buflen) :
    transferLoop move buflen (.failed :: results) 0 s = transferLoop move buflen results (2 ^ 64 - 1) s := by
  rw [transferLoop, if_pos within]
  dsimp only [IoResult.curSent]
  rw [if_neg (by decide)]
  rfl

/-- After a -1 in the middle the loop returns 1 only where a later result ends it. -/
theorem transferLoop_behind (move : Nat → Nat → σ → σ) (results : List IoResult) (s : σ) (bound : buflen < 2 ^ 64)
    (within : sent ≤ buflen) :
    (∃ s', transferLoop move buflen results sent s = some (1, s')) ↔ Survives buflen true sent results := by
  induction results generalizing sent s with
  | nil =>
    rw [transferLoop, Survives]
    by_cases waits : sent < buflen
    · simp [waits]
    · have same : sent = buflen := by omega
      simp [same]
  | cons result results ih =>
    by_cases waits : sent < buflen
    · cases result with
      | moved bytes =>
        have fits : fragment bytes (buflen - sent) ≤ buflen - sent := fragment_le (by omega)
        rw [Survives, if_pos waits, transferLoop_moved bytes waits bound]
        exact ih _ (by omega)
      | closed =>
        rw [transferLoop_closed waits]
        exact iff_of_true ⟨s, rfl⟩ (.inl waits)
      | failed =>
        rw [Survives, if_pos waits]
        by_cases first : sent = 0
        · subst first
          rw [if_pos rfl, transferLoop_failed_first waits]
          by_cases last : buflen = 2 ^ 64 - 1
          · subst last
            simp [transferLoop_done]
          · have beyond : buflen < 2 ^ 64 - 1 := by omega
            rw [transferLoop_beyond results s beyond]
            exact iff_of_true ⟨s, rfl⟩ last
        · have positive : 0 < sent := by omega
          rw [if_neg first, transferLoop_failed waits positive bound]
          exact ih _ (by omega)
    · have same : sent = buflen := by omega
      subst same
      rw [transferLoop_done]
      cases result <;> simp [Survives]

/-- Where `good` says what the loop has done when it stands at an offset, the
loop ends well exactly where it survives its results. -/
theorem transferLoop_exact_iff (results : List IoResult) (good : Nat → σ → Prop) (bound : buflen < 2 ^ 64)
    (moves : ∀ sent curSent s, good sent s → sent + curSent ≤ buflen → good (sent + curSent) (move sent curSent s))
    (within : sent ≤ buflen) (here : good sent s) :
    ((∀ s', transferLoop move buflen results sent s = some (0, s') → good buflen s') ∧
      (Interrupted buflen sent results → ∃ s', transferLoop move buflen results sent s = some (1, s'))) ↔
      Survives buflen false sent results := by
  induction results generalizing sent s with
  | nil =>
    refine iff_of_true ⟨fun s' ran => ?_, fun interrupted => interrupted.elim⟩ rfl
    rw [transferLoop] at ran
    split at ran
    · cases ran
    · have same : sent = buflen := by omega
      rw [if_pos same] at ran
      cases ran
      rw [← same]
      exact here
  | cons result results ih =>
    by_cases waits : sent < buflen
    · cases result with
      | moved bytes =>
        have fits : fragment bytes (buflen - sent) ≤ buflen - sent := fragment_le (by omega)
        have later := ih (by omega) (moves sent (fragment bytes (buflen - sent)) s here (by omega))
        rw [Survives, if_pos waits, transferLoop_moved bytes waits bound, Interrupted]
        simpa only [waits, true_and] using later
      | closed =>
        rw [transferLoop_closed waits]
        refine iff_of_true ⟨fun s' ran => ?_, fun _ => ⟨s, rfl⟩⟩ (.inl waits)
        cases ran
      | failed =>
        have interrupted : Interrupted buflen sent (.failed :: results) := waits
        -- the loop was interrupted, so it has to return 1
        have returns : ((∀ s', transferLoop move buflen (.failed :: results) sent s = some (0, s') → good buflen s') ∧
            (Interrupted buflen sent (.failed :: results) →
              ∃ s', transferLoop move buflen (.failed :: results) sent s = some (1, s'))) ↔
            ∃ s', transferLoop move buflen (.failed :: results) sent s = some (1, s') := by
          refine ⟨fun ends => ends.2 interrupted, fun ends => ⟨fun s' ran => ?_, fun _ => ends⟩⟩
          obtain ⟨other, again⟩ := ends
          rw [again] at ran
          cases ran
        have behind := transferLoop_behind move (.failed :: results) s bound within
        rw [Survives, if_pos waits] at behind
        rw [returns, Survives, if_pos waits]
        exact behind
    · have same : sent = buflen := by omega
      subst same
      have complete : Survives sent false sent (result :: results) := by cases result <;> simp [Survives]
      refine iff_of_true ⟨fun s' ran => ?_, fun interrupted => ?_⟩ complete
      · rw [transferLoop_done] at ran
        cases ran
        exact here
      · cases result with
        | moved bytes => exact absurd interrupted.1 waits
        | closed => exact absurd interrupted waits
        | failed => exact absurd interrupted waits

end Loop

/-- A `send` that moves what the sizes allow, up to the bytes left. -/
theorem fragment_eq {size remaining : Nat} (moves : min size remaining ≠ 0) :
    fragment size remaining = min size remaining := by
  unfold fragment
  omega

/-- A send of fragments that are given by their sizes goes on from the byte it stands at. -/
theorem tcpSendLoop_offset {sizes : Nat → Nat} {whole sent : List UInt8} (bound : whole.length < 2 ^ 64)
    {fuel call call' offset : Nat} (within : offset ≤ whole.length)
    (ran : tcpSendLoop sizes fuel call (whole.drop offset) = some (sent, call')) (stream : List UInt8) :
    ∃ results, (∀ result ∈ results, ∃ bytes, result = .moved bytes) ∧
      transferLoop (fun sent curSent stream => stream ++ (whole.drop sent).take curSent) whole.length results offset
        stream = some (0, stream ++ sent) := by
  have complete {offset : Nat} (stream : List UInt8) (within : offset ≤ whole.length) (rest : whole.drop offset = []) :
      transferLoop (fun sent curSent stream => stream ++ (whole.drop sent).take curSent) whole.length [] offset stream =
        some (0, stream ++ []) := by
    have length := List.drop_eq_nil_iff.mp rest
    have done : offset = whole.length := by omega
    rw [done, transferLoop_done, List.append_nil]
  induction fuel generalizing call offset sent stream with
  | zero =>
    cases rest : whole.drop offset with
    | nil =>
      rw [rest, tcpSendLoop] at ran
      cases ran
      exact ⟨[], by simp, complete stream within rest⟩
    | cons c buf =>
      rw [rest, tcpSendLoop] at ran
      cases ran
  | succ fuel ih =>
    cases rest : whole.drop offset with
    | nil =>
      rw [rest, tcpSendLoop] at ran
      cases ran
      exact ⟨[], by simp, complete stream within rest⟩
    | cons c buf =>
      have left : buf.length + 1 = whole.length - offset := by
        have length := congrArg List.length rest
        rw [List.length_drop, List.length_cons] at length
        omega
      rw [rest, tcpSendLoop] at ran
      split at ran
      · cases ran
      · next moves =>
        rw [left] at ran moves
        rw [← rest, List.drop_drop] at ran
        split at ran
        · cases ran
        · next later call'' run =>
          cases ran
          have fits : min (sizes call) (whole.length - offset) ≤ whole.length - offset := Nat.min_le_right _ _
          obtain ⟨results, each, goes⟩ := ih (by omega) run
            (stream ++ (whole.drop offset).take (min (sizes call) (whole.length - offset)))
          refine ⟨.moved (sizes call) :: results, ?_, ?_⟩
          · intro result member
            obtain rfl | old := List.mem_cons.mp member
            · exact ⟨_, rfl⟩
            · exact each result old
          · rw [transferLoop_moved _ (by omega) bound, fragment_eq moves, goes, List.append_assoc]

/-- The loop with fragments of given sizes is one run of the loop over results. -/
theorem tcpSendLoop_results {sizes : Nat → Nat} {buf sent : List UInt8} {fuel call call' : Nat}
    (bound : buf.length < 2 ^ 64) (ran : tcpSendLoop sizes fuel call buf = some (sent, call')) :
    ∃ results, (∀ result ∈ results, ∃ bytes, result = .moved bytes) ∧ tcpSendResults buf results = some (0, sent) := by
  have from_start : tcpSendLoop sizes fuel call (buf.drop 0) = some (sent, call') := ran
  obtain ⟨results, each, goes⟩ := tcpSendLoop_offset bound (Nat.zero_le _) from_start []
  exact ⟨results, each, goes⟩

/-- What a receive has done when it stands at an offset. -/
def Received (stream : Nat → UInt8) (buf : List UInt8) (received : Nat) (s : List UInt8 × Nat) : Prop :=
  s.1 = (List.range received).map stream ++ buf.drop received ∧ s.2 = received

theorem Received.move {stream : Nat → UInt8} {buf : List UInt8} {received : Nat} {s : List UInt8 × Nat} (curSent : Nat)
    (so_far : Received stream buf received s) :
    Received stream buf (received + curSent) (s.1.take received ++ (List.range' s.2 curSent).map stream ++
      s.1.drop (received + curSent), s.2 + curSent) := by
  obtain ⟨filled, taken⟩ := so_far
  have length : ((List.range received).map stream).length = received := by simp
  have front : s.1.take received = (List.range received).map stream := by
    rw [filled]
    exact List.take_left' length
  have behind : s.1.drop (received + curSent) = buf.drop (received + curSent) := by
    rw [filled, ← List.drop_drop, List.drop_left' length, List.drop_drop]
  have joined : List.range (received + curSent) = List.range received ++ List.range' received curSent := by
    rw [List.range_eq_range', List.range_eq_range', ← List.range'_append_1, Nat.zero_add]
  refine ⟨?_, by rw [taken]⟩
  rw [front, behind, taken, joined, List.map_append]

/-- The transfer loops move exactly the bytes they are asked for, and return 1
when they are interrupted, exactly for the results that they survive. -/
theorem transferLoops_exact_iff {buf : List UInt8} (bound : buf.length < 2 ^ 64) (results : List IoResult) :
    (SendsExactly buf results ↔ Survives buf.length false 0 results) ∧
      ∀ stream, ReceivesExactly stream buf results ↔ Survives buf.length false 0 results := by
  constructor
  · have sent (sent curSent : Nat) (stream : List UInt8) (same : stream = buf.take sent)
        (_ : sent + curSent ≤ buf.length) :
        stream ++ (buf.drop sent).take curSent = buf.take (sent + curSent) := by
      rw [same, List.take_add]
    have ends := transferLoop_exact_iff results (fun sent stream => stream = buf.take sent) bound sent (Nat.zero_le _)
      rfl
    rw [List.take_length] at ends
    exact ends
  · intro stream
    have ends := transferLoop_exact_iff results (Received stream buf) bound
      (fun received curSent s so_far _ => so_far.move curSent) (Nat.zero_le _) (s := (buf, 0)) ⟨by simp, rfl⟩
    rw [← ends]
    unfold ReceivesExactly Received
    rw [List.drop_length, List.append_nil]
    exact and_congr_left' ⟨fun exactly s' => exactly s'.1 s'.2, fun exactly buf' taken => exactly (buf', taken)⟩

/-- Two bytes sent one at a time. -/
theorem transferLoops_exact_iff_split : SendsExactly [1, 2] [.moved 1, .moved 1] ↔
    Survives ([1, 2] : List UInt8).length false 0 [.moved 1, .moved 1] :=
  (transferLoops_exact_iff (show ([1, 2] : List UInt8).length < 2 ^ 64 by decide) _).1

/-- A timeout after the first byte: that byte is sent twice, and a receive
takes a byte too much off the stream. -/
theorem transferLoops_timeout :
    tcpSendResults [1, 2] [.moved 1, .failed, .moved 1, .moved 1] = some (0, [1, 1, 2]) ∧
      ¬ SendsExactly [1, 2] [.moved 1, .failed, .moved 1, .moved 1] ∧
      ¬ ReceivesExactly UInt8.ofNat [0, 0] [.moved 1, .failed, .moved 1, .moved 1] := by
  refine ⟨rfl, fun exactly => ?_, fun exactly => ?_⟩
  · exact absurd (exactly.1 [1, 1, 2] rfl) (by decide)
  · exact absurd (exactly.1 [1, 2] 3 rfl).2 (by decide)

end DynamicRPC
