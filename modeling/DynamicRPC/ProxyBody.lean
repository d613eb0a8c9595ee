import DynamicRPC.ClientAssertions
import DynamicRPC.ProxyCall

/-! The body of a proxy function: a call on the destination with the arguments of the caller,
and which replies of the destination its assertions hold for. -/

namespace DynamicRPC
open Outcome Runs

/-- The client of a destination, by the number of the attempt: `client_stop`, and what comes of
sending a message and waiting for its reply. Nothing comes back where the network fails, and a
frame that `drpc_recv_message` does not survive is a fault. -/
structure ProxyClient where
  clientStop : Nat → Int
  exchange : Nat → Memory Element → MemoryMessage → Outcome (Option (Memory Element × MemoryMessage))

/-- `drpc_client_call_internal`, as the attempt `i` of a proxy function. -/
def drpcClientCallInternal (client : ProxyClient) (i : Nat) (fromDouble : Nat → Nat) (contents : Contents)
    (memory : Memory Element) (fnName : CString) (prototype : List DrpcTypes) (varargs : List Nat) :
    Outcome ClientFinish :=
  if client.clientStop i ≠ 0 then pure ⟨.clientstopped, memory, none⟩
  else do
    let call ← drpcClientCallMessage fromDouble memory fnName prototype varargs
    let answer ← client.exchange i call.memory ⟨.call, some call.message⟩
    match answer with
    | none => pure ⟨.enetwork, call.memory, none⟩
    | some (memory, recv) => drpcClientCallFinish contents memory call.repackable recv

/-- What `va_arg` finds in a slot. Those of the server are named parameters. -/
def FfiSlot.word : FfiSlot → Outcome Nat
  | .pointer address => pure address
  | .length len => pure len
  | .scalar _ bytes => pure (LittleEndian.decode bytes)
  | .server _ | .record _ => .error .outside

/-- What a scalar leaves of `generic_ret`: its bytes are the low ones. -/
def storeScalar (genericRet : Nat) (bytes : List UInt8) : Nat :=
  LittleEndian.decode (bytes ++ (LittleEndian.encode 8 genericRet).drop bytes.length)

/-- `generic_ret` after `*native_return`. An element that is not packed goes on as an object of
its own; a record of another type goes with the reply. The length of a buffer has no place to go. -/
def storeNative (memory : Memory Element) (genericRet : Nat) : Option Field → Outcome (Memory Element × Nat)
  | none => pure (memory, genericRet)
  | some (.pointer _ address) => pure (memory, address)
  | some (.arguments _) => .error .outside
  | some (.element (.sizedbuf _)) => .error .outside
  | some (.element (.packed type data)) =>
    match charWidth type with
    | some width => do
      let bytes ← drpcDeconvert data width
      pure (memory, storeScalar genericRet bytes)
    | none => do
      let (address, memory) := memory.alloc (.packed type data)
      let memory ← memory.free address
      pure (memory, address)
  | some (.element object) =>
    let (address, memory) := memory.alloc object
    pure (memory, address)

/-- A function that is called on a destination. -/
structure ProxiedFunction where
  fnName : CString
  prototype : List DrpcTypes
  returnType : DrpcTypes
  minimalPermissionLevel : Int
  client : ProxyClient
  fromDouble : Nat → Nat
  contents : Contents
  failHandler : Option (Nat → Int)

namespace ProxiedFunction
variable (proxy : ProxiedFunction)

/-- The prototype that the destination is called with. -/
def clientPrototype : List DrpcTypes := (proxyPrototype proxy.prototype).drop 3

/-- One round of the loop of `drpc_proxy_impl`. -/
def attempt (varargs : List Nat) : Attempting := fun i memory genericRet => do
  let finish ← drpcClientCallInternal proxy.client i proxy.fromDouble proxy.contents memory proxy.fnName
    proxy.clientPrototype varargs
  let (memory, genericRet) ← storeNative finish.memory genericRet finish.nativeReturn
  pure (finish.ret, memory, genericRet)

/-- `drpc_proxy_impl` on the slots of a call. -/
def drpcProxyImpl (fuel : Nat) (slots : List FfiSlot) (memory : Memory Element) : Outcome ProxyReturn := do
  let varargs ← (slots.drop 3).mapM FfiSlot.word
  drpcProxyRetry (proxy.attempt varargs) proxy.failHandler fuel 0 memory 0

/-- The body that `ffi_call` enters. -/
def fn (fuel : Nat) (slots : List FfiSlot) (memory : Memory Element) : Outcome (Memory Element × Nat) := do
  let body ← proxy.drpcProxyImpl fuel slots memory
  pure (body.memory, body.genericRet)

/-- The record of the function once it is registered. -/
def fnInfo (fuel : Nat) : DrpcFunction where
  prototype := some (proxyPrototype proxy.prototype)
  returnType := proxy.returnType
  minimalPermissionLevel := proxy.minimalPermissionLevel
  fn := proxy.fn fuel

end ProxiedFunction

section Retry
variable {attempt other : Attempting} {failHandler : Option (Nat → Int)} {fuel i : Nat} {memory : Memory Element}
  {genericRet : Nat}

/-- The fail handler asks for another attempt. -/
def asksAgain (failHandler : Option (Nat → Int)) (i : Nat) : Prop := ∃ handler, failHandler = some handler ∧ handler i = 0

/-- A condition on every attempt that the loop comes to. -/
def AlongAttempts (attempt : Attempting) (failHandler : Option (Nat → Int)) (safe : Nat → Memory Element → Prop) :
    Nat → Nat → Memory Element → Nat → Prop
  | 0, _, _, _ => True
  | fuel + 1, i, memory, genericRet => safe i memory ∧ ∀ ret memory' genericRet',
      attempt i memory genericRet = .ok (ret, memory', genericRet') → ret ≠ .ok → asksAgain failHandler i →
      AlongAttempts attempt failHandler safe fuel (i + 1) memory' genericRet'

/-- A failed attempt after which the fail handler asks for another one. -/
theorem drpcProxyRetry_again {ret : DrpcClientErrors} {memory' : Memory Element} {genericRet' : Nat}
    (made : attempt i memory genericRet = .ok (ret, memory', genericRet')) (failed : ret ≠ .ok)
    (again : asksAgain failHandler i) : drpcProxyRetry attempt failHandler (fuel + 1) i memory genericRet =
      drpcProxyRetry attempt failHandler fuel (i + 1) memory' genericRet' := by
  obtain ⟨handler, rfl, zero⟩ := again
  rw [drpcProxyRetry, made, ok_bind]
  dsimp only
  rw [if_pos failed, if_pos zero]

/-- After any other attempt the loop ends. -/
theorem drpcProxyRetry_last {ret : DrpcClientErrors} {memory' : Memory Element} {genericRet' : Nat}
    (made : attempt i memory genericRet = .ok (ret, memory', genericRet'))
    (last : ret ≠ .ok → ¬ asksAgain failHandler i) : drpcProxyRetry attempt failHandler (fuel + 1) i memory genericRet =
      .ok ⟨memory', genericRet', decide (ret ≠ .ok) && failHandler.isSome, i + 1⟩ := by
  rw [drpcProxyRetry, made, ok_bind]
  dsimp only
  by_cases failed : ret ≠ .ok
  · rw [if_pos failed, decide_eq_true failed]
    cases failHandler with
    | none => rfl
    | some handler =>
      dsimp only
      rw [if_neg fun zero => last failed ⟨handler, rfl, zero⟩]
      rfl
  · rw [if_neg failed, decide_eq_false failed]
    rfl

/-- The loop from an attempt on does not depend on those before it. -/
theorem drpcProxyRetry_congr (same : ∀ j, i ≤ j → attempt j = other j) :
    drpcProxyRetry attempt failHandler fuel i memory genericRet =
      drpcProxyRetry other failHandler fuel i memory genericRet := by
  induction fuel generalizing i memory genericRet with
  | zero => rfl
  | succ fuel ih =>
    rw [drpcProxyRetry, drpcProxyRetry, same i (Nat.le_refl i)]
    refine bind_congr fun made => ?_
    simp only [ih fun j (later : i + 1 ≤ j) => same j (by omega)]

/-- A loop that ends is one on what its attempts came to. The induction is on the attempts that are left. -/
theorem drpcProxyRetry_made {body : ProxyReturn}
    (ran : drpcProxyRetry attempt failHandler fuel i memory genericRet = .ok body) :
    ∃ made, drpcProxyRetry (madeAttempts made) failHandler fuel i memory genericRet = .ok body := by
  induction fuel generalizing i memory genericRet with
  | zero => cases ran
  | succ fuel ih =>
    obtain ⟨⟨ret, memory', genericRet'⟩, here, -⟩ := bind_eq_ok.mp ran
    -- The attempt as it came out, before any others.
    have recorded (others : Nat → ProxyAttempt) :
        madeAttempts (Function.update others i ⟨ret, fun _ => memory', fun _ => genericRet'⟩) i memory genericRet =
          .ok (ret, memory', genericRet') := by
      simp only [madeAttempts, Function.update_self]
    by_cases again : ret ≠ .ok ∧ asksAgain failHandler i
    · rw [drpcProxyRetry_again here again.1 again.2] at ran
      obtain ⟨made, rest⟩ := ih ran
      refine ⟨_, (drpcProxyRetry_again (recorded made) again.1 again.2).trans ?_⟩
      rw [← rest]
      refine drpcProxyRetry_congr fun j later => ?_
      funext memory genericRet
      simp only [madeAttempts, Function.update_of_ne (show j ≠ i by omega)]
    · rw [drpcProxyRetry_last here fun failed asks => again ⟨failed, asks⟩] at ran
      refine ⟨_, (drpcProxyRetry_last (recorded fun _ => ⟨ret, id, id⟩) fun failed asks => again ⟨failed, asks⟩).trans ran⟩

end Retry

section Assertions
variable {proxy : ProxiedFunction} {varargs : List Nat} {i fuel : Nat} {memory : Memory Element} {genericRet : Nat}

/-- What the destination answers to an attempt, if it does, is a frame that the client survives
with a reply that fits. -/
def ProxiedFunction.AnswerFits (proxy : ProxiedFunction) (varargs : List Nat) (i : Nat) (memory : Memory Element) : Prop :=
  proxy.client.clientStop i = 0 → ∀ call,
    drpcClientCallMessage proxy.fromDouble memory proxy.fnName proxy.clientPrototype varargs = .ok call →
    Avoids .assertion (proxy.client.exchange i call.memory ⟨.call, some call.message⟩) ∧ ∀ memory' recv,
      proxy.client.exchange i call.memory ⟨.call, some call.message⟩ = .ok (some (memory', recv)) →
      recv.Fits proxy.contents memory' call.repackable

end Assertions

/-- Setters and decoders put no null pointer into a container. -/
def Argument.NonNull : Argument → Prop
  | .packed _ _ _ => True
  | .pointer _ address _ _ => address ≠ 0

def DArray.NonNull (arguments : DArray Argument) : Prop :=
  ∀ i argument, arguments.lookup i = some argument → argument.NonNull

section Words
variable {arguments : DArray Argument}

end Words

namespace ProxiedFunction
variable {proxy : ProxiedFunction} {arguments : DArray Argument} {slots : List FfiSlot}
  {toRepack : List DrpcTypeUpdate} {fuel : Nat} {memory : Memory Element}

/-- Every attempt that the body makes for a call gets a reply that fits. -/
def AnswersFit (proxy : ProxiedFunction) (fuel : Nat) (slots : List FfiSlot) (memory : Memory Element) : Prop :=
  ∀ varargs, (slots.drop 3).mapM FfiSlot.word = .ok varargs →
    AlongAttempts (proxy.attempt varargs) proxy.failHandler (proxy.AnswerFits varargs) fuel 0 memory 0

/-- The function as its attempts came out in one call. -/
def made (proxy : ProxiedFunction) (made : Nat → ProxyAttempt) : ProxyFunction where
  prototype := some proxy.prototype
  returnType := proxy.returnType
  minimalPermissionLevel := proxy.minimalPermissionLevel
  attempt := made
  failHandler := proxy.failHandler

/-- A call that ends was executed on the destination, unless it was given up. -/
theorem drpcProxyImpl_executed {body : ProxyReturn} (ran : proxy.drpcProxyImpl fuel slots memory = .ok body) :
    ∃ made, (proxy.made made).drpcProxyImpl fuel 0 memory 0 = .ok body ∧
      ((∃ i < body.attempts, (made i).ret = .ok) ↔ ¬ (proxy.made made).GivesUp) := by
  obtain ⟨varargs, -, ran⟩ := bind_eq_ok.mp ran
  obtain ⟨made, same⟩ := drpcProxyRetry_made ran
  have whole : (proxy.made made).drpcProxyImpl fuel 0 memory 0 = .ok body := same
  exact ⟨made, whole, ProxyFunction.executed_iff whole⟩

end ProxiedFunction
end DynamicRPC
