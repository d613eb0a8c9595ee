import DynamicRPC.CallClient
import DynamicRPC.ProxyCall

namespace DynamicRPC
open Outcome

/-- What `drpc_client_call_internal` returns: by `client_stop`, then by the type of the
message it received, `none` where it could not send or receive. -/
def drpcClientCallRet (clientStop : Int) (received : Option DrpcProtocol) : DrpcClientErrors :=
  if clientStop ≠ 0 then .clientstopped
  else
    match received with
    | none => .enetwork
    | some type => if type ≠ .return then .badreply else .ok

/-- A destination that stays reachable and answers every call: the type of its reply to each
attempt, with what the attempt finds in `client_stop` and the state of the connection when the
fail handler returns. The handler returns 0 exactly when the client is connected. -/
structure Destination where
  clientStop : Nat → Int
  reply : Nat → DrpcProtocol
  connected : Nat → Bool
  failHandler : Nat → Int
  handled : ∀ i, failHandler i = 0 ↔ connected i = true

/-- A proxy function in front of a destination. -/
def ProxyFunction.inFrontOf (proxy : ProxyFunction) (destination : Destination) : ProxyFunction :=
  { proxy with
    attempt := fun i =>
      { proxy.attempt i with ret := drpcClientCallRet (destination.clientStop i) (some (destination.reply i)) }
    failHandler := some destination.failHandler }

/-- The destination carries out the call of an attempt, or the client is not connected after it. -/
def Destination.Settles (destination : Destination) (i : Nat) : Prop :=
  (destination.clientStop i = 0 ∧ destination.reply i = .return) ∨ destination.connected i = false

/-- A reply that is not `drpc_return` is an error of the call, as a lost connection is. -/
theorem drpcClientCallFinish_ret {contents : Contents} {memory : Memory Element} {repackable : List DrpcTypeUpdate}
    {recv : MemoryMessage} {finish : ClientFinish} (ran : drpcClientCallFinish contents memory repackable recv = .ok finish) :
    finish.ret = drpcClientCallRet 0 (some recv.messageType) := by
  have connected : ¬ (0 : Int) ≠ 0 := by omega
  rw [drpcClientCallRet, if_neg connected]
  unfold drpcClientCallFinish at ran
  split at ran
  · next rejected =>
    rw [if_pos rejected]
    split at ran
    · cases ran
      rfl
    · obtain ⟨_, -, same⟩ := bind_eq_ok.mp ran
      cases same
      rfl
  · next returned =>
    rw [if_neg returned]
    split at ran
    · cases ran
    · obtain ⟨_, -, ran⟩ := bind_eq_ok.mp ran
      obtain ⟨_, -, ran⟩ := bind_eq_ok.mp ran
      obtain ⟨_, -, ran⟩ := bind_eq_ok.mp ran
      obtain ⟨_, -, ran⟩ := bind_eq_ok.mp ran
      obtain ⟨_, -, same⟩ := bind_eq_ok.mp ran
      cases same
      rfl

theorem drpcClientCallRet_eq_ok {clientStop : Int} {type : DrpcProtocol} :
    drpcClientCallRet clientStop (some type) = .ok ↔ clientStop = 0 ∧ type = .return := by
  unfold drpcClientCallRet
  by_cases stopped : clientStop = 0
  · by_cases returned : type = .return
    · simp [stopped, returned]
    · simp [stopped, returned]
  · simp [stopped]

namespace ProxyFunction
variable {proxy : ProxyFunction} {i : Nat} {memory : Memory Element} {genericRet : Nat}

/-- The attempt that is not retried ends the loop. -/
theorem drpcProxyImpl_stops (stops : ¬ proxy.Retries i) (fuel : Nat) :
    Returns (proxy.drpcProxyImpl (fuel + 1) i memory genericRet) := by
  rw [drpcProxyImpl_succ]
  split
  · next fails =>
    split
    · next handler installed =>
      have disconnects : handler i ≠ 0 := fun again => stops ⟨fails, handler, installed, again⟩
      rw [if_neg disconnects]
      exact ⟨_, rfl⟩
    · exact ⟨_, rfl⟩
  · exact ⟨_, rfl⟩

theorem drpcProxyImpl_returns {last : Nat} (distance : Nat) (reached : i + distance = last) (stops : ¬ proxy.Retries last) :
    ∃ fuel, Returns (proxy.drpcProxyImpl fuel i memory genericRet) := by
  induction distance generalizing i memory genericRet with
  | zero =>
    have here : i = last := by omega
    rw [← here] at stops
    exact ⟨1, drpcProxyImpl_stops stops 0⟩
  | succ distance ih =>
    by_cases retries : proxy.Retries i
    · obtain ⟨fuel, returns⟩ := ih (i := i + 1) (by omega)
      refine ⟨fuel + 1, ?_⟩
      rw [drpcProxyImpl_retries retries]
      exact returns
    · exact ⟨1, drpcProxyImpl_stops retries 0⟩

/-- The loop ends if and only if some attempt is not retried. -/
theorem drpcProxyImpl_returns_iff :
    (∃ fuel, Returns (proxy.drpcProxyImpl fuel 0 memory genericRet)) ↔ ∃ i, ¬ proxy.Retries i := by
  constructor
  · rintro ⟨fuel, body, ran⟩
    obtain ⟨last, -, -, stops, -⟩ := drpcProxyImpl_inv ran
    exact ⟨last, stops⟩
  · rintro ⟨last, stops⟩
    exact drpcProxyImpl_returns last (by omega) stops

theorem retries_inFrontOf {destination : Destination} :
    (proxy.inFrontOf destination).Retries i ↔ ¬ destination.Settles i := by
  have answered : ((proxy.inFrontOf destination).attempt i).ret =
    drpcClientCallRet (destination.clientStop i) (some (destination.reply i)) := rfl
  have again : (∃ handler, (proxy.inFrontOf destination).failHandler = some handler ∧ handler i = 0) ↔
      destination.connected i = true := by
    rw [← destination.handled i]
    constructor
    · rintro ⟨handler, installed, zero⟩
      rw [← Option.some.inj installed] at zero
      exact zero
    · intro zero
      exact ⟨_, rfl, zero⟩
  rw [Retries, answered, again, Ne, drpcClientCallRet_eq_ok, Destination.Settles, not_or, Bool.not_eq_false]

end ProxyFunction

/-- A proxied call ends if and only if the destination carries out one of its attempts or the
client is not connected after one: a rejection is retried as a lost connection is. -/
theorem proxiedCall_ends_iff (proxy : ProxyFunction) (destination : Destination) (memory : Memory Element) (genericRet : Nat) :
    (∃ fuel, Returns ((proxy.inFrontOf destination).drpcProxyImpl fuel 0 memory genericRet)) ↔
      ∃ i, destination.Settles i := by
  rw [ProxyFunction.drpcProxyImpl_returns_iff]
  refine exists_congr fun i => ?_
  rw [ProxyFunction.retries_inFrontOf, not_not]

/-- A destination without the function, over a connection that holds. -/
def Destination.refusing : Destination where
  clientStop := fun _ => 0
  reply := fun _ => .notfound
  connected := fun _ => true
  failHandler := fun _ => 0
  handled := by simp

/-- Every attempt is answered by `drpc_notfound`, the handler finds the client connected, and the call never ends. -/
theorem refusedCall_never_ends : ¬ ∃ fuel,
    Returns (((steadyProxy .ok).inFrontOf .refusing).drpcProxyImpl fuel 0 .empty 0) := by
  rintro ends
  obtain ⟨i, settled⟩ := (proxiedCall_ends_iff (steadyProxy .ok) .refusing .empty 0).mp ends
  obtain ⟨-, returned⟩ | lost := settled
  · cases returned
  · cases lost

end DynamicRPC
