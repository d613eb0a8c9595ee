import DynamicRPC.MailboxAssertions
import DynamicRPC.ProxyBody
import DynamicRPC.ServerRuns

namespace DynamicRPC
open Outcome Runs

/-- The walk over the arguments does not come to an index without one. -/
def DArray.NoGap (arguments : DArray Argument) : Prop :=
  ∀ i < dArrayLen arguments, (∀ j < i, ReadableArgument arguments j) → dArrayGetInternal arguments i ≠ .ok none

section Call
variable {arguments : DArray Argument}

end Call

section Repack
variable {fnInfo : DrpcFunction}

/-- Where the body returns one of the pointers that the repack loop comes to, that pointer has
the return type. -/
def ReturnsItsType (fnInfo : DrpcFunction) (arguments : DArray Argument) (toRepack : List DrpcTypeUpdate)
    (left : Memory Element) (returned : Nat) : Prop :=
  Along (repackArgument fnInfo returned) (fun _ entry => entry.1.ptr = returned → entry.1.type = fnInfo.returnType)
    ⟨arguments, newDArray toRepack.length, left, -1, []⟩ toRepack.zipIdx

end Repack

/-- The pointers that are queued for repacking are those of the arguments. -/
theorem Updates.nonNull {map : Nat → Option Argument} {slots : List (Nat × Nat)} {repackQue : List DrpcTypeUpdate}
    (updates : Updates map slots repackQue) (nonNull : ∀ i argument, map i = some argument → argument.NonNull) :
    ∀ repack ∈ repackQue, repack.ptr ≠ 0 := by
  induction updates with
  | nil => nofun
  | cons head _ ih =>
    obtain ⟨-, len, held, there⟩ := head
    exact List.forall_mem_cons.mpr ⟨nonNull _ _ there, ih⟩

/-- The payload of a call holds no null pointer among its arguments. -/
def Payload.NonNull (payload : Payload) : Prop := ∀ arguments, payload.Carries arguments → arguments.NonNull

/-- The body of a function: the user's fails no assertion, and that of a proxy function gets replies
that fit. -/
def BodyHarmless (fuel : Nat) (fnInfo : DrpcFunction) (slots : List FfiSlot) (memory : Memory Element) :
    Option ProxiedFunction → Prop
  | none => Avoids .assertion (fnInfo.fn slots memory)
  | some proxy => proxy.AnswersFit fuel slots memory

/-- A function can be called with the arguments: none is missing, and its body harms nothing
and returns no pointer argument of another type than its own. -/
structure Invocable (fuel : Nat) (body : Option ProxiedFunction) (fnInfo : DrpcFunction) (arguments : DArray Argument)
    (memory : Memory Element) : Prop where
  present : arguments.NoGap
  harmless : ∀ slots toRepack, ffiFromDrpc arguments (fnInfo.prototype.getD []) 0 0 = .ok (slots, toRepack) →
    BodyHarmless fuel fnInfo slots memory body
  returns : ∀ slots toRepack left returned,
    ffiFromDrpc arguments (fnInfo.prototype.getD []) 0 0 = .ok (slots, toRepack) →
    fnInfo.fn slots memory = .ok (left, returned) → ReturnsItsType fnInfo arguments toRepack left returned

section Prepared
variable {fuel : Nat} {body : Option ProxiedFunction} {fnInfo : DrpcFunction} {arguments : DArray Argument}
  {memory : Memory Element}

end Prepared

/-- The payload has no `fn_name` or no `arguments` of the right type. -/
def Payload.Lacking (payload : Payload) : Prop :=
  (∀ field, dStructGet payload (.ofString "fn_name") .dStr ≠ .ok (some field)) ∨
    ∀ field, dStructGet payload (.ofString "arguments") .dArray ≠ .ok (some field)

/-- The handler gets to one of its replies. -/
def Replies (server : CallServer) (clientPerm : Int) (memory : Memory Element) (payload : Payload) : Prop :=
  ∃ handled, drpcHandleCall server clientPerm memory (some payload) = .ok handled ∧
    (handled.reply.messageType = .bad ∨ handled.reply.messageType = .notfound ∨ handled.reply.messageType = .return ∨
      handled.reply.messageType = .eperm)

/-- A call that harms nothing: it has a payload whose name ends, where it asks for a reply
without a call, and when it names a function that the client may call it has arguments that the
function, if it takes them, can be called with. -/
def CallHarmless (server : CallServer) (bodies : Nat → Option ProxiedFunction) (fuel : Nat) (clientPerm : Int)
    (memory : Memory Element) (message : Option Payload) : Prop :=
  ∃ payload, message = some payload ∧ (payload.Lacking → Returns payload.request) ∧ ∀ fnName given record,
    payload.request = .ok (some (fnName, given)) → server.functions.lookup fnName = some record →
    permitted clientPerm (server.records record) →
    ∃ arguments, given = some arguments ∧
      (TypesMatch arguments (server.records record) →
        Invocable fuel (bodies record) (server.records record) arguments memory)

section Handle
variable {server : CallServer} {bodies : Nat → Option ProxiedFunction} {fuel : Nat} {clientPerm : Int}
  {memory : Memory Element} {payload : Payload}

/-- A call that lacks something is refused with a reply, if its name can be read. -/
theorem Payload.Lacking.replies (functionsOpen : server.functions.Open) (lacking : payload.Lacking)
    (reads : Returns payload.request)
    (armed : ∀ fnName record, payload.request = .ok (some (fnName, none)) → server.functions.lookup fnName = some record →
      ¬ permitted clientPerm (server.records record)) : Replies server clientPerm memory payload := by
  cases drpcAdmitCall_cases functionsOpen clientPerm payload with
  | unreadable asked admits =>
    obtain ⟨request, again⟩ := reads
    rw [asked] at again
    cases again
  | refused asked bars admits =>
    refine ⟨_, by rw [drpcHandleCall_eq, admits]; rfl, ?_⟩
    obtain rfl | rfl | rfl := drpcAdmitCall_refuse admits
    · exact .inr (.inl rfl)
    · exact .inr (.inr (.inr rfl))
    · exact .inl rfl
  | @calls fnName given record asked found allowed admits =>
    obtain ⟨⟨name, get, -⟩, array, carried, field⟩ := Payload.request_eq_some.mp asked
    have bare : array = none := by
      cases array with
      | none => rfl
      | some array =>
        obtain unnamed | missing := lacking
        · exact absurd get (unnamed name)
        · exact absurd carried (missing array)
    rw [bare] at field
    cases field
    exact absurd allowed (armed fnName record asked found)

end Handle

/-- Handling the event fails no assertion, and a `drpc_call` event that lacks
something ends in a reply. -/
def ServerState.Survives (registry : Registry) (s : ServerState) (clientPerm : Int) (ping : DrpcClient → DrpcClient)
    (sent : Bool) (event : ClientMessage) : Prop :=
  Avoids .assertion (s.executeEvent registry clientPerm ping sent event) ∧
    ∀ payload, event = .call (some payload) → payload.Lacking → Replies (s.server registry) clientPerm s.memory payload

/-- What the event has to be like: a call that harms nothing, messages that the destination
takes, and a fetch whose destination sends messages. -/
def ServerState.Harmless (registry : Registry) (s : ServerState) (bodies : Nat → Option ProxiedFunction) (fuel : Nat)
    (clientPerm : Int) (ping : DrpcClient → DrpcClient) : ClientMessage → Prop
  | .call message => CallHarmless (s.server registry) bodies fuel clientPerm s.memory message
  | .other .mailboxRecv _ message => s.mailboxes.DestinationTakes ping message
  | .other .mailboxSend _ message => s.mailboxes.DestinationSends ping message
  | .other _ _ _ => True

/-- The event holds no null pointer among its arguments. -/
def ClientMessage.NonNull : ClientMessage → Prop
  | .call message => ∀ payload, message = some payload → payload.NonNull
  | .other _ _ _ => True

end DynamicRPC
