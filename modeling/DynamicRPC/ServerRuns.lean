import DynamicRPC.CallVerdict
import DynamicRPC.Mailbox

namespace DynamicRPC
open Outcome

/-- `struct drpc_user`, as far as a connection is let in by it. -/
structure DrpcUser where
  perm : Int
  hash : Nat

/-- The names of the functions and the users of a server. -/
structure Registry where
  functions : Hashtable Nat
  users : Hashtable DrpcUser
  functionsOpen : functions.Open

/-- A message from a client: a call with its payload as the handler sees it in
memory, or one of another type. -/
inductive ClientMessage
  | call (message : Option Payload)
  | other (type : DrpcProtocol) (notCall : type ≠ .call) (message : Option (DStruct Element))

/-- `drpc_to_uint64` on the record of a number. -/
def Element.asUint64 : Element → Outcome Nat
  | .packed _ data => do
    let bytes ← drpcDeconvert data 8
    pure (LittleEndian.decode bytes)
  | _ => .error .outside

/-- `drpc_server_client_auth` on the first message: the permission level of
the user, or `none` where it replies `drpc_bad`. -/
def drpcServerClientAuth (users : Hashtable DrpcUser) (recv : ClientMessage) : Outcome (Option Int) :=
  match recv with
  | .other .auth _ (some message) => do
    let found ← dStructGet message (CString.ofString "username") .dStr
    match found with
    | none => pure none
    | some name => do
      let found ← dStructGet message (CString.ofString "passwd_hash") .dUint64
      match found with
      | none => pure none
      | some hash => do
        let passwdHash ← hash.asUint64
        let username ← name.asStr
        let user ← hashtableGet users username
        match user with
        | none => pure none
        | some user => if user.hash ≠ passwdHash then pure none else pure (some user.perm)
  | _ => pure none

/-- The two threads of `drpc_handle_client`: `reading` is the receive loop,
`exited` the end of the executor. -/
structure Handling where
  clientPerm : Int
  eventQueue : List ClientMessage
  stop : Bool
  alreadyDisconnected : Bool
  reading : Bool
  exited : Bool

def Handling.start (clientPerm : Int) : Handling where
  clientPerm := clientPerm
  eventQueue := []
  stop := false
  alreadyDisconnected := false
  reading := true
  exited := false

inductive Phase
  | auth
  | handling (h : Handling)
  | closed

/-- A connection with the level it was made with, for a dqueue client, and all it received. -/
structure Connection where
  dqueuePerm : Option Int
  received : List ClientMessage
  phase : Phase

/-- What came of a `drpc_call` event: a call of the body of a function, a reply
without a call, or the end of the process without either. -/
inductive CallOutcome
  | invoked (record : Nat) (fnInfo : DrpcFunction) (arguments : DArray Argument)
  | refused (reply : DrpcProtocol)
  | aborted

structure CallEntry where
  connection : Nat
  clientPerm : Int
  outcome : CallOutcome

/-- A running server, with the outcomes of its `drpc_call` events. -/
structure ServerState where
  records : Nat → DrpcFunction
  memory : Memory Element
  mailboxes : Mailboxes
  connections : List Connection
  log : List CallEntry
  crashed : Bool

/-- What happens next: a client connects, a message arrives, the receive loop
of a connection ends, or its executor goes on. `sent` says whether the reply
could be sent. -/
inductive ServerAction
  | connectTcp
  | connectDqueue (clientPerm : Int)
  | receive (connection : Nat) (message : ClientMessage) (sent : Bool)
  | hangUp (connection : Nat)
  | execute (connection : Nat) (ping : DrpcClient → DrpcClient) (sent : Bool)

def ClientMessage.disconnect : ClientMessage := .other .disconnect (by decide) none

/-- A message arrives in the receive loop of a connection, or as the first one of a TCP connection. -/
def Connection.receive (users : Hashtable DrpcUser) (conn : Connection) (message : ClientMessage) (sent : Bool) :
    Outcome Connection :=
  match conn.phase with
  | .auth => do
    let level ← drpcServerClientAuth users message
    let phase := match level with
      | some clientPerm => if sent then .handling (.start clientPerm) else .closed
      | none => .closed
    pure { conn with received := conn.received ++ [message], phase := phase }
  | .handling h =>
    if h.reading then
      pure { conn with
        received := conn.received ++ [message]
        phase := .handling { h with eventQueue := h.eventQueue ++ [message] } }
    else pure conn
  | .closed => pure conn

/-- The receive loop ends and leaves a disconnect event. -/
def Connection.hangUp (conn : Connection) : Connection :=
  match conn.phase with
  | .auth => { conn with phase := .closed }
  | .handling h =>
    let events := if h.reading && !h.alreadyDisconnected then [ClientMessage.disconnect] else []
    { conn with phase := .handling { h with eventQueue := h.eventQueue ++ events, reading := false } }
  | .closed => conn

namespace ServerState
variable (registry : Registry) (s : ServerState)

def server : CallServer := ⟨registry.functions, s.records⟩

/-- The outcome of a `drpc_call` event of a client. -/
def outcome (clientPerm : Int) (message : Option Payload) : CallOutcome :=
  match drpcAdmitCall (s.server registry) clientPerm message with
  | .ok (.invoke record arguments _ _) => .invoked record (s.records record) arguments
  | .ok (.refuse type _) => .refused type
  | .error _ => .aborted

/-- The `drpc_call` event: the server after it and `stop`. -/
def executeCall (clientPerm : Int) (message : Option Payload) : Outcome (ServerState × Bool) := do
  let handled ← drpcExecuteCall (s.server registry) clientPerm s.memory message
  pure ({ s with records := handled.records, memory := handled.memory }, handled.handleRet != 0)

/-- The switch of `drpc_client_executor` over the other events: the server and `stop`. -/
def executeOther (type : DrpcProtocol) (message : Option (DStruct Element)) (ping : DrpcClient → DrpcClient)
    (sent : Bool) : Outcome (ServerState × Bool) :=
  match type with
  | .ping => pure (s, !sent)
  | .servername => pure (s, !sent)
  | .mailboxRecv => do
    let handled ← drpcHandleMailboxRecv s.mailboxes ping message
    pure ({ s with mailboxes := handled.server }, false)
  | .mailboxSend => do
    let handled ← drpcHandleMailboxSend s.mailboxes ping message
    pure ({ s with mailboxes := handled.server }, false)
  | _ => pure (s, true)

/-- The executor handles the event it has popped. -/
def executeEvent (clientPerm : Int) (ping : DrpcClient → DrpcClient) (sent : Bool) :
    ClientMessage → Outcome (ServerState × Bool)
  | .call message => s.executeCall registry clientPerm message
  | .other type _ message => s.executeOther type message ping sent

/-- The log after an event: a `drpc_call` leaves one entry. -/
def logged (connection : Nat) (clientPerm : Int) : ClientMessage → List CallEntry
  | .call message => s.log ++ [⟨connection, clientPerm, s.outcome registry clientPerm message⟩]
  | .other _ _ _ => s.log

def crash (log : List CallEntry) : ServerState := { s with log := log, crashed := true }

/-- The executor of a connection goes on: it pops an event, or ends when it was
told to stop, or waits. A fault of the handler ends the process. -/
def execute (c : Nat) (conn : Connection) (h : Handling) (ping : DrpcClient → DrpcClient) (sent : Bool) : ServerState :=
  if h.exited then s
  else
    match h.eventQueue with
    | [] =>
      if h.stop then
        let phase := Phase.handling { h with exited := true, alreadyDisconnected := true }
        { s with connections := s.connections.set c { conn with phase := phase } }
      else s
    | event :: events =>
      let log := s.logged registry c h.clientPerm event
      match s.executeEvent registry h.clientPerm ping sent event with
      | .error _ => s.crash log
      | .ok (s', stop) =>
        let disconnected := match event with
          | .other .disconnect _ _ => true
          | _ => h.alreadyDisconnected
        let phase := Phase.handling
          { h with eventQueue := events, stop := h.stop || stop, alreadyDisconnected := disconnected }
        { s' with connections := s.connections.set c { conn with phase := phase }, log := log }

def step : ServerAction → ServerState
  | .connectTcp => if s.crashed then s else { s with connections := s.connections ++ [⟨none, [], .auth⟩] }
  | .connectDqueue clientPerm =>
    if s.crashed then s
    else { s with connections := s.connections ++ [⟨some clientPerm, [], .handling (.start clientPerm)⟩] }
  | .receive c message sent =>
    if s.crashed then s
    else
      match s.connections[c]? with
      | none => s
      | some conn =>
        match conn.receive registry.users message sent with
        | .error _ => s.crash s.log
        | .ok conn => { s with connections := s.connections.set c conn }
  | .hangUp c =>
    if s.crashed then s
    else
      match s.connections[c]? with
      | none => s
      | some conn => { s with connections := s.connections.set c conn.hangUp }
  | .execute c ping sent =>
    if s.crashed then s
    else
      match s.connections[c]? with
      | some ⟨dqueuePerm, received, .handling h⟩ => s.execute registry c ⟨dqueuePerm, received, .handling h⟩ h ping sent
      | _ => s

/-- The connection, level and message of the `drpc_call` event that an action executes. -/
def nextCall : ServerAction → Option (Nat × Int × Option Payload)
  | .execute c _ _ =>
    if s.crashed then none
    else
      match s.connections[c]? with
      | some ⟨_, _, .handling h⟩ =>
        if h.exited then none
        else
          match h.eventQueue with
          | .call message :: _ => some (c, h.clientPerm, message)
          | _ => none
      | _ => none
  | _ => none

/-- A server before the first client. -/
def start (records : Nat → DrpcFunction) (memory : Memory Element) (mailboxes : Mailboxes) : ServerState where
  records := records
  memory := memory
  mailboxes := mailboxes
  connections := []
  log := []
  crashed := false

end ServerState

/-- A server without functions, users and mailboxes. -/
def bareRegistry : Registry := ⟨hashtableCreate, hashtableCreate, hashtableCreate_open⟩

def bareServer : ServerState :=
  .start (fun _ => ⟨none, .dVoid, 0, fun _ memory => pure (memory, 0)⟩) .empty
    ⟨newDStruct, newDStruct, hashtableCreate, hashtableCreate, fun _ => ⟨1, fun _ => .sendFails⟩, none⟩

end DynamicRPC
