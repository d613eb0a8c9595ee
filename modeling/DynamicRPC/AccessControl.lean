import DynamicRPC.ServerRuns

namespace DynamicRPC
open Outcome Runs

/-- A message is a `drpc_auth` of a registered user with the hash of its
password, and the user has the level. -/
def AuthFor (users : Hashtable DrpcUser) (first : ClientMessage) (clientPerm : Int) : Prop :=
  ∃ notCall message name username hash user, first = .other .auth notCall (some message) ∧
    dStructGet message (.ofString "username") .dStr = .ok (some name) ∧ name.asStr = .ok username ∧
    dStructGet message (.ofString "passwd_hash") .dUint64 = .ok (some hash) ∧
    hashtableGet users username = .ok (some user) ∧ hash.asUint64 = .ok user.hash ∧ user.perm = clientPerm

/-- A connection has a level as a dqueue client or by its first message. -/
def Connection.Granted (users : Hashtable DrpcUser) (conn : Connection) (clientPerm : Int) : Prop :=
  conn.dqueuePerm = some clientPerm ∨
    conn.dqueuePerm = none ∧ ∃ first later, conn.received = first :: later ∧ AuthFor users first clientPerm

/-- A function record is the registered one, but for what its first call does to the prototype. -/
def Registered (registered now : DrpcFunction) : Prop :=
  now.fn = registered.fn ∧ now.returnType = registered.returnType ∧
    now.minimalPermissionLevel = registered.minimalPermissionLevel ∧
    (now.prototype = registered.prototype ∨ now.prototype = registered.prototype.map drpcProtoToFfi)

/-- The outcome of a call event is one that the access rules allow. -/
def CallEntry.Justified (registry : Registry) (records : Nat → DrpcFunction) (s : ServerState) (entry : CallEntry) : Prop :=
  match entry.outcome with
  | .invoked record fnInfo arguments =>
    (∃ fnName, registry.functions.lookup fnName = some record) ∧ Registered (records record) fnInfo ∧
      (∃ conn, s.connections[entry.connection]? = some conn ∧ conn.Granted registry.users entry.clientPerm) ∧
      permitted entry.clientPerm fnInfo ∧ TypesMatch arguments fnInfo
  | .refused reply => reply = .notfound ∨ reply = .eperm ∨ reply = .bad
  | .aborted => True

/-- A `drpc_call` event that an action executes is one that the handler can answer. -/
def ServerState.Answered (registry : Registry) (s : ServerState) (action : ServerAction) : Prop :=
  ∀ c clientPerm message, s.nextCall action = some (c, clientPerm, message) →
    Answerable (s.server registry) clientPerm message

/-- A connection that has come to `drpc_handle_client` was let in with its level. -/
def Connection.Sound (users : Hashtable DrpcUser) (conn : Connection) : Prop :=
  match conn.phase with
  | .auth => conn.dqueuePerm = none ∧ conn.received = []
  | .handling h => conn.Granted users h.clientPerm
  | .closed => True

/-- The history of a connection only grows. -/
def Connection.Extends (conn conn' : Connection) : Prop :=
  conn'.dqueuePerm = conn.dqueuePerm ∧ conn.received <+: conn'.received

section Connections
variable {users : Hashtable DrpcUser} {conn conn' : Connection} {clientPerm : Int}

theorem Connection.Granted.extends (granted : conn.Granted users clientPerm) (grows : conn.Extends conn') :
    conn'.Granted users clientPerm := by
  rcases granted with local_level | ⟨remote, first, later, received, auth⟩
  · exact Or.inl (grows.1.trans local_level)
  · obtain ⟨rest, whole⟩ := grows.2
    refine Or.inr ⟨grows.1.trans remote, first, later ++ rest, ?_, auth⟩
    rw [← whole, received, List.cons_append]

theorem drpcServerClientAuth_some {recv : ClientMessage}
    (ran : drpcServerClientAuth users recv = .ok (some clientPerm)) : AuthFor users recv clientPerm := by
  unfold drpcServerClientAuth at ran
  split at ran
  · next notCall message =>
    obtain ⟨name, getName, ran⟩ := bind_eq_ok.mp ran
    cases name with
    | none => cases ran
    | some name =>
      obtain ⟨hash, getHash, ran⟩ := bind_eq_ok.mp ran
      cases hash with
      | none => cases ran
      | some hash =>
        obtain ⟨passwdHash, number, ran⟩ := bind_eq_ok.mp ran
        obtain ⟨username, read, ran⟩ := bind_eq_ok.mp ran
        obtain ⟨user, found, ran⟩ := bind_eq_ok.mp ran
        cases user with
        | none => cases ran
        | some user =>
          dsimp only at ran
          split at ran
          · cases ran
          · next same =>
            cases ran
            rw [← not_not.mp same] at number
            exact ⟨notCall, message, name, username, hash, user, rfl, getName, read, getHash, found, number, rfl⟩
  · cases ran

theorem Connection.receive_sound {message : ClientMessage} {sent : Bool} (sound : conn.Sound users)
    (ran : conn.receive users message sent = .ok conn') : conn.Extends conn' ∧ conn'.Sound users := by
  obtain ⟨dqueuePerm, received, phase⟩ := conn
  cases phase with
  | auth =>
    obtain ⟨remote, empty⟩ := sound
    obtain ⟨level, auth, same⟩ := bind_eq_ok.mp ran
    cases same
    refine ⟨⟨rfl, List.prefix_append ..⟩, ?_⟩
    cases level with
    | none => trivial
    | some clientPerm =>
      cases sent with
      | false => trivial
      | true =>
        cases empty
        exact Or.inr ⟨remote, message, [], rfl, drpcServerClientAuth_some auth⟩
  | handling h =>
    simp only [Connection.receive] at ran
    split at ran
    · cases ran
      have grows : (⟨dqueuePerm, received, .handling h⟩ : Connection).Extends
          ⟨dqueuePerm, received ++ [message], .handling { h with eventQueue := h.eventQueue ++ [message] }⟩ :=
        ⟨rfl, List.prefix_append ..⟩
      exact ⟨grows, Connection.Granted.extends sound grows⟩
    · cases ran
      exact ⟨⟨rfl, List.prefix_rfl⟩, sound⟩
  | closed =>
    cases ran
    exact ⟨⟨rfl, List.prefix_rfl⟩, trivial⟩

theorem Connection.hangUp_sound (sound : conn.Sound users) : conn.Extends conn.hangUp ∧ conn.hangUp.Sound users := by
  obtain ⟨dqueuePerm, received, phase⟩ := conn
  cases phase with
  | auth => exact ⟨⟨rfl, List.prefix_rfl⟩, trivial⟩
  | handling h => exact ⟨⟨rfl, List.prefix_rfl⟩, Connection.Granted.extends sound ⟨rfl, List.prefix_rfl⟩⟩
  | closed => exact ⟨⟨rfl, List.prefix_rfl⟩, trivial⟩

end Connections

/-- What every step keeps: connections are sound, records are the registered
ones, and the log is justified. -/
structure ServerState.Controlled (registry : Registry) (records : Nat → DrpcFunction) (s : ServerState) : Prop where
  connections : ∀ (c : Nat) (conn : Connection), s.connections[c]? = some conn → conn.Sound registry.users
  registered : ∀ record, Registered (records record) (s.records record)
  justified : ∀ entry ∈ s.log, entry.Justified registry records s

namespace ServerState
variable {registry : Registry} {records : Nat → DrpcFunction} {s s' : ServerState}

/-- Entries stay justified while the connections only grow. -/
theorem justified_of_extends {entry : CallEntry} (justified : entry.Justified registry records s)
    (grows : ∀ (c : Nat) (conn : Connection), s.connections[c]? = some conn →
      ∃ conn', s'.connections[c]? = some conn' ∧ conn.Extends conn') :
    entry.Justified registry records s' := by
  unfold CallEntry.Justified at justified ⊢
  split
  · next outcome =>
    rw [outcome] at justified
    obtain ⟨named, registered, ⟨conn, at_c, granted⟩, rest⟩ := justified
    obtain ⟨conn', at_c', extends_conn⟩ := grows _ conn at_c
    exact ⟨named, registered, ⟨conn', at_c', granted.extends extends_conn⟩, rest⟩
  · next outcome =>
    rw [outcome] at justified
    exact justified
  · trivial

/-- Changing one connection and adding justified entries. -/
theorem Controlled.update (controlled : s.Controlled registry records) {c : Nat} {conn conn' : Connection}
    (at_c : s.connections[c]? = some conn) (grows : conn.Extends conn') (sound : conn'.Sound registry.users)
    (connections : s'.connections = s.connections.set c conn')
    (registered : ∀ record, Registered (records record) (s'.records record))
    (log : ∀ entry ∈ s'.log, entry ∈ s.log ∨ entry.Justified registry records s) :
    s'.Controlled registry records := by
  have bound : c < s.connections.length := (List.getElem?_eq_some_iff.mp at_c).choose
  have extended : ∀ (d : Nat) (old : Connection), s.connections[d]? = some old →
      ∃ new, s'.connections[d]? = some new ∧ old.Extends new := by
    intro d old at_d
    rw [connections, List.getElem?_set]
    by_cases same : c = d
    · subst same
      rw [at_c] at at_d
      cases at_d
      rw [if_pos rfl, if_pos bound]
      exact ⟨conn', rfl, grows⟩
    · rw [if_neg same]
      exact ⟨old, at_d, rfl, List.prefix_rfl⟩
  refine ⟨fun d new at_d => ?_, registered, fun entry member => ?_⟩
  · rw [connections, List.getElem?_set] at at_d
    split at at_d
    · cases at_d
      exact sound
    · exact controlled.connections d new at_d
  · refine justified_of_extends ?_ extended
    rcases log entry member with old | new
    · exact controlled.justified entry old
    · exact new

/-- A state that differs in what no rule speaks of. -/
theorem Controlled.same (controlled : s.Controlled registry records) (connections : s'.connections = s.connections)
    (functions : s'.records = s.records)
    (log : ∀ entry ∈ s'.log, entry ∈ s.log ∨ entry.Justified registry records s) : s'.Controlled registry records := by
  refine ⟨fun c conn at_c => ?_, fun record => ?_, fun entry member => ?_⟩
  · rw [connections] at at_c
    exact controlled.connections c conn at_c
  · rw [functions]
    exact controlled.registered record
  · refine justified_of_extends ?_ fun c conn at_c => ⟨conn, by rw [connections, at_c], rfl, List.prefix_rfl⟩
    rcases log entry member with old | new
    · exact controlled.justified entry old
    · exact new

theorem Controlled.connect (controlled : s.Controlled registry records) (conn : Connection) (sound : conn.Sound registry.users)
    (connections : s'.connections = s.connections ++ [conn]) (functions : s'.records = s.records) (log : s'.log = s.log) :
    s'.Controlled registry records := by
  refine ⟨fun c other at_c => ?_, fun record => ?_, fun entry member => ?_⟩
  · rw [connections] at at_c
    rw [List.getElem?_append] at at_c
    split at at_c
    · exact controlled.connections c other at_c
    · rw [List.mem_singleton.mp (List.mem_of_getElem? at_c)]
      exact sound
  · rw [functions]
    exact controlled.registered record
  · rw [log] at member
    refine justified_of_extends (controlled.justified entry member) fun c other at_c => ⟨other, ?_, rfl, List.prefix_rfl⟩
    rw [connections, List.getElem?_append_left (List.getElem?_eq_some_iff.mp at_c).choose, at_c]

/-- A call changes the records as `drpc_proto_to_ffi` does, and no others. -/
theorem drpcFinishCall_records {server : CallServer} {memory : Memory Element} {received : DStruct Field}
    {verdict : CallVerdict} {handled : HandledCall}
    (registered : ∀ record, Registered (records record) (server.records record))
    (ran : drpcFinishCall server memory received verdict = .ok handled) :
    ∀ record, Registered (records record) (handled.records record) := by
  cases verdict with
  | refuse type handleRet =>
    cases ran
    exact registered
  | invoke target arguments slots toRepack =>
    obtain ⟨result, invoked, ran⟩ := bind_eq_ok.mp ran
    obtain ⟨message, -, same⟩ := bind_eq_ok.mp ran
    cases same
    obtain ⟨_, -, invoked⟩ := bind_eq_ok.mp invoked
    obtain ⟨_, -, invoked⟩ := bind_eq_ok.mp invoked
    obtain ⟨_, -, invoked⟩ := bind_eq_ok.mp invoked
    obtain ⟨_, -, same⟩ := bind_eq_ok.mp invoked
    cases same
    intro record
    by_cases same : record = target
    · subst same
      obtain ⟨fn, returnType, level, prototype⟩ := registered record
      refine ⟨by simp [fn], by simp [returnType], by simp [level], Or.inr ?_⟩
      rcases prototype with unchanged | changed
      · simp [unchanged]
      · simp only [Function.update_self, changed, Option.map_map]
        congr 1
        funext other
        exact drpcProtoToFfi_idem other
    · simp only [Function.update_of_ne same]
      exact registered record

/-- The outcome of a call event for a connection that has its level is allowed. -/
theorem outcome_justified (controlled : s.Controlled registry records) {c : Nat} {conn : Connection} {clientPerm : Int}
    (at_c : s.connections[c]? = some conn) (granted : conn.Granted registry.users clientPerm) (message : Option Payload) :
    CallEntry.Justified registry records s ⟨c, clientPerm, s.outcome registry clientPerm message⟩ := by
  unfold CallEntry.Justified outcome
  cases verdict : drpcAdmitCall (s.server registry) clientPerm message with
  | error fault => trivial
  | ok verdict' =>
    cases verdict' with
    | refuse type handleRet => exact drpcAdmitCall_refuse verdict
    | invoke record arguments slots toRepack =>
      obtain ⟨allowed, types, -, payload, -, -, fnName, -, found⟩ := drpcAdmitCall_invoke registry.functionsOpen verdict
      exact ⟨⟨fnName, found⟩, controlled.registered record, ⟨conn, at_c, granted⟩, allowed, types⟩

theorem logged_justified (controlled : s.Controlled registry records) {c : Nat} {conn : Connection} {clientPerm : Int}
    (at_c : s.connections[c]? = some conn) (granted : conn.Granted registry.users clientPerm) (event : ClientMessage) :
    ∀ entry ∈ s.logged registry c clientPerm event, entry ∈ s.log ∨ entry.Justified registry records s := by
  intro entry member
  cases event with
  | other type notCall message => exact Or.inl member
  | call message =>
    rcases List.mem_append.mp member with old | new
    · exact Or.inl old
    · rw [List.mem_singleton.mp new]
      exact Or.inr (outcome_justified controlled at_c granted message)

theorem executeEvent_records (controlled : s.Controlled registry records) {clientPerm : Int}
    {ping : DrpcClient → DrpcClient} {sent stop : Bool} {event : ClientMessage}
    (ran : s.executeEvent registry clientPerm ping sent event = .ok (s', stop)) :
    ∀ record, Registered (records record) (s'.records record) := by
  cases event with
  | call message =>
    obtain ⟨executed, executes, same⟩ := bind_eq_ok.mp ran
    cases same
    obtain ⟨handled, handles, freed⟩ := bind_eq_ok.mp executes
    obtain ⟨memory, -, same⟩ := bind_eq_ok.mp freed
    cases same
    cases message with
    | none => cases handles
    | some payload =>
      rw [drpcHandleCall_eq] at handles
      obtain ⟨verdict, -, finished⟩ := bind_eq_ok.mp handles
      exact drpcFinishCall_records controlled.registered finished
  | other type notCall message =>
    simp only [executeEvent, executeOther] at ran
    split at ran
    · cases ran
      exact controlled.registered
    · cases ran
      exact controlled.registered
    · obtain ⟨handled, -, same⟩ := bind_eq_ok.mp ran
      cases same
      exact controlled.registered
    · obtain ⟨handled, -, same⟩ := bind_eq_ok.mp ran
      cases same
      exact controlled.registered
    · cases ran
      exact controlled.registered

theorem Controlled.execute (controlled : s.Controlled registry records) {c : Nat} {dqueuePerm : Option Int}
    {received : List ClientMessage} {h : Handling} (at_c : s.connections[c]? = some ⟨dqueuePerm, received, .handling h⟩)
    (ping : DrpcClient → DrpcClient) (sent : Bool) :
    (s.execute registry c ⟨dqueuePerm, received, .handling h⟩ h ping sent).Controlled registry records := by
  have sound : Connection.Granted registry.users ⟨dqueuePerm, received, .handling h⟩ h.clientPerm :=
    controlled.connections c _ at_c
  have stays : ∀ h' : Handling, h'.clientPerm = h.clientPerm →
      Connection.Extends ⟨dqueuePerm, received, .handling h⟩ ⟨dqueuePerm, received, .handling h'⟩ ∧
      Connection.Sound registry.users ⟨dqueuePerm, received, .handling h'⟩ := by
    intro h' same
    refine ⟨⟨rfl, List.prefix_rfl⟩, ?_⟩
    change Connection.Granted registry.users _ h'.clientPerm
    rw [same]
    exact Connection.Granted.extends sound ⟨rfl, List.prefix_rfl⟩
  unfold ServerState.execute
  split
  · exact controlled
  · split
    · split
      · have next := stays { h with exited := true, alreadyDisconnected := true } rfl
        exact controlled.update at_c next.1 next.2 rfl controlled.registered fun entry member => Or.inl member
      · exact controlled
    · next event events _ =>
      have log := logged_justified controlled at_c sound event
      dsimp only
      split
      · exact controlled.same rfl rfl log
      · next s' stop ran =>
        have next := fun disconnected => stays
          { h with eventQueue := events, stop := h.stop || stop, alreadyDisconnected := disconnected } rfl
        have functions := executeEvent_records controlled ran
        exact controlled.update at_c (next _).1 (next _).2 rfl functions log

theorem Controlled.step (controlled : s.Controlled registry records) (action : ServerAction) :
    (s.step registry action).Controlled registry records := by
  cases action with
  | connectTcp =>
    simp only [ServerState.step]
    split
    · exact controlled
    · exact controlled.connect ⟨none, [], .auth⟩ ⟨rfl, rfl⟩ rfl rfl rfl
  | connectDqueue clientPerm =>
    simp only [ServerState.step]
    split
    · exact controlled
    · exact controlled.connect ⟨some clientPerm, [], .handling (.start clientPerm)⟩ (Or.inl rfl) rfl rfl rfl
  | receive c message sent =>
    simp only [ServerState.step]
    split
    · exact controlled
    · split
      · exact controlled
      · next conn at_c =>
        split
        · exact controlled.same rfl rfl fun entry member => Or.inl member
        · next conn' ran =>
          obtain ⟨grows, sound⟩ := Connection.receive_sound (controlled.connections c conn at_c) ran
          exact controlled.update at_c grows sound rfl controlled.registered fun entry member => Or.inl member
  | hangUp c =>
    simp only [ServerState.step]
    split
    · exact controlled
    · split
      · exact controlled
      · next conn at_c =>
        obtain ⟨grows, sound⟩ := Connection.hangUp_sound (controlled.connections c conn at_c)
        exact controlled.update at_c grows sound rfl controlled.registered fun entry member => Or.inl member
  | execute c ping sent =>
    simp only [ServerState.step]
    split
    · exact controlled
    · split
      · next dqueuePerm received h at_c => exact controlled.execute at_c ping sent
      · exact controlled

/-- The outcome of a call event is what the handler does with it. -/
theorem outcome_handled {clientPerm : Int} {memory : Memory Element} {message : Option Payload} {handled : HandledCall}
    (ran : drpcHandleCall (s.server registry) clientPerm memory message = .ok handled) :
    (handled.reply.messageType = .return ∧
        ∃ record fnInfo arguments, s.outcome registry clientPerm message = .invoked record fnInfo arguments) ∨
      s.outcome registry clientPerm message = .refused handled.reply.messageType := by
  cases message with
  | none => cases ran
  | some payload =>
    rw [drpcHandleCall_eq] at ran
    obtain ⟨verdict, admitted, finished⟩ := bind_eq_ok.mp ran
    simp only [outcome, admitted]
    cases verdict with
    | refuse type handleRet =>
      cases finished
      exact Or.inr rfl
    | invoke record arguments slots toRepack =>
      obtain ⟨result, -, rest⟩ := bind_eq_ok.mp finished
      obtain ⟨received, -, same⟩ := bind_eq_ok.mp rest
      cases same
      exact Or.inl ⟨rfl, record, s.records record, arguments, rfl⟩

end ServerState

/-- The run of a server from its start. -/
def serverRun (registry : Registry) (s : ServerState) (actions : List ServerAction) : Outcome ServerState :=
  run (fun s action => pure (s.step registry action)) s actions

end DynamicRPC
