import DynamicRPC.StructMap
import DynamicRPC.Library.Runs

namespace DynamicRPC
open Outcome Runs

/-- The clients behind the proxies of a server: the client in `fnstorage` of
each function, the clients of the two mailbox tables, the table of freed clients
by their printed addresses, and the clients that `drpc_client_disconnect` was
called on. A client is its address, so a new client at the address of a freed
one counts as disconnected. A null pointer is 0. -/
structure ProxyServer where
  functions : Hashtable Nat
  proxyRecvMailboxes : Hashtable Nat
  proxySendMailboxes : Hashtable Nat
  proxyFreeSyncHt : Hashtable Nat
  disconnected : List Nat

/-- One of the two mailbox tables. -/
inductive ProxyMailboxTable
  | recv
  | send
  deriving DecidableEq

namespace ProxyServer

def mailboxes (s : ProxyServer) : ProxyMailboxTable → Hashtable Nat
  | .recv => s.proxyRecvMailboxes
  | .send => s.proxySendMailboxes

def setMailboxes (s : ProxyServer) (table : Hashtable Nat) : ProxyMailboxTable → ProxyServer
  | .recv => { s with proxyRecvMailboxes := table }
  | .send => { s with proxySendMailboxes := table }

end ProxyServer

/-- `(void*)0xDEAD`, the value of every freed client in `proxy_free_sync_ht`. -/
def freedMark : Nat := 0xDEAD

/-- `drpc_client_disconnect`, as far as the server knows. -/
def drpcClientDisconnect (s : ProxyServer) (client : Nat) : ProxyServer :=
  { s with disconnected := s.disconnected ++ [client] }

/-- `check_is_removed`, with the table it leaves. -/
def checkIsRemoved (p : Nat) (ht : Hashtable Nat) : Outcome (Bool × Hashtable Nat) :=
  if p = 0 then pure (true, ht)
  else do
    let wasFreed ← hashtableGet ht (.sprintfP p)
    if wasFreed.getD 0 ≠ 0 then pure (true, ht)
    else do
      let ht ← hashtableSet ht (.sprintfP p) freedMark
      pure (false, ht)

/-- `drpc_server_register_proxy_fn`, as far as the client goes. -/
def drpcServerRegisterProxyClient (s : ProxyServer) (fnName : CString) (client : Nat) : Outcome ProxyServer := do
  let functions ← hashtableSet s.functions fnName client
  pure { s with functions := functions }

def newProxyMailbox (which : ProxyMailboxTable) (s : ProxyServer) (mailboxName : CString) (client : Nat) :
    Outcome ProxyServer := do
  let table ← hashtableSet (s.mailboxes which) mailboxName client
  pure (s.setMailboxes table which)

/-- `new_drpc_proxy_recv_mailbox`. -/
def newDrpcProxyRecvMailbox := newProxyMailbox .recv

/-- `new_drpc_proxy_send_mailbox`. -/
def newDrpcProxySendMailbox := newProxyMailbox .send

def removeProxyMailbox (which : ProxyMailboxTable) (s : ProxyServer) (mailboxName : CString) : Outcome ProxyServer := do
  let found ← hashtableGet (s.mailboxes which) mailboxName
  let client := found.getD 0
  let (removed, ht) ← checkIsRemoved client s.proxyFreeSyncHt
  let s := { s with proxyFreeSyncHt := ht }
  if removed then pure s
  else do
    let table ← hashtableRemove (s.mailboxes which) mailboxName
    pure (drpcClientDisconnect (s.setMailboxes table which) client)

/-- `drpc_remove_proxy_recv_mailbox`. -/
def drpcRemoveProxyRecvMailbox := removeProxyMailbox .recv

/-- `drpc_remove_proxy_send_mailbox`. -/
def drpcRemoveProxySendMailbox := removeProxyMailbox .send

/-- `drpc_proxy_client_free`, and the body of the loops of `drpc_server_free`. -/
def drpcProxyClientFree (s : ProxyServer) (fnstorage : Nat) : Outcome ProxyServer := do
  let wasFreed ← hashtableGet s.proxyFreeSyncHt (.sprintfP fnstorage)
  if wasFreed.getD 0 ≠ 0 then pure s
  else do
    let ht ← hashtableSet s.proxyFreeSyncHt (.sprintfP fnstorage) freedMark
    pure (drpcClientDisconnect { s with proxyFreeSyncHt := ht } fnstorage)

/-- One round of these loops, or `drpc_fn_free` of a proxy function. -/
def freeProxyEntry (s : ProxyServer) : HashtableEntry Nat → Outcome ProxyServer
  | .live _ client => if client ≠ 0 then drpcProxyClientFree s client else pure s
  | _ => pure s

/-- `drpc_server_free` from the functions on. -/
def drpcServerFreeProxies (s : ProxyServer) : Outcome ProxyServer := do
  let s ← s.functions.body.foldlM freeProxyEntry s
  let s ← s.proxyRecvMailboxes.body.foldlM freeProxyEntry s
  s.proxySendMailboxes.body.foldlM freeProxyEntry s

inductive ProxyTableCall
  | registerFn (fnName : CString) (client : Nat)
  | newMailbox (which : ProxyMailboxTable) (mailboxName : CString) (client : Nat)
  | removeMailbox (which : ProxyMailboxTable) (mailboxName : CString)

def ProxyTableCall.run (s : ProxyServer) : ProxyTableCall → Outcome ProxyServer
  | .registerFn fnName client => drpcServerRegisterProxyClient s fnName client
  | .newMailbox .recv mailboxName client => newDrpcProxyRecvMailbox s mailboxName client
  | .newMailbox .send mailboxName client => newDrpcProxySendMailbox s mailboxName client
  | .removeMailbox .recv mailboxName => drpcRemoveProxyRecvMailbox s mailboxName
  | .removeMailbox .send mailboxName => drpcRemoveProxySendMailbox s mailboxName

namespace ProxyServer

def start : ProxyServer where
  functions := hashtableCreate
  proxyRecvMailboxes := hashtableCreate
  proxySendMailboxes := hashtableCreate
  proxyFreeSyncHt := hashtableCreate
  disconnected := []

/-- The client that a name of a mailbox table resolves to. -/
def Resolves (s : ProxyServer) (which : ProxyMailboxTable) (mailboxName : CString) (client : Nat) : Prop :=
  (s.mailboxes which).lookup mailboxName = some client ∧ client ≠ 0

/-- An entry of the functions or of a mailbox table refers to the client. -/
def Refers (s : ProxyServer) (client : Nat) : Prop :=
  (∃ fnName, s.functions.lookup fnName = some client) ∨ ∃ which mailboxName, s.Resolves which mailboxName client

/-- No entry refers to a disconnected client. -/
def Sound (s : ProxyServer) : Prop := ∀ client ∈ s.disconnected, ¬ s.Refers client

end ProxyServer

/-- A removed name does not resolve any more. -/
def ProxyTableCall.Effective (s : ProxyServer) : ProxyTableCall → Prop
  | .removeMailbox which mailboxName => ∀ client, ¬ s.Resolves which mailboxName client
  | _ => True

/-- A client enters a table only while it is connected, and a name is removed
only while nothing else refers to its client. -/
def ProxyTableCall.Apart (s : ProxyServer) : ProxyTableCall → Prop
  | .registerFn _ client => client ∉ s.disconnected
  | .newMailbox _ _ client => client ∉ s.disconnected
  | .removeMailbox which mailboxName => ∀ client, s.Resolves which mailboxName client →
      (∀ fnName, s.functions.lookup fnName ≠ some client) ∧
        ∀ other name, s.Resolves other name client → other = which ∧ name = mailboxName

/-- What every step of a run must leave. -/
def ProxyTableCall.Keeps (s : ProxyServer) (call : ProxyTableCall) : Prop :=
  ∀ s', call.run s = .ok s' → s'.Sound ∧ call.Effective s'

/-- What holds whatever the calls are: the tables keep their invariants, and a
client is in the table of freed clients when it was disconnected, which happens once. -/
structure ProxyServer.Books (s : ProxyServer) : Prop where
  functions : s.functions.Wf
  mailboxes : ∀ which, (s.mailboxes which).Wf
  sync : s.proxyFreeSyncHt.NeverRemoved
  marked : ∀ p, s.proxyFreeSyncHt.lookup (.sprintfP p) = if p ∈ s.disconnected then some freedMark else none
  once : s.disconnected.Nodup
  notNull : 0 ∉ s.disconnected

namespace ProxyServer
variable {s s' : ProxyServer} {client : Nat} {which : ProxyMailboxTable} {mailboxName : CString}

theorem start_books : start.Books where
  functions := hashtableCreate_refill.wf
  mailboxes := fun which => by cases which <;> exact hashtableCreate_refill.wf
  sync := .start
  marked := fun p => by
    rw [start, Hashtable.lookup, hashtableCreate_bindings]
    rfl
  once := List.nodup_nil
  notNull := List.not_mem_nil

@[simp] theorem setMailboxes_self (s : ProxyServer) (table : Hashtable Nat) (which : ProxyMailboxTable) :
    (s.setMailboxes table which).mailboxes which = table := by cases which <;> rfl

theorem setMailboxes_other (s : ProxyServer) (table : Hashtable Nat) {which other : ProxyMailboxTable}
    (different : other ≠ which) : (s.setMailboxes table which).mailboxes other = s.mailboxes other := by
  cases which <;> cases other <;> first | exact absurd rfl different | rfl

@[simp] theorem setMailboxes_functions (s : ProxyServer) (table : Hashtable Nat) (which : ProxyMailboxTable) :
    (s.setMailboxes table which).functions = s.functions := by cases which <;> rfl

@[simp] theorem setMailboxes_sync (s : ProxyServer) (table : Hashtable Nat) (which : ProxyMailboxTable) :
    (s.setMailboxes table which).proxyFreeSyncHt = s.proxyFreeSyncHt := by cases which <;> rfl

@[simp] theorem setMailboxes_disconnected (s : ProxyServer) (table : Hashtable Nat) (which : ProxyMailboxTable) :
    (s.setMailboxes table which).disconnected = s.disconnected := by cases which <;> rfl

namespace Books

/-- The test of a client that is looked up among the freed ones. -/
theorem freed_iff (books : s.Books) (p : Nat) :
    hashtableGet s.proxyFreeSyncHt (.sprintfP p) = .ok (if p ∈ s.disconnected then some freedMark else none) := by
  rw [books.sync.isOpen.get, books.marked]

/-- A connected client is disconnected and marked. -/
theorem mark (books : s.Books) (connected : client ∉ s.disconnected) (notNull : client ≠ 0) :
    ∃ ht, hashtableSet s.proxyFreeSyncHt (.sprintfP client) freedMark = .ok ht ∧
      (drpcClientDisconnect { s with proxyFreeSyncHt := ht } client).Books := by
  obtain ⟨ht, run, kept, lookup⟩ := books.sync.set (.sprintfP client) freedMark
  refine ⟨ht, run, books.functions, books.mailboxes, kept, fun p => ?_, ?_, ?_⟩
  · show ht.lookup (.sprintfP p) = if p ∈ s.disconnected ++ [client] then some freedMark else none
    rw [lookup]
    by_cases same : p = client
    · subst same
      rw [Function.update_self, if_pos (List.mem_append_right _ List.mem_cons_self)]
    · rw [Function.update_of_ne fun printed => same (CString.sprintfP_injective printed), books.marked]
      simp [same]
  · exact books.once.append (List.nodup_singleton client) (by simpa using connected)
  · intro zero
    obtain before | here := List.mem_append.mp zero
    · exact books.notNull before
    · exact notNull (List.mem_singleton.mp here).symm

/-- Freeing a client returns and keeps the books. -/
theorem free (books : s.Books) (notNull : client ≠ 0) : ∃ s', drpcProxyClientFree s client = .ok s' ∧ s'.Books := by
  rw [drpcProxyClientFree, books.freed_iff, ok_bind]
  by_cases freed : client ∈ s.disconnected
  · rw [if_pos freed]
    exact ⟨s, rfl, books⟩
  · rw [if_neg freed]
    obtain ⟨ht, run, kept⟩ := books.mark freed notNull
    rw [Option.getD_none, if_neg (not_not.mpr rfl), run]
    exact ⟨_, rfl, kept⟩

theorem freeEntries (books : s.Books) (body : List (HashtableEntry Nat)) :
    ∃ s', body.foldlM freeProxyEntry s = .ok s' ∧ s'.Books := by
  induction body generalizing s with
  | nil => exact ⟨s, rfl, books⟩
  | cons entry body ih =>
    obtain ⟨middle, first, kept⟩ : ∃ s', freeProxyEntry s entry = .ok s' ∧ s'.Books := by
      cases entry with
      | null => exact ⟨s, rfl, books⟩
      | dead => exact ⟨s, rfl, books⟩
      | live key client =>
        rw [freeProxyEntry]
        split
        · next notNull => exact books.free notNull
        · exact ⟨s, rfl, books⟩
    obtain ⟨last, rest, held⟩ := ih kept
    exact ⟨last, by rw [List.foldlM_cons, first, ok_bind, rest], held⟩

/-- `drpc_server_free` returns and disconnects no client a second time. -/
theorem swept (books : s.Books) : ∃ freed, drpcServerFreeProxies s = .ok freed ∧ freed.Books := by
  obtain ⟨first, one, held⟩ := books.freeEntries s.functions.body
  obtain ⟨second, two, held⟩ := held.freeEntries first.proxyRecvMailboxes.body
  obtain ⟨third, three, held⟩ := held.freeEntries second.proxySendMailboxes.body
  exact ⟨third, by rw [drpcServerFreeProxies, one, ok_bind, two, ok_bind, three], held⟩

theorem disconnect_setMailboxes (s : ProxyServer) (table : Hashtable Nat) (which : ProxyMailboxTable) (client : Nat) :
    drpcClientDisconnect (s.setMailboxes table which) client = (drpcClientDisconnect s client).setMailboxes table which := by
  cases which <;> rfl

theorem setMailboxes (books : s.Books) {table : Hashtable Nat} (wf : table.Wf) (which : ProxyMailboxTable) :
    (s.setMailboxes table which).Books := by
  refine ⟨?_, fun other => ?_, ?_, fun p => ?_, ?_, ?_⟩
  · rw [setMailboxes_functions]
    exact books.functions
  · by_cases same : other = which
    · rw [same, setMailboxes_self]
      exact wf
    · rw [setMailboxes_other s table same]
      exact books.mailboxes other
  · rw [setMailboxes_sync]
    exact books.sync
  · rw [setMailboxes_sync, setMailboxes_disconnected]
    exact books.marked p
  · rw [setMailboxes_disconnected]
    exact books.once
  · rw [setMailboxes_disconnected]
    exact books.notNull

/-- Everything that a removal does. -/
theorem remove_inv (books : s.Books) (ran : removeProxyMailbox which s mailboxName = .ok s') :
    (s' = s ∧ ∀ client, s.Resolves which mailboxName client → client ∈ s.disconnected) ∨
      ∃ client, s.Resolves which mailboxName client ∧ client ∉ s.disconnected ∧ s'.Books ∧
        s'.functions = s.functions ∧ s'.disconnected = s.disconnected ++ [client] ∧
        (s'.mailboxes which).lookup = Function.update (s.mailboxes which).lookup mailboxName none ∧
        ∀ other ≠ which, s'.mailboxes other = s.mailboxes other := by
  obtain ⟨found, get, ran⟩ := bind_eq_ok.mp ran
  obtain rfl := hashtableGet_inv (books.mailboxes which) get
  obtain ⟨⟨removed, ht⟩, checked, ran⟩ := bind_eq_ok.mp ran
  unfold checkIsRemoved at checked
  split at checked
  · next null =>
    cases checked
    cases ran
    refine .inl ⟨rfl, fun client resolves => ?_⟩
    rw [resolves.1] at null
    exact absurd null resolves.2
  · next notNull =>
    rw [books.freed_iff, ok_bind] at checked
    obtain ⟨client, there⟩ : ∃ client, (s.mailboxes which).lookup mailboxName = some client := by
      cases held : (s.mailboxes which).lookup mailboxName with
      | none =>
        rw [held] at notNull
        exact absurd rfl notNull
      | some client => exact ⟨client, rfl⟩
    rw [there, Option.getD_some] at notNull checked ran
    by_cases freed : client ∈ s.disconnected
    · rw [if_pos freed] at checked
      cases checked
      cases ran
      refine .inl ⟨rfl, fun other resolves => ?_⟩
      have same := resolves.1
      rw [there] at same
      cases same
      exact freed
    · rw [if_neg freed, Option.getD_none, if_neg (not_not.mpr rfl)] at checked
      obtain ⟨ht', run, kept⟩ := books.mark freed notNull
      rw [run] at checked
      cases checked
      obtain ⟨table, taken, same⟩ := bind_eq_ok.mp ran
      cases same
      have old : (ProxyServer.mailboxes { s with proxyFreeSyncHt := ht } which) = s.mailboxes which := by
        cases which <;> rfl
      rw [old] at taken
      obtain ⟨wf, lookup, -⟩ := hashtableRemove_inv (books.mailboxes which) taken (by rw [there]; rfl)
      refine .inr ⟨client, ⟨there, notNull⟩, freed, ?_⟩
      rw [disconnect_setMailboxes]
      refine ⟨kept.setMailboxes wf which, setMailboxes_functions _ table which, setMailboxes_disconnected _ table which,
        ?_, fun other different => ?_⟩
      · rw [setMailboxes_self]
        exact lookup
      · rw [setMailboxes_other _ table different]
        cases other <;> rfl

/-- A client more in the functions. -/
theorem register_inv (books : s.Books) {fnName : CString} (ran : drpcServerRegisterProxyClient s fnName client = .ok s') :
    s'.Books ∧ s'.disconnected = s.disconnected ∧ (∀ which, s'.mailboxes which = s.mailboxes which) ∧
      s'.functions.lookup = Function.update s.functions.lookup fnName (some client) := by
  obtain ⟨functions, run, same⟩ := bind_eq_ok.mp ran
  cases same
  obtain ⟨wf, lookup, -⟩ := hashtableSet_inv books.functions run
  have others (which : ProxyMailboxTable) :
      ProxyServer.mailboxes { s with functions := functions } which = s.mailboxes which := by cases which <;> rfl
  refine ⟨⟨wf, fun which => ?_, books.sync, books.marked, books.once, books.notNull⟩, rfl, others, lookup⟩
  rw [others which]
  exact books.mailboxes which

/-- A client more in a mailbox table. -/
theorem new_inv (books : s.Books) (ran : newProxyMailbox which s mailboxName client = .ok s') :
    s'.Books ∧ s'.disconnected = s.disconnected ∧ s'.functions = s.functions ∧
      (s'.mailboxes which).lookup = Function.update (s.mailboxes which).lookup mailboxName (some client) ∧
      ∀ other ≠ which, s'.mailboxes other = s.mailboxes other := by
  obtain ⟨table, run, same⟩ := bind_eq_ok.mp ran
  cases same
  obtain ⟨wf, lookup, -⟩ := hashtableSet_inv (books.mailboxes which) run
  refine ⟨books.setMailboxes wf which, setMailboxes_disconnected s table which, setMailboxes_functions s table which, ?_,
    fun other different => setMailboxes_other s table different⟩
  rw [setMailboxes_self]
  exact lookup

end Books

/-- Both tables have one removal and one insertion. -/
theorem run_newMailbox (s : ProxyServer) (which : ProxyMailboxTable) (mailboxName : CString) (client : Nat) :
    ProxyTableCall.run s (.newMailbox which mailboxName client) = newProxyMailbox which s mailboxName client := by
  cases which <;> rfl

theorem run_removeMailbox (s : ProxyServer) (which : ProxyMailboxTable) (mailboxName : CString) :
    ProxyTableCall.run s (.removeMailbox which mailboxName) = removeProxyMailbox which s mailboxName := by
  cases which <;> rfl

theorem Books.step (books : s.Books) {call : ProxyTableCall} (ran : call.run s = .ok s') : s'.Books := by
  cases call with
  | registerFn fnName client => exact (books.register_inv ran).1
  | newMailbox which mailboxName client =>
    rw [run_newMailbox] at ran
    exact (books.new_inv ran).1
  | removeMailbox which mailboxName =>
    rw [run_removeMailbox] at ran
    obtain ⟨rfl, -⟩ | ⟨client, -, -, held, -⟩ := books.remove_inv ran
    · exact books
    · exact held

theorem Resolves.refers (resolves : s.Resolves which mailboxName client) : s.Refers client :=
  .inr ⟨which, mailboxName, resolves⟩

/-- What the entries refer to after a client has entered the functions. -/
theorem refers_register {fnName : CString} (mailboxes : ∀ which, s'.mailboxes which = s.mailboxes which)
    (functions : s'.functions.lookup = Function.update s.functions.lookup fnName (some client)) {other : Nat}
    (refers : s'.Refers other) : s.Refers other ∨ other = client := by
  obtain ⟨name, found⟩ | ⟨which, name, resolves⟩ := refers
  · rw [functions] at found
    by_cases same : name = fnName
    · rw [same, Function.update_self] at found
      exact .inr (Option.some.inj found).symm
    · rw [Function.update_of_ne same] at found
      exact .inl (.inl ⟨name, found⟩)
  · rw [Resolves, mailboxes] at resolves
    exact .inl (.inr ⟨which, name, resolves⟩)

/-- What they refer to after one has entered a mailbox table. -/
theorem refers_new (functions : s'.functions = s.functions)
    (here : (s'.mailboxes which).lookup = Function.update (s.mailboxes which).lookup mailboxName (some client))
    (others : ∀ other ≠ which, s'.mailboxes other = s.mailboxes other) {other : Nat} (refers : s'.Refers other) :
    s.Refers other ∨ other = client := by
  obtain ⟨name, found⟩ | ⟨table, name, found, notNull⟩ := refers
  · rw [functions] at found
    exact .inl (.inl ⟨name, found⟩)
  · by_cases same : table = which
    · subst same
      rw [here] at found
      by_cases shared : name = mailboxName
      · rw [shared, Function.update_self] at found
        exact .inr (Option.some.inj found).symm
      · rw [Function.update_of_ne shared] at found
        exact .inl (.inr ⟨table, name, found, notNull⟩)
    · rw [others table same] at found
      exact .inl (.inr ⟨table, name, found, notNull⟩)

/-- Where a client has only been added, the tables stay sound exactly when it is connected. -/
theorem Sound.added_iff (sound : s.Sound) (books : s.Books) (disconnected : s'.disconnected = s.disconnected)
    (new : client ≠ 0 → s'.Refers client) (only : ∀ other, s'.Refers other → s.Refers other ∨ other = client) :
    s'.Sound ↔ client ∉ s.disconnected := by
  constructor
  · intro still gone
    have notNull : client ≠ 0 := by
      rintro rfl
      exact books.notNull gone
    exact still client (by rw [disconnected]; exact gone) (new notNull)
  · intro connected other gone refers
    rw [disconnected] at gone
    obtain before | rfl := only other refers
    · exact sound other gone before
    · exact connected gone

/-- A removal in a sound state. -/
theorem Sound.removed_iff (sound : s.Sound) (books : s.Books) (ran : removeProxyMailbox which s mailboxName = .ok s') :
    s'.Sound ∧ (∀ client, ¬ s'.Resolves which mailboxName client) ↔
      ProxyTableCall.Apart s (.removeMailbox which mailboxName) := by
  obtain ⟨rfl, stale⟩ | ⟨client, resolves, connected, -, functions, disconnected, here, others⟩ := books.remove_inv ran
  · have unbound (client : Nat) (resolves : s'.Resolves which mailboxName client) : False :=
      sound client (stale client resolves) resolves.refers
    exact ⟨fun _ client resolves => (unbound client resolves).elim, fun _ => ⟨sound, unbound⟩⟩
  · have effective (other : Nat) : ¬ s'.Resolves which mailboxName other := by
      rintro ⟨found, -⟩
      rw [here, Function.update_self] at found
      cases found
    have kept (other : Nat) : s'.Refers other ↔ (∃ fnName, s.functions.lookup fnName = some other) ∨
        ∃ table name, s.Resolves table name other ∧ ¬ (table = which ∧ name = mailboxName) := by
      refine or_congr (by rw [functions]) (exists_congr fun table => exists_congr fun name => ?_)
      by_cases same : table = which
      · subst same
        rw [Resolves, here]
        by_cases taken : name = mailboxName
        · subst taken
          rw [Function.update_self]
          constructor
          · rintro ⟨found, -⟩
            cases found
          · rintro ⟨-, elsewhere⟩
            exact absurd ⟨rfl, rfl⟩ elsewhere
        · rw [Function.update_of_ne taken]
          exact ⟨fun found => ⟨found, fun both => taken both.2⟩, And.left⟩
      · rw [Resolves, others table same]
        exact ⟨fun found => ⟨found, fun both => same both.1⟩, And.left⟩
    constructor
    · rintro ⟨still, -⟩ other found
      have same : other = client := by
        have both := found.1.symm.trans resolves.1
        exact Option.some.inj both
      subst same
      have alone := still other (by rw [disconnected]; exact List.mem_append_right _ List.mem_cons_self)
      rw [kept, not_or] at alone
      refine ⟨fun fnName bound => alone.1 ⟨fnName, bound⟩, fun table name also => ?_⟩
      by_contra elsewhere
      exact alone.2 ⟨table, name, also, elsewhere⟩
    · intro apart
      obtain ⟨noFunction, noMailbox⟩ := apart client resolves
      refine ⟨fun other gone refers => ?_, effective⟩
      rw [disconnected] at gone
      rw [kept] at refers
      obtain before | same := List.mem_append.mp gone
      · refine sound other before ?_
        exact refers.imp_right fun ⟨table, name, also, _⟩ => ⟨table, name, also⟩
      · rw [List.mem_singleton.mp same] at refers
        obtain ⟨fnName, found⟩ | ⟨table, name, also, elsewhere⟩ := refers
        · exact noFunction fnName found
        · exact elsewhere (noMailbox table name also)

/-- In a sound state a step keeps what is asked exactly when its call stands apart. -/
theorem Sound.keeps_iff (sound : s.Sound) (books : s.Books) {call : ProxyTableCall} (ran : call.run s = .ok s') :
    s'.Sound ∧ call.Effective s' ↔ call.Apart s := by
  cases call with
  | registerFn fnName client =>
    obtain ⟨-, disconnected, mailboxes, functions⟩ := books.register_inv ran
    refine (and_iff_left trivial).trans (sound.added_iff books disconnected (fun _ => .inl ⟨fnName, ?_⟩) fun other =>
      refers_register mailboxes functions)
    rw [functions, Function.update_self]
  | newMailbox which mailboxName client =>
    rw [run_newMailbox] at ran
    obtain ⟨-, disconnected, functions, here, others⟩ := books.new_inv ran
    refine (and_iff_left trivial).trans (sound.added_iff books disconnected
      (fun notNull => .inr ⟨which, mailboxName, ?_, notNull⟩) fun other => refers_new functions here others)
    rw [here, Function.update_self]
  | removeMailbox which mailboxName =>
    rw [run_removeMailbox] at ran
    exact sound.removed_iff books ran

theorem along_iff (calls : List ProxyTableCall) (sound : s.Sound) (books : s.Books)
    (ran : Runs.run ProxyTableCall.run s calls = .ok s') :
    Along ProxyTableCall.run ProxyTableCall.Keeps s calls ↔ Along ProxyTableCall.run ProxyTableCall.Apart s calls := by
  induction calls generalizing s with
  | nil => exact Iff.rfl
  | cons call calls ih =>
    obtain ⟨middle, first, rest⟩ := bind_eq_ok.mp ran
    have here := sound.keeps_iff books first
    constructor
    · rintro ⟨keeps, later⟩
      have kept := keeps middle first
      refine ⟨here.mp kept, fun other again => ?_⟩
      rw [first] at again
      cases again
      exact (ih kept.1 (books.step first) rest).mp (later middle first)
    · rintro ⟨apart, later⟩
      have kept := here.mpr apart
      refine ⟨fun other again => ?_, fun other again => ?_⟩
      · rw [first] at again
        cases again
        exact kept
      · rw [first] at again
        cases again
        exact (ih kept.1 (books.step first) rest).mpr (later middle first)

theorem start_sound : start.Sound := fun _ gone => by cases gone

end ProxyServer

/-- In every state of a run no entry refers to a disconnected client and a
removed name does not resolve, and no client is disconnected twice up to the
end of the server, if and only if every call of the run stands apart from the
other entries. -/
theorem proxyTables_iff (calls : List ProxyTableCall) (s : ProxyServer)
    (ran : Runs.run ProxyTableCall.run .start calls = .ok s) :
    (Along ProxyTableCall.run ProxyTableCall.Keeps .start calls ∧
        ∃ freed, drpcServerFreeProxies s = .ok freed ∧ freed.disconnected.Nodup) ↔
      Along ProxyTableCall.run ProxyTableCall.Apart .start calls := by
  have books := run_invariant ProxyServer.Books (fun _ _ _ books => books.step) ProxyServer.start_books ran
  obtain ⟨freed, swept, held⟩ := books.swept
  rw [← ProxyServer.along_iff calls ProxyServer.start_sound ProxyServer.start_books ran]
  exact and_iff_left ⟨freed, swept, held.once⟩

/-- One client behind a function and one behind a mailbox that is removed. -/
theorem proxyTables_iff_apart : ∃ s,
    (Along ProxyTableCall.run ProxyTableCall.Keeps .start
          [.registerFn (.ofString "f") 1, .newMailbox .recv (.ofString "a") 2, .removeMailbox .recv (.ofString "a")] ∧
        ∃ freed, drpcServerFreeProxies s = .ok freed ∧ freed.disconnected.Nodup) ↔
      Along ProxyTableCall.run ProxyTableCall.Apart .start
        [.registerFn (.ofString "f") 1, .newMailbox .recv (.ofString "a") 2, .removeMailbox .recv (.ofString "a")] := by
  have evaluated : (Runs.run ProxyTableCall.run .start
      [.registerFn (.ofString "f") 1, .newMailbox .recv (.ofString "a") 2, .removeMailbox .recv (.ofString "a")]).map
        ProxyServer.disconnected = .ok [2] := by decide +kernel
  obtain ⟨s, ran, -⟩ := map_eq_ok.mp evaluated
  exact ⟨s, proxyTables_iff _ s ran⟩

/-- Two mailboxes of one client: when one is removed the other refers to a disconnected client. -/
theorem proxyTables_shared :
    ¬ ∀ (calls : List ProxyTableCall) (s : ProxyServer), Runs.run ProxyTableCall.run .start calls = .ok s →
      Along ProxyTableCall.run ProxyTableCall.Keeps .start calls ∧
        ∃ freed, drpcServerFreeProxies s = .ok freed ∧ freed.disconnected.Nodup := by
  intro holds
  let calls : List ProxyTableCall :=
    [.newMailbox .recv (.ofString "a") 1, .newMailbox .recv (.ofString "b") 1, .removeMailbox .recv (.ofString "a")]
  have evaluated : (Runs.run ProxyTableCall.run .start calls).map (fun s =>
      (s.disconnected, s.proxyRecvMailboxes.lookup (.ofString "b"))) = .ok ([1], some 1) := by decide +kernel
  obtain ⟨s, ran, shape⟩ := map_eq_ok.mp evaluated
  obtain ⟨disconnected, found⟩ := Prod.mk.inj shape
  have sound := run_keeps ProxyServer.Sound (fun _ _ s' _ keeps stepped => (keeps s' stepped).1) ProxyServer.start_sound
    (holds calls s ran).1 ran
  refine sound 1 (by rw [disconnected]; exact List.mem_cons_self) ?_
  exact .inr ⟨.recv, .ofString "b", found, by decide⟩

end DynamicRPC
