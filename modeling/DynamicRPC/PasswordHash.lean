import DynamicRPC.AccessControl
import DynamicRPC.Library.WordHash
import DynamicRPC.StructMap
import DynamicRPC.Tcp

namespace DynamicRPC
open Outcome Runs

/-- One round of `murmur`: `char` is signed, so the character is sign-extended. -/
def murmurStep (h : UInt64) (c : UInt8) : UInt64 :=
  let h := h ^^^ c.toInt8.toInt64.toUInt64
  let h := h * 0x5bd1e9955bd1e995
  h ^^^ (h >>> 47)

/-- `murmur`, for fewer than 2^31 characters, which its `int` counts. -/
def murmur (str : List UInt8) (keylen : UInt32) : UInt64 :=
  (str.take keylen.toNat).foldl murmurStep 525201411107845655

/-- `murmur(passwd, strlen(passwd))`. -/
def passwdHash (passwd : CString) : UInt64 := murmur passwd.block (UInt32.ofNat passwd.bytes.length)

/-- Two strings of one length that differ at exactly one place. -/
def OneByteApart (str other : List UInt8) : Prop :=
  str.length = other.length ∧ ∃! i : Nat, str[i]? ≠ other[i]?

/-- The parts before and after the place are shared. -/
theorem oneByteApart_iff {str other : List UInt8} : OneByteApart str other ↔
    ∃ before c d after, str = before ++ c :: after ∧ other = before ++ d :: after ∧ c ≠ d := by
  constructor
  · rintro ⟨length, i, differs, only⟩
    have agrees : ∀ j, j ≠ i → str[j]? = other[j]? := fun j elsewhere => by
      by_contra apart
      exact elsewhere (only j apart)
    have within : i < str.length := by
      by_contra outside
      apply differs
      rw [List.getElem?_eq_none (by omega), List.getElem?_eq_none (by omega)]
    have within' : i < other.length := by omega
    have front : str.take i = other.take i := by
      apply List.ext_getElem?
      intro j
      rw [List.getElem?_take, List.getElem?_take]
      split
      · exact agrees j (by omega)
      · rfl
    have back : str.drop (i + 1) = other.drop (i + 1) := by
      apply List.ext_getElem?
      intro j
      rw [List.getElem?_drop, List.getElem?_drop]
      exact agrees _ (by omega)
    refine ⟨str.take i, str[i], other[i], str.drop (i + 1), ?_, ?_, fun same => differs ?_⟩
    · rw [List.getElem_cons_drop, List.take_append_drop]
    · rw [front, back, List.getElem_cons_drop, List.take_append_drop]
    · rw [List.getElem?_eq_getElem within, List.getElem?_eq_getElem within', same]
  · rintro ⟨before, c, d, after, rfl, rfl, different⟩
    refine ⟨by simp, before.length, by simpa using different, fun i differs => ?_⟩
    by_contra elsewhere
    apply differs
    rcases Nat.lt_or_gt_of_ne elsewhere with earlier | later
    · rw [List.getElem?_append_left earlier, List.getElem?_append_left earlier]
    · rw [List.getElem?_append_right later.le, List.getElem?_append_right later.le,
        List.getElem?_cons, List.getElem?_cons, if_neg (by omega), if_neg (by omega)]

theorem signExtend_injective : Function.Injective fun c : UInt8 => c.toInt8.toInt64.toUInt64 := by
  intro c d same
  have signed : c.toInt8.toInt64 = d.toInt8.toInt64 := congrArg UInt64.toInt64 same
  have value := congrArg Int64.toInt signed
  rw [Int8.toInt_toInt64, Int8.toInt_toInt64] at value
  have narrow : c.toInt8 = d.toInt8 := Int8.toInt_inj.mp value
  exact congrArg Int8.toUInt8 narrow

theorem murmurProduct_injective : Function.Injective fun h : UInt64 => h * 0x5bd1e9955bd1e995 := by
  intro left right same
  have words := congrArg UInt64.toBitVec same
  exact UInt64.toBitVec_inj.mp (@WordHash.mul_odd_injective 64 0x5bd1e9955bd1e995 (by decide) _ _ words)

theorem murmurShift_injective : Function.Injective fun h : UInt64 => h ^^^ (h >>> 47) := by
  intro left right same
  have words := congrArg UInt64.toBitVec same
  exact UInt64.toBitVec_inj.mp (@WordHash.xorShift_injective 64 47 (by decide) _ _ words)

/-- A round loses nothing: neither of the word so far, nor of the character. -/
theorem murmurStep_inv {left right : UInt64} {c d : UInt8} (same : murmurStep left c = murmurStep right d) :
    left ^^^ c.toInt8.toInt64.toUInt64 = right ^^^ d.toInt8.toInt64.toUInt64 :=
  murmurProduct_injective (murmurShift_injective same)

theorem murmurStep_undone (c : UInt8) : Function.Injective fun h => murmurStep h c :=
  fun _ _ same => (UInt64.xor_left_inj _).mp (murmurStep_inv same)

theorem murmurStep_read (h : UInt64) : Function.Injective (murmurStep h) :=
  fun _ _ same => signExtend_injective ((UInt64.xor_right_inj _).mp (murmurStep_inv same))

theorem murmur_ne {str other : List UInt8} {keylen : UInt32}
    (apart : OneByteApart (str.take keylen.toNat) (other.take keylen.toNat)) :
    murmur str keylen ≠ murmur other keylen := by
  obtain ⟨before, c, d, after, first, second, different⟩ := oneByteApart_iff.mp apart
  rw [murmur, murmur, first, second]
  exact WordHash.foldl_ne murmurStep_undone murmurStep_read different before after _

theorem passwdHash_ne {passwd attempt : CString} (short : passwd.bytes.length < 2 ^ 31)
    (apart : OneByteApart passwd.bytes attempt.bytes) : passwdHash attempt ≠ passwdHash passwd := by
  have counted : (UInt32.ofNat passwd.bytes.length).toNat = passwd.bytes.length := by
    rw [UInt32.toNat_ofNat']
    omega
  have whole : passwd.block.take (UInt32.ofNat passwd.bytes.length).toNat = passwd.bytes := by
    rw [counted, CString.block, List.take_left]
  have other : attempt.block.take (UInt32.ofNat passwd.bytes.length).toNat = attempt.bytes := by
    rw [counted, apart.1, CString.block, List.take_left]
  have differ : murmur passwd.block (UInt32.ofNat passwd.bytes.length) ≠
      murmur attempt.block (UInt32.ofNat passwd.bytes.length) := by
    apply murmur_ne
    rw [whole, other]
    exact apart
  intro same
  rw [passwdHash, passwdHash, ← apart.1] at same
  exact differ same.symm

/-- The arguments of `drpc_server_add_user`. -/
structure AddUser where
  username : CString
  passwd : CString
  perm : Int

def AddUser.record (user : AddUser) : DrpcUser := ⟨user.perm, (passwdHash user.passwd).toNat⟩

def drpcServerAddUser (users : Hashtable DrpcUser) (user : AddUser) : Outcome (Hashtable DrpcUser) :=
  hashtableSet users user.username user.record

/-- Every user can be added, and the other names keep their records. -/
theorem drpcServerAddUser_returns {users : Hashtable DrpcUser} (kept : users.NeverRemoved) (user : AddUser) :
    ∃ users', drpcServerAddUser users user = .ok users' ∧ users'.NeverRemoved ∧
      users'.lookup user.username = some user.record ∧
      ∀ username, username ≠ user.username → users'.lookup username = users.lookup username := by
  obtain ⟨users', run, kept', lookup⟩ := kept.set user.username user.record
  refine ⟨users', run, kept', ?_, fun username other => ?_⟩
  · rw [lookup, Function.update_self]
  · rw [lookup, Function.update_of_ne other]

theorem addUsers_returns {users : Hashtable DrpcUser} (kept : users.NeverRemoved) (calls : List AddUser) :
    ∃ users', run drpcServerAddUser users calls = .ok users' ∧ users'.NeverRemoved ∧
      ∀ username, (∀ user ∈ calls, user.username ≠ username) → users'.lookup username = users.lookup username := by
  induction calls generalizing users with
  | nil => exact ⟨users, rfl, kept, fun _ _ => rfl⟩
  | cons user calls ih =>
    obtain ⟨middle, first, still, -, others⟩ := drpcServerAddUser_returns kept user
    obtain ⟨last, rest, kept', unchanged⟩ := ih still
    refine ⟨last, by rw [run_cons, first, ok_bind, rest], kept', fun username absent => ?_⟩
    obtain ⟨here, later⟩ := List.forall_mem_cons.mp absent
    rw [unchanged username later, others username here.symm]

/-- A user has the record of the last call that names it. -/
theorem addUsers_last (before after : List AddUser) (user : AddUser)
    (last : ∀ later ∈ after, later.username ≠ user.username) :
    ∃ users, run drpcServerAddUser hashtableCreate (before ++ user :: after) = .ok users ∧
      hashtableGet users user.username = .ok (some user.record) := by
  obtain ⟨first, earlier, kept, -⟩ := addUsers_returns .start before
  obtain ⟨added, here, kept', held, -⟩ := drpcServerAddUser_returns kept user
  obtain ⟨users, later, kept'', unchanged⟩ := addUsers_returns kept' after
  refine ⟨users, ?_, ?_⟩
  · rw [run_append, earlier, ok_bind, run_cons, here, ok_bind, later]
  · rw [kept''.isOpen.get, unchanged user.username last, held]

/-- The `drpc_auth` message of `drpc_client_connect`. -/
def drpcClientAuth (username passwd : CString) : Outcome DrpcMessage := do
  let hash : Element :=
    .packed DrpcTypes.dUint64.toChar ⟨DrpcTypes.dUint64.toChar, LittleEndian.encode 8 (passwdHash passwd).toNat⟩
  let auth ← dStructSet newDStruct (CString.ofString "username") (.element (.str username.block))
  let auth ← dStructSet auth (CString.ofString "passwd_hash") (.element hash)
  pure ⟨.auth, some auth⟩

/-- The message on its way to `drpc_server_client_auth`, over an `io` that has no key yet. -/
def drpcAuthDeliver (username passwd : CString) : Outcome (Option DrpcMessage) := do
  let send ← drpcClientAuth username passwd
  drpcTcpDeliver none send

def ClientMessage.auth (message : DStruct Element) : ClientMessage := .other .auth (by decide) (some message)

/-- What `drpc_server_client_auth` does on the first message: the type of its reply, and the level with which it goes
on to `drpc_handle_client`, if it does. -/
structure AuthResult where
  reply : DrpcProtocol
  handled : Option Int
  deriving DecidableEq

def drpcServerAuthResult (users : Hashtable DrpcUser) (recv : ClientMessage) (sent : Bool) : Outcome AuthResult := do
  let level ← drpcServerClientAuth users recv
  pure (match level with
    | some perm => ⟨.ok, if sent then some perm else none⟩
    | none => ⟨.bad, none⟩)

section Arrival
variable {username passwd : CString} {got : DrpcMessage}

/-- An element that means a string is one whose text reads as that string. -/
theorem Element.text_of_value {e : Element} {s : CString} (wf : e.Wf) (same : e.value = (Element.str s.block).value) :
    e.type = DrpcTypes.dStr.toChar ∧ e.asStr = .ok s := by
  cases wf with
  | @str block terminated =>
    obtain ⟨content, run, bytes⟩ := CString.read_terminated terminated
    simp only [Element.value, Value.str.injEq] at same
    have text : content = s := CString.ext_bytes (bytes.trans (same.trans (CString.takeWhile_append_nul s [])))
    exact ⟨rfl, by rw [Element.asStr, run, text]⟩
  | _ => cases same

/-- What the server reads off a `drpc_auth` message that arrives. -/
theorem drpcAuthDeliver_arrives (delivered : drpcAuthDeliver username passwd = .ok (some got)) :
    ∃ message name hash, got = ⟨.auth, some message⟩ ∧
      dStructGet message (CString.ofString "username") .dStr = .ok (some name) ∧ name.asStr = .ok username ∧
      dStructGet message (CString.ofString "passwd_hash") .dUint64 = .ok (some hash) ∧
      hash.asUint64 = .ok (passwdHash passwd).toNat := by
  let secret : Element :=
    .packed DrpcTypes.dUint64.toChar ⟨DrpcTypes.dUint64.toChar, LittleEndian.encode 8 (passwdHash passwd).toNat⟩
  obtain ⟨named, first, one⟩ := DStruct.Filled.start.set (CString.ofString "username") (Element.str username.block)
    List.not_mem_nil
  obtain ⟨auth, second, two⟩ := one.set (CString.ofString "passwd_hash") secret (by
    simp only [List.nil_append, List.map_cons, List.map_nil]
    decide)
  have built : drpcClientAuth username passwd = .ok ⟨.auth, some auth⟩ := by
    rw [drpcClientAuth, first, ok_bind, second]
    rfl
  have wf : (Element.dstruct auth).Wf := by
    refine .dstruct two.wf fun key e member => ?_
    rcases List.mem_cons.mp (two.bindings.mem_iff.mp member) with same | rest
    · cases same
      exact .str (by simp [CString.block])
    · cases List.mem_singleton.mp rest
      exact @Element.Wf.packed .dUint64 _ (by rw [LittleEndian.encode_length]; rfl)
  rw [drpcAuthDeliver, built, ok_bind] at delivered
  have arrives := drpcTcpDeliver_arrives (fun d carried => by cases carried; exact wf) delivered
  obtain ⟨message, carried, value, wf', compact⟩ := arrives.message auth rfl
  have heldName : auth.hashtable.lookup (CString.ofString "username") = some (.str username.block) := by
    rw [two.lookup]
    rfl
  have heldHash : auth.hashtable.lookup (CString.ofString "passwd_hash") = some secret := by
    rw [two.lookup]
    rfl
  obtain ⟨name, getName, sameName, wfName, -⟩ := DStruct.get_of_value value wf' compact heldName
  obtain ⟨hash, getHash, sameHash, -, -⟩ := DStruct.get_of_value value wf' compact heldHash
  obtain ⟨type, text⟩ := Element.text_of_value wfName sameName
  cases Element.value_scalar sameHash
  have same : got = ⟨.auth, some message⟩ := by
    have messageType := arrives.messageType
    cases got
    cases carried
    cases messageType
    rfl
  refine ⟨message, name, secret, same, dStructGet_of_get getName type, text, dStructGet_of_get getHash rfl, ?_⟩
  have small := (passwdHash passwd).toNat_lt
  have read : secret.asUint64 = .ok (LittleEndian.decode (LittleEndian.encode 8 (passwdHash passwd).toNat)) := rfl
  rw [read, LittleEndian.decode_encode, Nat.mod_eq_of_lt (by omega)]

end Arrival

/-- A user whose record has another hash than the message is answered `drpc_bad`. -/
theorem drpcServerClientAuth_wrong {users : Hashtable DrpcUser} {username : CString} {user : DrpcUser}
    {message : DStruct Element} {name hash : Element}
    (getName : dStructGet message (CString.ofString "username") .dStr = .ok (some name)) (text : name.asStr = .ok username)
    (getHash : dStructGet message (CString.ofString "passwd_hash") .dUint64 = .ok (some hash))
    (found : hashtableGet users username = .ok (some user)) {passwdHash : Nat} (read : hash.asUint64 = .ok passwdHash)
    (wrong : user.hash ≠ passwdHash) :
    drpcServerClientAuth users (.auth message) = .ok none := by
  simp only [ClientMessage.auth, drpcServerClientAuth]
  rw [getName, ok_bind]
  dsimp only
  rw [getHash, ok_bind]
  dsimp only
  rw [read, ok_bind, text, ok_bind, found, ok_bind]
  dsimp only
  rw [if_pos wrong]
  rfl

/-- The thread of a connection has ended. -/
def ServerState.Shut (s : ServerState) (c : Nat) : Prop :=
  ∃ conn, s.connections[c]? = some conn ∧ conn.phase = .closed

namespace ServerState
variable {registry : Registry} {s s' : ServerState} {c : Nat}

theorem Shut.set (shut : s.Shut c) {d : Nat} {conn conn' : Connection} (at_d : s.connections[d]? = some conn)
    (ended : conn.phase = .closed → conn'.phase = .closed) (connections : s'.connections = s.connections.set d conn') :
    s'.Shut c := by
  obtain ⟨other, at_c, closed⟩ := shut
  by_cases same : d = c
  · subst same
    have bound : d < s.connections.length := (List.getElem?_eq_some_iff.mp at_c).choose
    rw [at_d] at at_c
    cases at_c
    exact ⟨conn', by rw [connections, List.getElem?_set_self bound], ended closed⟩
  · exact ⟨other, by rw [connections, List.getElem?_set_ne same, at_c], closed⟩

theorem Shut.connect (shut : s.Shut c) {conn : Connection} (connections : s'.connections = s.connections ++ [conn]) :
    s'.Shut c := by
  obtain ⟨other, at_c, closed⟩ := shut
  have bound : c < s.connections.length := (List.getElem?_eq_some_iff.mp at_c).choose
  exact ⟨other, by rw [connections, List.getElem?_append_left bound, at_c], closed⟩

/-- An executor leaves the connections of the others alone. -/
theorem Shut.execute (shut : s.Shut c) {d : Nat} {dqueuePerm : Option Int} {received : List ClientMessage} {h : Handling}
    (at_d : s.connections[d]? = some ⟨dqueuePerm, received, .handling h⟩) (ping : DrpcClient → DrpcClient) (sent : Bool) :
    (s.execute registry d ⟨dqueuePerm, received, .handling h⟩ h ping sent).Shut c := by
  unfold ServerState.execute
  split
  · exact shut
  · split
    · split
      · exact shut.set at_d (fun closed => by cases closed) rfl
      · exact shut
    · dsimp only
      split
      · exact shut
      · exact shut.set at_d (fun closed => by cases closed) rfl

theorem Shut.step (shut : s.Shut c) (action : ServerAction) : (s.step registry action).Shut c := by
  cases action with
  | connectTcp =>
    simp only [ServerState.step]
    split
    · exact shut
    · exact shut.connect rfl
  | connectDqueue clientPerm =>
    simp only [ServerState.step]
    split
    · exact shut
    · exact shut.connect rfl
  | receive d message sent =>
    simp only [ServerState.step]
    split
    · exact shut
    · split
      · exact shut
      · next conn at_d =>
        split
        · exact shut
        · next conn' ran =>
          refine shut.set at_d (fun closed => ?_) rfl
          simp only [Connection.receive, closed] at ran
          cases ran
          exact closed
  | hangUp d =>
    simp only [ServerState.step]
    split
    · exact shut
    · split
      · exact shut
      · next conn at_d =>
        refine shut.set at_d (fun closed => ?_) rfl
        simp only [Connection.hangUp, closed]
  | execute d ping sent =>
    simp only [ServerState.step]
    split
    · exact shut
    · split
      · next dqueuePerm received h at_d => exact shut.execute at_d ping sent
      · exact shut

/-- A first message that is not let in ends its connection. -/
theorem rejected_shut {conn : Connection} {message : ClientMessage} (running : s.crashed = false)
    (at_c : s.connections[c]? = some conn) (waiting : conn.phase = .auth)
    (rejected : drpcServerClientAuth registry.users message = .ok none) (sent : Bool) :
    (s.step registry (.receive c message sent)).Shut c := by
  have bound : c < s.connections.length := (List.getElem?_eq_some_iff.mp at_c).choose
  have ended : conn.receive registry.users message sent =
      .ok { conn with received := conn.received ++ [message], phase := .closed } := by
    simp only [Connection.receive, waiting]
    rw [rejected, ok_bind]
    rfl
  simp only [ServerState.step, running, at_c, ended]
  exact ⟨_, List.getElem?_set_self bound, rfl⟩

end ServerState

/-- A user who gives a password with one wrong byte sends another hash, is
answered `drpc_bad` and never comes to `drpc_handle_client`. -/
theorem wrongByte_rejected (before after : List AddUser) (user : AddUser)
    (last : ∀ later ∈ after, later.username ≠ user.username) (attempt : CString)
    (short : user.passwd.bytes.length < 2 ^ 31) (apart : OneByteApart user.passwd.bytes attempt.bytes) :
    passwdHash attempt ≠ passwdHash user.passwd ∧
      ∃ users, run drpcServerAddUser hashtableCreate (before ++ user :: after) = .ok users ∧
        ∀ got, drpcAuthDeliver user.username attempt = .ok (some got) → ∃ message, got = ⟨.auth, some message⟩ ∧
          (∀ sent, drpcServerAuthResult users (.auth message) sent = .ok ⟨.bad, none⟩) ∧
          ∀ (registry : Registry) (s s' : ServerState) (c : Nat) (conn : Connection) (sent : Bool)
            (actions : List ServerAction), registry.users = users → s.crashed = false →
            s.connections[c]? = some conn → conn.phase = .auth →
            serverRun registry s (.receive c (.auth message) sent :: actions) = .ok s' → s'.Shut c := by
  have differ := passwdHash_ne short apart
  obtain ⟨users, added, found⟩ := addUsers_last before after user last
  refine ⟨differ, users, added, fun got delivered => ?_⟩
  obtain ⟨message, name, hash, arrived, getName, text, getHash, value⟩ := drpcAuthDeliver_arrives delivered
  have wrong : user.record.hash ≠ (passwdHash attempt).toNat := fun same => differ (UInt64.toNat_inj.mp same).symm
  have rejected := drpcServerClientAuth_wrong getName text getHash found value wrong
  refine ⟨message, arrived, fun sent => ?_, ?_⟩
  · rw [drpcServerAuthResult, rejected]
    rfl
  · intro registry s s' c conn sent actions registered running at_c waiting ran
    rw [← registered] at rejected
    obtain ⟨middle, first, rest⟩ := bind_eq_ok.mp ran
    cases first
    have shut := ServerState.rejected_shut running at_c waiting rejected sent
    exact run_invariant (fun s => ServerState.Shut s c) (fun s action s' held stepped => by
      cases stepped
      exact held.step action) shut rest

set_option maxRecDepth 10000 in
theorem wrongByte_rejected_hunter : ∃ users message,
    run drpcServerAddUser hashtableCreate [⟨.ofString "bob", .ofString "hunter2", 3⟩] = .ok users ∧
      drpcAuthDeliver (.ofString "bob") (.ofString "hunter3") = .ok (some ⟨.auth, some message⟩) ∧
      drpcServerAuthResult users (.auth message) true = .ok ⟨.bad, none⟩ := by
  have apart : OneByteApart (CString.ofString "hunter2").bytes (CString.ofString "hunter3").bytes :=
    oneByteApart_iff.mpr ⟨(CString.ofString "hunter").bytes, 50, 51, [], by decide, by decide, by decide⟩
  obtain ⟨-, users, added, rejects⟩ := wrongByte_rejected [] [] ⟨.ofString "bob", .ofString "hunter2", 3⟩
    (by simp) (.ofString "hunter3") (by decide) apart
  obtain ⟨got, delivered⟩ : ∃ got, drpcAuthDeliver (.ofString "bob") (.ofString "hunter3") = .ok (some got) := ⟨_, rfl⟩
  obtain ⟨message, rfl, refused, -⟩ := rejects got delivered
  exact ⟨users, message, added, delivered, refused true⟩

end DynamicRPC
