import DynamicRPC.Delivery
import DynamicRPC.HashtableMap
import DynamicRPC.PasswordHash

namespace DynamicRPC
open Outcome Runs

/-! From the `drpc_auth` message to the key of a connection, at both ends. -/

/-- `struct drpc_user`, with the bytes that its keys are made from. -/
structure KeyedUser extends DrpcUser where
  aes128Passwd : StateT

/-- A block by its bytes. -/
def blockOf (byte : Nat → UInt8) : StateT :=
  ⟨⟨byte 0, byte 1, byte 2, byte 3⟩, ⟨byte 4, byte 5, byte 6, byte 7⟩, ⟨byte 8, byte 9, byte 10, byte 11⟩,
    ⟨byte 12, byte 13, byte 14, byte 15⟩⟩

/-- `cpylen`: the characters of a password that fit into 16 bytes. -/
def cpylen (passwd : CString) : Nat := if 16 < passwd.bytes.length then 16 else passwd.bytes.length

/-- `aes128_passwd`: zeros, with the first `cpylen` characters copied over them. -/
def aes128Passwd (passwd : CString) : StateT :=
  blockOf fun i => if i < cpylen passwd then passwd.bytes.getD i 0 else 0

/-- The loop that fills `aes128_key`. -/
def aes128Key (xorBase passwd : StateT) : StateT := xorBase.zipWith Quad.add passwd

def AddUser.keyedRecord (user : AddUser) : KeyedUser := ⟨user.record, aes128Passwd user.passwd⟩

/-- `drpc_server_add_user`, with all it writes. -/
def drpcServerAddKeyedUser (users : Hashtable KeyedUser) (user : AddUser) : Outcome (Hashtable KeyedUser) :=
  hashtableSet users user.username user.keyedRecord

/-- A client that `drpc_server_client_auth` lets in. -/
structure LetIn where
  username : CString
  perm : Int
  key : StateT

/-- The reply of `drpc_server_client_auth`, and the client if the reply lets it in. -/
structure AuthReply where
  send : DrpcMessage
  client : Option LetIn

def AuthReply.bad : AuthReply := ⟨⟨.bad, none⟩, none⟩

/-- `drpc_server_client_auth` from the first message to its reply, where
`xorBase` is what `arc4random_buf` gives. -/
def drpcServerAuthReply (users : Hashtable KeyedUser) (xorBase : StateT) (recv : DrpcMessage) : Outcome AuthReply :=
  match recv.messageType, recv.message with
  | .auth, some message => do
    let found ← dStructGet message (CString.ofString "username") .dStr
    match found with
    | none => pure .bad
    | some name => do
      let found ← dStructGet message (CString.ofString "passwd_hash") .dUint64
      match found with
      | none => pure .bad
      | some hash => do
        let passwdHash ← hash.asUint64
        let _ ← dStructUnlink message (CString.ofString "username")
        let username ← name.asStr
        let found ← hashtableGet users username
        match found with
        | none => pure .bad
        | some user =>
          if user.hash ≠ passwdHash then pure .bad
          else do
            let message ← dStructSet newDStruct (CString.ofString "encrypt_xor") (.element (.sizedbuf (storeBlock xorBase)))
            pure ⟨⟨.ok, some message⟩, some ⟨username, user.perm, aes128Key xorBase user.aes128Passwd⟩⟩
  | _, _ => pure .bad

/-- The bytes behind a `d_sizedbuf` element. -/
def Element.asSizedbuf : Element → List UInt8
  | .sizedbuf block => block
  | _ => []

/-- What `drpc_client_connect` makes of the reply: the key of the connection, or
`none` where it gives the host up. It asserts that the reply carries a struct,
and reads 16 bytes of the buffer whatever its length. -/
def drpcClientKey (passwd : CString) (recv : DrpcMessage) : Outcome (Option StateT) :=
  if recv.messageType ≠ .ok then pure none
  else
    match recv.message with
    | none => .error .assertion
    | some message => do
      let found ← dStructGet message (CString.ofString "encrypt_xor") .dSizedbuf
      match found with
      | none => pure none
      | some buf => do
        let (xorBase, _) ← loadBlock buf.asSizedbuf
        pure (some (aes128Key xorBase (aes128Passwd passwd)))

/-- What becomes of an attempt to connect: the client that the server serves, and
the key that the client goes on with. -/
structure Connected where
  server : Option LetIn
  client : Option StateT

/-- A connection from `drpc_client_connect` to the two keys, over an `io` that has none yet. -/
def drpcConnect (users : Hashtable KeyedUser) (xorBase : StateT) (username passwd : CString) :
    Outcome (Option Connected) := do
  let request ← drpcClientAuth username passwd
  let arrived ← drpcTcpDeliver none request
  match arrived with
  | none => pure none
  | some recv => do
    let reply ← drpcServerAuthReply users xorBase recv
    let answered ← drpcTcpDeliver none reply.send
    match answered with
    | none => pure none
    | some recv => do
      let key ← drpcClientKey passwd recv
      pure (some ⟨reply.client, key⟩)

section Passwd
variable (passwd other : CString)

theorem storeBlock_blockOf (byte : Nat → UInt8) {i : Nat} (within : i < 16) :
    (storeBlock (blockOf byte))[i]? = some (byte i) := by
  interval_cases i <;> rfl

theorem blockOf_inj {byte byte' : Nat → UInt8} : blockOf byte = blockOf byte' ↔ ∀ i < 16, byte i = byte' i := by
  constructor
  · intro same i within
    have stored := storeBlock_blockOf byte within
    rw [same, storeBlock_blockOf byte' within] at stored
    exact (Option.some.inj stored).symm
  · intro same
    simp [blockOf, same]

theorem cpylen_eq : cpylen passwd = min 16 passwd.bytes.length := by
  unfold cpylen
  split <;> omega

/-- A byte of `aes128_passwd` is a character, or zero behind the last one. -/
theorem aes128Passwd_byte (i : Nat) : (if i < cpylen passwd then passwd.bytes.getD i 0 else 0) =
    (passwd.bytes.take 16)[i]?.getD 0 := by
  rw [cpylen_eq, List.getElem?_take, List.getD_eq_getElem?_getD]
  by_cases within : i < 16
  · rw [if_pos within]
    by_cases inside : i < passwd.bytes.length
    · rw [if_pos (by omega)]
    · rw [if_neg (by omega), List.getElem?_eq_none (by omega), Option.getD_none]
  · rw [if_neg within, if_neg (by omega), Option.getD_none]

theorem CString.take_ne_zero (s : CString) (n i : Nat) : (s.bytes.take n)[i]? ≠ some 0 :=
  fun zero => s.nulFree (List.mem_of_mem_take (List.mem_of_getElem? zero))

theorem Option.getD_zero_inj {a b : Option UInt8} (ha : a ≠ some 0) (hb : b ≠ some 0) (same : a.getD 0 = b.getD 0) :
    a = b := by
  cases a <;> cases b <;> simp_all [eq_comm]

/-- Passwords make the same bytes exactly when their first 16 characters agree:
no character is the zero that fills up. -/
theorem aes128Passwd_inj : aes128Passwd passwd = aes128Passwd other ↔ passwd.bytes.take 16 = other.bytes.take 16 := by
  unfold aes128Passwd
  simp only [aes128Passwd_byte, blockOf_inj]
  refine ⟨fun same => List.ext_getElem? fun i => ?_, fun same i _ => by rw [same]⟩
  by_cases within : i < 16
  · have here := same i within
    have nonzero := passwd.take_ne_zero 16 i
    have nonzero' := other.take_ne_zero 16 i
    exact Option.getD_zero_inj nonzero nonzero' here
  · rw [List.getElem?_eq_none (by rw [List.length_take]; omega), List.getElem?_eq_none (by rw [List.length_take]; omega)]

theorem aes128Key_inj (xorBase passwd other : StateT) : aes128Key xorBase passwd = aes128Key xorBase other ↔ passwd = other := by
  have swap (block : StateT) : aes128Key xorBase block = xorWithIv block xorBase := by
    ext : 1 <;> exact Quad.add_comm ..
  rw [swap, swap, xorWithIv_left_inj]

end Passwd

/-! The users of a server. -/

theorem mapKey_get {V W : Type} (t : Hashtable V) (g : V → W) (key : CString) :
    hashtableGet (t.mapKey fun _ value => g value) key = Option.map g <$> hashtableGet t key := by
  rw [hashtableGet, hashtableGet, Hashtable.mapKey_findSlot]
  cases hashtableFindSlot t key with
  | error fault => rfl
  | ok index =>
    rw [ok_bind, ok_bind, Hashtable.mapKey_slot]
    cases t.body[index]? with
    | none => rfl
    | some entry => cases entry <;> rfl

/-- The reply goes with the level that `drpcServerClientAuth` finds. -/
theorem drpcServerAuthReply_level {users : Hashtable KeyedUser} {xorBase : StateT} {message : DStruct Element}
    {reply : AuthReply} {level : Option Int}
    (ran : drpcServerAuthReply users xorBase ⟨.auth, some message⟩ = .ok reply)
    (found : drpcServerClientAuth (users.mapKey fun _ user => user.toDrpcUser) (.auth message) = .ok level) :
    level = reply.client.map LetIn.perm := by
  obtain ⟨name, getName, ran⟩ := bind_eq_ok.mp ran
  simp only [ClientMessage.auth, drpcServerClientAuth] at found
  rw [getName, ok_bind] at found
  cases name with
  | none =>
    cases ran
    cases found
    rfl
  | some name =>
    obtain ⟨hash, getHash, ran⟩ := bind_eq_ok.mp ran
    dsimp only at found
    rw [getHash, ok_bind] at found
    cases hash with
    | none =>
      cases ran
      cases found
      rfl
    | some hash =>
      obtain ⟨passwdHash, read, ran⟩ := bind_eq_ok.mp ran
      obtain ⟨unlinked, -, ran⟩ := bind_eq_ok.mp ran
      obtain ⟨username, text, ran⟩ := bind_eq_ok.mp ran
      obtain ⟨user, get, ran⟩ := bind_eq_ok.mp ran
      dsimp only at found
      rw [read, ok_bind, text, ok_bind, mapKey_get, get] at found
      cases user with
      | none =>
        cases ran
        cases found
        rfl
      | some user =>
        obtain ⟨user', same, found⟩ := bind_eq_ok.mp found
        cases same
        dsimp only [Option.map_some] at ran found
        by_cases wrong : user.hash ≠ passwdHash
        · rw [if_pos wrong] at ran found
          cases ran
          cases found
          rfl
        · rw [if_neg wrong] at ran found
          obtain ⟨payload, -, ran⟩ := bind_eq_ok.mp ran
          cases ran
          cases found
          rfl

theorem drpcServerAddKeyedUser_returns {users : Hashtable KeyedUser} (kept : users.NeverRemoved) (user : AddUser) :
    ∃ users', drpcServerAddKeyedUser users user = .ok users' ∧ users'.NeverRemoved ∧
      users'.lookup = Function.update users.lookup user.username (some user.keyedRecord) :=
  kept.set user.username user.keyedRecord

/-- The user that some calls have left under a name: that of the last call with it. -/
def lastUser (calls : List AddUser) (username : CString) : Option AddUser :=
  calls.reverse.find? fun user => user.username = username

theorem addKeyedUsers_returns (calls : List AddUser) :
    ∃ users, run drpcServerAddKeyedUser hashtableCreate calls = .ok users ∧ users.NeverRemoved ∧
      ∀ username, users.lookup username = (lastUser calls username).map AddUser.keyedRecord := by
  induction calls using List.reverseRecOn with
  | nil =>
    refine ⟨hashtableCreate, rfl, .start, fun username => ?_⟩
    rw [Hashtable.lookup, hashtableCreate_bindings]
    rfl
  | append_singleton calls user ih =>
    obtain ⟨users, ran, kept, held⟩ := ih
    obtain ⟨users', added, kept', held'⟩ := drpcServerAddKeyedUser_returns kept user
    refine ⟨users', ?_, kept', fun username => ?_⟩
    · rw [run_append, ran, ok_bind, run_cons, added]
      rfl
    · rw [held', lastUser, List.reverse_append, List.reverse_singleton, List.singleton_append, List.find?_cons]
      by_cases same : username = user.username
      · subst same
        rw [Function.update_self]
        simp
      · rw [Function.update_of_ne same, decide_eq_false (Ne.symm same), held]
        rfl

/-! Over the wire. -/

section Connect
variable {username passwd : CString} {users : Hashtable KeyedUser}

/-- No name is longer than what an object in memory can hold. -/
theorem drpcClientAuth_sendable (short : username.bytes.length < 2 ^ 62) :
    ∃ auth, drpcClientAuth username passwd = .ok ⟨.auth, some auth⟩ ∧ DrpcMessage.Sendable ⟨.auth, some auth⟩ := by
  let secret : Element :=
    .packed DrpcTypes.dUint64.toChar ⟨DrpcTypes.dUint64.toChar, LittleEndian.encode 8 (passwdHash passwd).toNat⟩
  obtain ⟨named, first, one⟩ := DStruct.Filled.start.set (CString.ofString "username") (Element.str username.block)
    List.not_mem_nil
  obtain ⟨auth, second, two⟩ := one.set (CString.ofString "passwd_hash") secret (by
    simp only [List.nil_append, List.map_cons, List.map_nil]
    decide)
  refine ⟨auth, ?_, sendable_struct .auth ?_ ?_ ?_⟩
  · rw [drpcClientAuth, first, ok_bind, second]
    rfl
  · refine .dstruct two.wf fun key e member => ?_
    rcases List.mem_cons.mp (two.bindings.mem_iff.mp member) with same | rest
    · cases same
      exact .str (by simp [CString.block])
    · cases List.mem_singleton.mp rest
      exact @Element.Wf.packed .dUint64 _ (by rw [LittleEndian.encode_length]; rfl)
  · refine .dstruct fun key e member => ?_
    rcases List.mem_cons.mp (two.bindings.mem_iff.mp member) with same | rest
    · cases same
      exact .str
    · cases List.mem_singleton.mp rest
      exact .packed
  · have name : (Element.str username.block).record.packedData.length = username.bytes.length + 1 := by
      have record : (Element.str username.block).record = strToDrpc username :=
        Element.record_str (CString.read_append username [])
      rw [record, strToDrpc, CString.block, List.length_append, List.length_singleton]
    have first : (CString.ofString "username").bytes.length = 8 := by decide
    have second : (CString.ofString "passwd_hash").bytes.length = 11 := by decide
    rw [fieldsBuf_perm_length two.bindings]
    refine (fieldsBuf_length_le _).trans_lt ?_
    simp only [List.nil_append, List.cons_append, List.map_cons, List.map_nil, List.sum_cons, List.sum_nil,
      Element.record_packed, secret, LittleEndian.encode_length, name, first, second]
    omega

/-- The reply that lets a client in holds `xorBase` and nothing else. -/
theorem encryptXor_set (xorBase : StateT) : ∃ d : DStruct Element,
    dStructSet newDStruct (CString.ofString "encrypt_xor") (.element (.sizedbuf (storeBlock xorBase))) = .ok d ∧
      d.Filled [(CString.ofString "encrypt_xor", .sizedbuf (storeBlock xorBase))] :=
  DStruct.Filled.start.set _ _ List.not_mem_nil

theorem encryptXor_sendable {xorBase : StateT} {d : DStruct Element}
    (filled : d.Filled [(CString.ofString "encrypt_xor", .sizedbuf (storeBlock xorBase))]) :
    DrpcMessage.Sendable ⟨.ok, some d⟩ := by
  refine sendable_struct .ok ?_ ?_ ?_
  · refine .dstruct filled.wf fun key e member => ?_
    cases List.mem_singleton.mp (filled.bindings.mem_iff.mp member)
    exact .sizedbuf
  · refine .dstruct fun key e member => ?_
    cases List.mem_singleton.mp (filled.bindings.mem_iff.mp member)
    exact .sizedbuf
  · have key : (CString.ofString "encrypt_xor").bytes.length = 11 := by decide
    rw [fieldsBuf_perm_length filled.bindings]
    refine (fieldsBuf_length_le _).trans_lt ?_
    simp only [List.map_cons, List.map_nil, List.sum_cons, List.sum_nil, Element.record_sizedbuf, sizedbufToDrpc,
      storeBlock_length, key]
    omega

theorem Element.value_sizedbuf {e : Element} {block : List UInt8} (same : e.value = (Element.sizedbuf block).value) :
    e = .sizedbuf block := by
  cases e <;> cases same
  rfl

/-- What a client makes of a reply that lets it in. -/
theorem drpcClientKey_arrives {xorBase : StateT} {d : DStruct Element} {got : DrpcMessage}
    (filled : d.Filled [(CString.ofString "encrypt_xor", .sizedbuf (storeBlock xorBase))])
    (arrives : DrpcMessage.Arrives ⟨.ok, some d⟩ got) (passwd : CString) :
    drpcClientKey passwd got = .ok (some (aes128Key xorBase (aes128Passwd passwd))) := by
  obtain ⟨message, carried, value, wf, compact⟩ := arrives.message d rfl
  have held : d.hashtable.lookup (CString.ofString "encrypt_xor") = some (.sizedbuf (storeBlock xorBase)) := by
    rw [filled.lookup]
    rfl
  obtain ⟨buf, get, same, -, -⟩ := DStruct.get_of_value value wf compact held
  cases Element.value_sizedbuf same
  have found : dStructGet message (CString.ofString "encrypt_xor") .dSizedbuf = .ok (some (.sizedbuf (storeBlock xorBase))) :=
    dStructGet_of_get get rfl
  have ok : got.messageType = .ok := arrives.messageType
  have load := loadBlock_storeBlock xorBase []
  rw [List.append_nil] at load
  rw [drpcClientKey, if_neg (not_not.mpr ok), carried]
  dsimp only
  rw [found, ok_bind]
  dsimp only [Element.asSizedbuf]
  rw [load]
  rfl

/-- What the server answers to the message of a client, by the record of its name. -/
theorem drpcServerAuthReply_arrives {got : DrpcMessage} (xorBase : StateT) (kept : users.NeverRemoved)
    (delivered : drpcAuthDeliver username passwd = .ok (some got)) (isOpen : ∀ d, got.message = some d → d.hashtable.Open) :
    (∃ user d, users.lookup username = some user ∧ user.hash = (passwdHash passwd).toNat ∧
        d.Filled [(CString.ofString "encrypt_xor", .sizedbuf (storeBlock xorBase))] ∧
        drpcServerAuthReply users xorBase got =
          .ok ⟨⟨.ok, some d⟩, some ⟨username, user.perm, aes128Key xorBase user.aes128Passwd⟩⟩) ∨
      ((∀ user, users.lookup username = some user → user.hash ≠ (passwdHash passwd).toNat) ∧
        drpcServerAuthReply users xorBase got = .ok .bad) := by
  obtain ⟨message, name, hash, rfl, getName, text, getHash, value⟩ := drpcAuthDeliver_arrives delivered
  obtain ⟨unlinked, unlink, -⟩ := dStructUnlink_open (CString.ofString "username") (isOpen message rfl)
  simp only [drpcServerAuthReply]
  rw [getName, ok_bind]
  dsimp only
  rw [getHash, ok_bind]
  dsimp only
  rw [value, ok_bind, unlink, ok_bind, text, ok_bind, kept.isOpen.get, ok_bind]
  cases users.lookup username with
  | none =>
    refine Or.inr ⟨fun user held => ?_, rfl⟩
    cases held
  | some user =>
    dsimp only
    by_cases same : user.hash = (passwdHash passwd).toNat
    · obtain ⟨d, set, filled⟩ := encryptXor_set xorBase
      refine Or.inl ⟨user, d, rfl, same, filled, ?_⟩
      rw [if_neg (not_not.mpr same), set]
      rfl
    · refine Or.inr ⟨fun other held => ?_, ?_⟩
      · cases held
        exact same
      · rw [if_pos same]
        rfl

end Connect

/-- What connecting means: a user whose password hash is that of the client is
served at its own level, and each end makes the key from the password it knows. -/
def connectSpec (calls : List AddUser) (xorBase : StateT) (username passwd : CString) : Connected :=
  match (lastUser calls username).filter fun user => passwdHash user.passwd == passwdHash passwd with
  | none => ⟨none, none⟩
  | some user => ⟨some ⟨username, user.perm, aes128Key xorBase (aes128Passwd user.passwd)⟩,
      some (aes128Key xorBase (aes128Passwd passwd))⟩

/-- Connecting does over the wire, through two messages and their containers,
exactly what it means: after any calls that add users, for any name, password
and random bytes. -/
theorem drpcConnect_eq (calls : List AddUser) (xorBase : StateT) (username passwd : CString)
    (short : username.bytes.length < 2 ^ 62) :
    ∃ users, run drpcServerAddKeyedUser hashtableCreate calls = .ok users ∧
      drpcConnect users xorBase username passwd = .ok (some (connectSpec calls xorBase username passwd)) := by
  obtain ⟨users, added, kept, held⟩ := addKeyedUsers_returns calls
  refine ⟨users, added, ?_⟩
  obtain ⟨auth, built, sendable⟩ := @drpcClientAuth_sendable username passwd short
  obtain ⟨recv, delivered, arrives⟩ := drpcTcpDeliver_delivers none sendable
  obtain ⟨arrived, inside, -, wf, compact⟩ := arrives.message auth rfl
  have whole : drpcAuthDeliver username passwd = .ok (some recv) := by
    rw [drpcAuthDeliver, built, ok_bind, delivered]
  have isOpen (d : DStruct Element) (carried : recv.message = some d) : d.hashtable.Open := by
    rw [inside] at carried
    cases carried
    exact DStruct.open_of_compact wf compact
  rw [drpcConnect, built, ok_bind, delivered, ok_bind]
  dsimp only
  rcases drpcServerAuthReply_arrives xorBase kept whole isOpen with
    ⟨user, d, found, same, filled, replied⟩ | ⟨refused, replied⟩
  · obtain ⟨answer, answered, arrives⟩ := drpcTcpDeliver_delivers none (encryptXor_sendable filled)
    rw [replied, ok_bind]
    dsimp only
    rw [answered, ok_bind]
    dsimp only
    rw [drpcClientKey_arrives filled arrives, ok_bind]
    rw [held] at found
    obtain ⟨last, at_last, record⟩ := Option.map_eq_some_iff.mp found
    cases record
    have hash : passwdHash last.passwd = passwdHash passwd := UInt64.toNat_inj.mp same
    rw [connectSpec, at_last, Option.filter_some, hash, beq_self_eq_true, if_pos rfl]
    rfl
  · obtain ⟨answer, answered, arrives⟩ := drpcTcpDeliver_delivers none (sendable_plain .bad)
    rw [replied, ok_bind]
    dsimp only [AuthReply.bad]
    rw [answered, ok_bind]
    dsimp only
    have bad : answer.messageType ≠ .ok := by
      rw [arrives.messageType]
      decide
    rw [drpcClientKey, if_pos bad]
    have none_left : ((lastUser calls username).filter fun user => passwdHash user.passwd == passwdHash passwd) = none := by
      cases at_last : lastUser calls username with
      | none => rfl
      | some last =>
        have other := refused last.keyedRecord (by rw [held, at_last]; rfl)
        rw [Option.filter_some, if_neg]
        intro same
        exact other (congrArg UInt64.toNat (beq_iff_eq.mp same))
    rw [connectSpec, none_left]
    rfl

/-- Connecting does over the wire what it means, and where it leaves two keys,
they are one exactly when the two passwords share their first 16 characters: then
every message that fits into a frame arrives, in both directions. -/
theorem drpcConnect_session (calls : List AddUser) (xorBase : StateT) (username passwd : CString)
    (short : username.bytes.length < 2 ^ 62) :
    ∃ users, run drpcServerAddKeyedUser hashtableCreate calls = .ok users ∧
      drpcConnect users xorBase username passwd = .ok (some (connectSpec calls xorBase username passwd)) ∧
      ∀ letIn key, connectSpec calls xorBase username passwd = ⟨some letIn, some key⟩ →
        ∃ user, lastUser calls username = some user ∧ letIn.perm = user.perm ∧
          (key = letIn.key ↔ passwd.bytes.take 16 = user.passwd.bytes.take 16) ∧
          (key = letIn.key → ∀ msg : DrpcMessage, msg.Sendable →
            (∃ got, drpcTcpDeliverTo (some (.ofKey key)) (some (.ofKey letIn.key)) msg = .ok (some got) ∧ msg.Arrives got) ∧
            ∃ got, drpcTcpDeliverTo (some (.ofKey letIn.key)) (some (.ofKey key)) msg = .ok (some got) ∧ msg.Arrives got) := by
  obtain ⟨users, added, ran⟩ := drpcConnect_eq calls xorBase username passwd short
  refine ⟨users, added, ran, fun letIn key agreed => ?_⟩
  rw [connectSpec] at agreed
  split at agreed
  · cases agreed
  · next user served =>
    obtain ⟨at_last, -⟩ := Option.filter_eq_some_iff.mp served
    cases agreed
    refine ⟨user, at_last, rfl, (aes128Key_inj ..).trans (aes128Passwd_inj ..), fun same msg sendable => ?_⟩
    dsimp only at same ⊢
    rw [same]
    exact ⟨ofKey_delivers _ sendable, ofKey_delivers _ sendable⟩

/-- A user that is added twice connects with the later password. -/
theorem drpcConnect_session_again : ∃ users,
    run drpcServerAddKeyedUser hashtableCreate
      [⟨.ofString "bob", .ofString "hunter2", 3⟩, ⟨.ofString "bob", .ofString "swordfish", 5⟩] = .ok users ∧
    drpcConnect users iv (.ofString "bob") (.ofString "swordfish") =
      .ok (some ⟨some ⟨.ofString "bob", 5, aes128Key iv (aes128Passwd (.ofString "swordfish"))⟩,
        some (aes128Key iv (aes128Passwd (.ofString "swordfish")))⟩) := by
  obtain ⟨users, added, ran, -⟩ := drpcConnect_session
    [⟨.ofString "bob", .ofString "hunter2", 3⟩, ⟨.ofString "bob", .ofString "swordfish", 5⟩] iv (.ofString "bob")
    (.ofString "swordfish") (by decide)
  exact ⟨users, added, ran⟩

theorem loadBlock_returns_iff (buf : List UInt8) : Returns (loadBlock buf) ↔ 16 ≤ buf.length := by
  constructor
  · rintro ⟨result, loaded⟩
    rw [loadBlock_inv loaded, List.length_append, storeBlock_length]
    omega
  · intro long
    obtain ⟨block, rest, rfl⟩ := exists_block long
    exact ⟨_, loadBlock_storeBlock block rest⟩

/-- A client gets over a reply exactly when one that lets it in carries a struct
whose buffer, if it has one, is as long as a block: nothing checks `xor_len`. -/
theorem drpcClientKey_returns_iff (passwd : CString) (recv : DrpcMessage)
    (isOpen : ∀ d, recv.message = some d → d.hashtable.Open) :
    Returns (drpcClientKey passwd recv) ↔ (recv.messageType = .ok → ∃ message, recv.message = some message ∧
      ∀ buf, message.hashtable.lookup (CString.ofString "encrypt_xor") = some buf →
        buf.type = DrpcTypes.dSizedbuf.toChar → 16 ≤ buf.asSizedbuf.length) := by
  unfold drpcClientKey
  by_cases ok : recv.messageType = .ok
  · rw [if_neg (not_not.mpr ok), forall_prop_of_true ok]
    cases carried : recv.message with
    | none =>
      refine iff_of_false (not_returns_error _) ?_
      rintro ⟨message, same, -⟩
      cases same
    | some message =>
      dsimp only
      rw [dStructGet, (isOpen message carried).get, ok_bind]
      simp only [Option.some.injEq, exists_eq_left']
      cases held : message.hashtable.lookup (CString.ofString "encrypt_xor") with
      | none =>
        refine iff_of_true (returns_ok _) fun buf same => ?_
        cases same
      | some buf =>
        rw [pure_eq_ok, ok_bind, Option.filter_some, show DStructElement.type buf = buf.type from rfl]
        simp only [Option.some.injEq, forall_eq']
        by_cases typed : buf.type = DrpcTypes.dSizedbuf.toChar
        · rw [if_pos (beq_iff_eq.mpr typed), forall_prop_of_true typed, ← loadBlock_returns_iff, returns_bind]
          exact ⟨fun read => ⟨read.choose, read.choose_spec.1⟩, fun read => ⟨read.choose, read.choose_spec, returns_ok _⟩⟩
        · rw [if_neg fun same => typed (beq_iff_eq.mp same)]
          exact iff_of_true (returns_ok _) fun same => absurd same typed
  · rw [if_pos ok]
    exact iff_of_true (returns_ok _) fun same => absurd same ok

/-- A server that answers with four bytes is read 12 bytes too far. -/
theorem drpcClientKey_returns_iff_short : ∃ d : DStruct Element,
    dStructSet newDStruct (CString.ofString "encrypt_xor") (.element (.sizedbuf [1, 2, 3, 4])) = .ok d ∧
      ¬ Returns (drpcClientKey (.ofString "hunter2") ⟨.ok, some d⟩) := by
  obtain ⟨d, set, filled⟩ := DStruct.Filled.start.set (CString.ofString "encrypt_xor") (Element.sizedbuf [1, 2, 3, 4])
    List.not_mem_nil
  refine ⟨d, set, fun returns => ?_⟩
  have isOpen (d' : DStruct Element) (carried : some d = some d') : d'.hashtable.Open := by
    cases carried
    exact ⟨filled.table, filled.room⟩
  obtain ⟨message, same, long⟩ := (drpcClientKey_returns_iff (.ofString "hunter2") ⟨.ok, some d⟩ isOpen).mp returns rfl
  cases same
  have held : d.hashtable.lookup (CString.ofString "encrypt_xor") = some (.sizedbuf [1, 2, 3, 4]) := by
    rw [filled.lookup]
    rfl
  exact absurd (long _ held rfl) (by decide)

end DynamicRPC
