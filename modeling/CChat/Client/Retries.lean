import CChat.Client.KeyLoading
import CChat.Client.Outcomes
import CChat.Client.Registration

namespace CChat.Client.Retries

open CChat.Library CChat.Protocol.Types CChat.Protocol.Wire CChat.Client.Network
  CChat.Client.Crypto CChat.Client.KeyFiles CChat.Client.KeyLoading CChat.Client.Registration
  CChat.Client.Requests CChat.Client.Outcomes
open CChat.Server.State hiding Env malloc send
open CChat.Server.Users CChat.Server.Loop CChat.Server.Names CChat.Server.Invariants
  CChat.Server.History CChat.Server.Registry CChat.Server.Registrations

/-- A call of `register_user`: what the library gives it, how the files and the
network behave, and what is typed. -/
structure Attempt where
  sodium : Sodium
  initialized : Bool
  turns : ℕ
  faults : Faults
  terminal : Terminal
  client : ClientState
  password : Bytes
  confirm : Bytes

def call (username : Bytes) (disk : Disk) (a : Attempt) : Registered :=
  registerUser a.sodium a.initialized a.turns { disk with faults := a.faults } a.terminal a.client
    a.password a.confirm username

def attempt (username : Bytes) (disk : Disk) (a : Attempt) : Disk := (call username disk a).disk

def ServerFailed (username : Bytes) (disk : Disk) (a : Attempt) : Prop :=
  ∃ e, (call username disk a).serverResult = some e ∧ e ≠ .success

/-- Nothing on the user's side keeps the call from its end: a keypair is made, a
password is typed twice and no file operation fails. -/
structure Undisturbed (username : Bytes) (disk : Disk) (a : Attempt) : Prop where
  home : ∃ home, disk.home = some home ∧ (keysPath home username).length < pathMax
  typed : ∃ publicKey privateKey password confirm t r,
    (generateKeypair a.sodium a.initialized).1 = .ok (publicKey, privateKey) ∧
      passwordLoop a.turns a.password a.confirm a.terminal = .confirmed password confirm t ∧
      sealedRecord a.sodium publicKey privateKey (cString password) = some r
  faults : a.faults = .none

structure Reaches (verify : Signature → Challenge → Key → Bool) (w : World) (i : ℕ) (fd : Fd)
    (env : ServerEnv) (a : Attempt) : Prop where
  client : ∃ clientEnv, Reliable clientEnv ∧
    a.client = ClientState.initial { clientEnv with connects := [some (farEnd verify w i fd env)] }
  unheard : Unheard w i fd
  faultless : env.Faultless

def Finished (verify : Signature → Challenge → Key → Bool) (w : World) (i : ℕ) (env : ServerEnv)
    (username : Username) (disk : Disk) (a : Attempt) : Prop :=
  let done := call username.bytes disk a
  let after := served verify w i env done.client.channel.written
  ∃ home content k, disk.home = some home ∧
    done.disk.files (keysPath home username.bytes) = some content ∧
    findUser after.server username = some k ∧
    (after.server.users k).publicKey.toList = publicPart content

variable {verify : Signature → Challenge → Key → Bool} {w : World} {i : ℕ} {fd : Fd}
  {env : ServerEnv} {sodium : Sodium} {disk : Disk} {username password : Bytes}
  {publicKey privateKey : Key} {a : Attempt}

theorem saveKeysToFile_success
    (h : (saveKeysToFile sodium disk username publicKey privateKey password).result = .success) :
    ∃ home, disk.home = some home ∧ (keysPath home username).length < pathMax ∧
      (saveKeysToFile sodium disk username publicKey privateKey password).disk.home = some home ∧
      ((saveKeysToFile sodium disk username publicKey privateKey password).disk.files
        (keysPath home username)).isSome = true := by
  cases hopened : opened sodium disk username publicKey privateKey password with
  | none => exact absurd h (saveKeysToFile_unopened hopened).1
  | some o =>
    obtain ⟨path, r⟩ := o
    obtain ⟨hpath, _, made, secrets, hmade, _, _, hsaved⟩ := saveKeysToFile_opened hopened
    obtain ⟨home, hhome, rfl⟩ := Option.map_eq_some_iff.mp hpath
    refine ⟨home, hhome, (opened_path hhome hopened).2, ?_⟩
    rw [hsaved] at h ⊢
    split at h
    next hwhole =>
      rw [if_pos hwhole]
      exact ⟨hmade.trans hhome, by rw [fclose, Disk.put]; simp⟩
    · cases h

inductive Course (sodium : Sodium) (disk : Disk) (c : ClientState) (username : Bytes) :
    Registered → Prop
  | stopped (result : Option CchatError) (t : Terminal) :
      Course sodium disk c username ⟨result, disk, t, c, [], none, []⟩
  | unsaved (publicKey privateKey : Key) (password : Bytes) (t : Terminal) (secrets : List Bytes)
      (hsaved : (saveKeysToFile sodium disk username publicKey privateKey password).result ≠
        .success) :
      Course sodium disk c username
        ⟨some (saveKeysToFile sodium disk username publicKey privateKey password).result,
          (saveKeysToFile sodium disk username publicKey privateKey password).disk, t, c,
          [password], none, secrets⟩
  | saved (publicKey privateKey : Key) (password : Bytes) (t : Terminal) (c' : ClientState)
      (serverResult : CchatError) (secrets : List Bytes)
      (hsaved : (saveKeysToFile sodium disk username publicKey privateKey password).result =
        .success) :
      Course sodium disk c username ⟨some .success,
        (saveKeysToFile sodium disk username publicKey privateKey password).disk, t, c',
        [password], some serverResult, secrets⟩

theorem registerUser_course (sodium : Sodium) (initialized : Bool) (turns : ℕ) (disk : Disk)
    (t : Terminal) (c : ClientState) (password confirm username : Bytes) :
    Course sodium disk c username
      (registerUser sodium initialized turns disk t c password confirm username) := by
  unfold registerUser
  dsimp only
  split
  · exact .stopped _ t
  split
  · exact .stopped _ t
  split
  · exact .stopped _ t
  split
  · exact .stopped _ t
  split
  · exact .stopped _ t
  next t' _ => exact .stopped _ t'
  next password _ t' _ =>
    split
    next hfails => exact .unsaved _ _ _ t' _ hfails
    next hsaved =>
      rw [not_not] at hsaved
      split
      · exact .saved _ _ _ t' _ _ _ hsaved
      · exact .saved _ _ _ t' _ _ _ hsaved

/-- A call that comes to its server part leaves a key file. -/
theorem call_saved {e : CchatError} (h : (call username disk a).serverResult = some e) :
    ∃ home, disk.home = some home ∧ (keysPath home username).length < pathMax ∧
      (attempt username disk a).home = some home ∧
      ((attempt username disk a).files (keysPath home username)).isSome = true := by
  unfold attempt
  have hcourse := registerUser_course a.sodium a.initialized a.turns { disk with faults := a.faults }
    a.terminal a.client a.password a.confirm username
  change Course _ _ _ _ (call username disk a) at hcourse
  generalize call username disk a = done at h hcourse ⊢
  cases hcourse with
  | stopped => cases h
  | unsaved => cases h
  | saved _ _ _ _ _ _ _ hsaved => exact saveKeysToFile_success hsaved

/-- Where a key file is, the call stops before it does anything. -/
theorem call_refused {home : Bytes} (hhome : disk.home = some home)
    (hpath : (keysPath home username).length < pathMax)
    (hfile : (disk.files (keysPath home username)).isSome = true) :
    call username disk a =
      ⟨some .auth, { disk with faults := a.faults }, a.terminal, a.client, [], none, []⟩ := by
  unfold call registerUser
  dsimp only
  rw [hhome]
  dsimp only
  rw [if_neg (Nat.not_le_of_lt hpath), if_pos hfile]

/-- After one failed server part no other call comes to its own. -/
theorem failed_once {b : Attempt} {rest : List Attempt} (hfailed : ServerFailed username disk a)
    (hrest : Runs.Along (attempt username) (ServerFailed username) (attempt username disk a)
      (b :: rest)) : False := by
  obtain ⟨e, he, _⟩ := hfailed
  obtain ⟨home, _, hpath, hhome, hfile⟩ := call_saved he
  obtain ⟨⟨e', he', _⟩, _⟩ := hrest
  rw [call_refused hhome hpath hfile] at he'
  cases he'

theorem sendAll_appends (c : ClientState) (bytes : Bytes) :
    ∃ rest, (sendAll c bytes).2.channel.written = c.channel.written ++ rest := by
  unfold sendAll send
  dsimp only
  split
  next n hn =>
    split
    · exact ⟨_, rfl⟩
    · exact ⟨_, rfl⟩
    · exact ⟨[], (List.append_nil _).symm⟩
  next broken hbroken =>
    refine ⟨[], ?_⟩
    rw [List.append_nil]
    split at hbroken
    · cases hbroken
    · cases hbroken
    · split <;> rfl

theorem sendNetworkMessage_appends (c : ClientState) (type : UInt8) (payload : Bytes) :
    ∃ rest, (sendNetworkMessage c type payload).2.channel.written = c.channel.written ++ rest := by
  obtain ⟨rest, hheader⟩ := sendAll_appends c (frameHeader type payload.length)
  obtain ⟨rest', hbody⟩ := sendAll_appends (sendAll c (frameHeader type payload.length)).2 payload
  rw [hheader, List.append_assoc] at hbody
  unfold sendNetworkMessage
  dsimp only
  split_ifs
  · exact ⟨[], (List.append_nil _).symm⟩
  · exact ⟨rest, hheader⟩
  · exact ⟨_, hbody⟩
  · exact ⟨_, hbody⟩
  · exact ⟨rest, hheader⟩

theorem disconnect_appends (c : ClientState) :
    ∃ rest, (disconnectFromServer c).2.channel.written = c.channel.written ++ rest := by
  unfold disconnectFromServer
  split
  · exact ⟨[], (List.append_nil _).symm⟩
  · dsimp only [close]
    split
    · exact sendNetworkMessage_appends c 0x08 []
    · exact ⟨[], (List.append_nil _).symm⟩

theorem served_first {type : UInt8} {payload : Bytes} (hfits : payload.length < 2 ^ 32)
    (rest : Bytes) : ∃ xs, served verify w i env (packet type payload ++ rest) =
      Runs.run (step verify) (step verify w (.receive i (packet type payload) env)) xs := by
  have hd := Framing.decode_encode codec (type, payload) hfits rest
  have hframes : (Framing.decode codec (packet type payload ++ rest)).1 =
      (type, payload) :: (Framing.decode codec rest).1 := congrArg Prod.fst hd
  rw [served, hframes]
  exact ⟨_, rfl⟩

/-- The call behind a save that succeeds and a connection that is made. -/
theorem registerUser_through {initialized : Bool} {turns : ℕ} {t t' : Terminal} {c : ClientState}
    {typed typed' confirm confirm' home : Bytes} (hhome : disk.home = some home)
    (hpath : (keysPath home username).length < pathMax)
    (hfile : disk.files (keysPath home username) = none)
    (hkeys : (generateKeypair sodium initialized).1 = .ok (publicKey, privateKey))
    (hloop : passwordLoop turns typed confirm t = .confirmed typed' confirm' t')
    (hsaved : (saveKeysToFile sodium disk username publicKey privateKey
      (cString typed')).result = .success)
    (hconnected : (connectToServer c).1 = .success) :
    (registerUser sodium initialized turns disk t c typed confirm username).disk =
        (saveKeysToFile sodium disk username publicKey privateKey (cString typed')).disk ∧
      (registerUser sodium initialized turns disk t c typed confirm username).client =
        (disconnectFromServer
          (registerUserWithServer (connectToServer c).2 username publicKey).2).2 := by
  unfold registerUser
  rw [hhome]
  dsimp only
  rw [if_neg (Nat.not_le_of_lt hpath), hfile, if_neg (by decide), hkeys]
  dsimp only
  rw [hloop]
  dsimp only
  rw [if_neg (not_not.mpr hsaved), if_pos hconnected]
  exact ⟨rfl, rfl⟩

theorem saveKeysToFile_faultless {home : Bytes} {r : Record} (hhome : disk.home = some home)
    (hpath : (keysPath home username).length < pathMax) (hfaults : disk.faults = .none)
    (hsealed : sealedRecord sodium publicKey privateKey password = some r) :
    (saveKeysToFile sodium disk username publicKey privateKey password).result = .success ∧
      (saveKeysToFile sodium disk username publicKey privateKey password).disk.files
        (keysPath home username) = some r.bytes := by
  have hdirectory : (keysDirectory home).length < pathMax := by
    rw [keysPath, List.length_append, List.length_append, List.length_append] at hpath
    omega
  have hmade : (createKeysDirectory disk).1 = .success := by
    rw [createKeysDirectory, hhome, hfaults]
    dsimp only
    rw [if_neg (Nat.not_le_of_lt hdirectory)]
    split <;> rfl
  have hopened : opened sodium disk username publicKey privateKey password =
      some (keysPath home username, r) := by
    rw [opened, if_pos hmade, hhome, Option.bind_some, if_pos ⟨hpath, by rw [hfaults]; rfl⟩, hsealed]
    rfl
  have hwhole : (fwriteAll disk.faults.fwrites r.parts).1 = true := by
    rw [hfaults]
    exact fwriteAll_faultless r.parts
  have hbytes : (fwriteAll disk.faults.fwrites r.parts).2 = r.bytes := fwriteAll_whole hwhole
  obtain ⟨_, _, made, secrets, _, _, hsame, hsaved⟩ := saveKeysToFile_opened hopened
  have hflushed := (@flushed_iff disk (keysPath home username) r made hsame).mpr
    (by rw [Flushed, hfaults]; nofun)
  rw [hsaved, hbytes, if_pos hwhole]
  exact ⟨rfl, hflushed⟩

/-- A call that nothing disturbs saves a whole record and then takes its server
part on the connection it is given. -/
theorem call_undisturbed {home : Bytes} (hhome : disk.home = some home)
    (hfile : disk.files (keysPath home username) = none) (hlocal : Undisturbed username disk a)
    (hconnected : (connectToServer a.client).1 = .success) :
    ∃ r : Record, (call username disk a).disk.files (keysPath home username) = some r.bytes ∧
      (call username disk a).client = (disconnectFromServer
        (registerUserWithServer (connectToServer a.client).2 username r.publicKey).2).2 := by
  obtain ⟨home', hhome', hpath⟩ := hlocal.home
  obtain rfl := Option.some.inj (hhome.symm.trans hhome')
  obtain ⟨publicKey, privateKey, password, confirm, t, r, hkeys, hloop, hsealed⟩ := hlocal.typed
  obtain ⟨hsaved, hcontent⟩ := @saveKeysToFile_faultless a.sodium { disk with faults := a.faults }
    username (cString password) publicKey privateKey home r hhome hpath hlocal.faults hsealed
  obtain ⟨hdisk, hclient⟩ := @registerUser_through a.sodium { disk with faults := a.faults }
    username publicKey privateKey a.initialized a.turns a.terminal t a.client a.password password
    a.confirm confirm home hhome hpath hfile hkeys hloop hsaved hconnected
  refine ⟨r, ?_, ?_⟩
  · rw [call, hdisk]
    exact hcontent
  · rw [call, hclient, (sealedRecord_opens hsealed).1]

theorem publicPart_record (r : Record) : publicPart r.bytes = r.publicKey.toList := by
  have hfront : (r.salt.toList ++ r.nonce.toList).length = 40 := by
    rw [List.length_append, r.salt.toList_length, r.nonce.toList_length]
    rfl
  have hkey : r.publicKey.toList.length = publicKeySize := r.publicKey.toList_length
  rw [publicPart, Record.bytes_eq, ← List.append_assoc, List.drop_left' hfront,
    List.take_left' hkey]

/-- Where a key file is, the server hears nothing of the call. -/
theorem unfinished {username : Username} {home : Bytes} (hhome : disk.home = some home)
    (hpath : (keysPath home username.bytes).length < pathMax)
    (hfile : (disk.files (keysPath home username.bytes)).isSome = true)
    (hclient : a.client.channel.written = []) (hunknown : findUser w.server username = none) :
    ¬ Finished verify w i env username disk a := by
  have hsame : served verify w i env [] = w := by
    rw [served, Framing.decode_nil]
    rfl
  rintro ⟨home', content, k, _, _, hfind, _⟩
  rw [call_refused hhome hpath hfile, hclient, hsame, hunknown] at hfind
  cases hfind

/-- A first call that nothing disturbs brings the key of the file to the server. -/
theorem finishes {username : Username} {home : Bytes} (hname : ValidName username.bytes)
    (hhome : disk.home = some home) (hfile : disk.files (keysPath home username.bytes) = none)
    (hlocal : Undisturbed username.bytes disk a) (hw : Steady w) (henrolled : Enrolled w.server)
    (hreaches : Reaches verify w i fd env a) (hroom : w.server.userCount < maxClients)
    (hunknown : findUser w.server username = none) :
    Finished verify w i env username disk a := by
  obtain ⟨⟨clientEnv, hreliable, hclient⟩, hunheard, henv⟩ := hreaches
  have hreached := @connectToServer_reaches
    (ClientState.initial { clientEnv with connects := [some (farEnd verify w i fd env)] })
    (farEnd verify w i fd env) [] rfl hreliable.sockets rfl
  rw [← hclient] at hreached
  obtain ⟨r, hcontent, hdone⟩ := call_undisturbed hhome hfile hlocal hreached.1
  obtain ⟨hready, hmallocs, hchannel⟩ := connected_ready hreliable (farEnd verify w i fd env)
  obtain ⟨hwritten, hround⟩ := registration_round hready hmallocs henv hchannel hw hunheard
    username r.publicKey
  have hconnected : (connectToServer a.client).2 =
      connected clientEnv (farEnd verify w i fd env) := by rw [hclient]; rfl
  obtain ⟨rest, hrest⟩ := disconnect_appends
    (registerUserWithServer (connectToServer a.client).2 username.bytes r.publicKey).2
  rw [hconnected, hwritten] at hrest
  rw [hconnected] at hdone
  obtain ⟨ys, hserved⟩ := @served_first verify w i env 0x01 _
    ((nameField_key_length username r.publicKey).trans_lt (by decide)) rest
  have hturn := @step_turn verify w hw.sound (.receive i
    (packet 0x01 (nameField username.bytes ++ r.publicKey.toList)) env)
  have hsteady := @step_steady verify w hw (.receive i
    (packet 0x01 (nameField username.bytes ++ r.publicKey.toList)) env)
  obtain ⟨hcount, hrecord⟩ := hround.adds hname hroom hunknown
  have hnew : w.server.userCount < (step verify w (.receive i
      (packet 0x01 (nameField username.bytes ++ r.publicKey.toList)) env)).server.userCount := by
    rw [hcount]
    exact Nat.lt_succ_self _
  have hfind := (Turn.enrolled hturn henrolled).find hnew
  have hextends := @run_extends verify _ hsteady ys
  rw [hrecord] at hfind
  refine ⟨home, r.bytes, w.server.userCount, hhome, hcontent, ?_, ?_⟩
  · rw [hdone, hrest, hserved]
    exact hextends.find hfind
  · rw [hdone, hrest, hserved, hextends.publicKey _ hnew, hrecord, publicPart_record]

/-- A registration that was interrupted once is never finished: only a first
call brings the key of the file to the server. -/
theorem retry_finishes_iff (verify : Signature → Challenge → Key → Bool) (xs : List Input)
    {username : Username} (hname : ValidName username.bytes) (disk : Disk) (calls : List Attempt)
    (hfailed : Runs.Along (attempt username.bytes) (ServerFailed username.bytes) disk calls)
    {last : Attempt}
    (hlocal : Undisturbed username.bytes (Runs.run (attempt username.bytes) disk calls) last)
    (hreaches : Reaches verify (reach verify xs) i fd env last)
    (hroom : (reach verify xs).server.userCount < maxClients)
    (hunknown : findUser (reach verify xs).server username = none) :
    Finished verify (reach verify xs) i env username
        (Runs.run (attempt username.bytes) disk calls) last ↔
      calls = [] ∧ ∀ home, disk.home = some home →
        disk.files (keysPath home username.bytes) = none := by
  have hwritten : last.client.channel.written = [] := by
    obtain ⟨_, _, hclient⟩ := hreaches.client
    rw [hclient]
    rfl
  cases calls with
  | nil =>
    rw [Runs.run_nil] at hlocal ⊢
    obtain ⟨home, hhome, hpath⟩ := hlocal.home
    cases hfile : disk.files (keysPath home username.bytes) with
    | none =>
      refine iff_of_true (finishes hname hhome hfile hlocal (reach_steady xs) (reach_enrolled xs)
        hreaches hroom hunknown) ⟨rfl, fun home' hhome' ↦ ?_⟩
      obtain rfl := Option.some.inj (hhome.symm.trans hhome')
      exact hfile
    | some content =>
      refine iff_of_false (unfinished hhome hpath (by rw [hfile]; rfl) hwritten hunknown) ?_
      rintro ⟨_, hnone⟩
      rw [hnone home hhome] at hfile
      cases hfile
  | cons b rest =>
    refine iff_of_false ?_ (fun h ↦ List.cons_ne_nil _ _ h.1)
    cases rest with
    | cons b' rest => exact absurd (failed_once hfailed.1 hfailed.2) id
    | nil =>
      obtain ⟨e, he, _⟩ := hfailed.1
      obtain ⟨home, _, hpath, hhome, hfile⟩ := call_saved he
      exact unfinished hhome hpath hfile hwritten hunknown

def alice : Username := Username.ofBytes (text "alice")

def pair : List (Line × Line) := [(lineA, lineA)]

def aliceCall (client : ClientState) : Attempt :=
  ⟨plainSodium, true, 1, .none, ⟨typedPairs pair, false, []⟩, client, stack, stack⟩

def reachedServer : ClientState := ClientState.initial
  ⟨[], [], [some (farEnd (fun _ _ _ ↦ true) oneConnection 0 0 .quiet)], []⟩

theorem aliceCall_undisturbed (client : ClientState) {disk : Disk} (hhome : disk.home = some [0x2F]) :
    Undisturbed (text "alice") disk (aliceCall client) := by
  obtain ⟨password, confirm, prompts, hloop, _⟩ :=
    passwordLoop_once 0 (lineA, lineA) [] stack stack false []
  exact ⟨⟨[0x2F], hhome, by decide +kernel⟩, ⟨_, _, password, confirm, _, _, rfl, hloop, rfl⟩, rfl⟩

theorem reachedServer_reaches :
    Reaches (fun _ _ _ ↦ true) oneConnection 0 0 .quiet (aliceCall reachedServer) :=
  ⟨⟨⟨[], [], [], []⟩, quiet_reliable, rfl⟩, oneConnection_unheard, by decide⟩

theorem alice_bytes : alice.bytes = text "alice" := by decide +kernel

theorem retry_finishes_first :
    Finished (fun _ _ _ ↦ true) oneConnection 0 .quiet alice emptyDisk (aliceCall reachedServer) := by
  have hlocal : Undisturbed alice.bytes emptyDisk (aliceCall reachedServer) := by
    rw [alice_bytes]
    exact aliceCall_undisturbed reachedServer rfl
  exact (retry_finishes_iff (fun _ _ _ ↦ true) [.accept (Block.zero _) true] (by decide +kernel)
    emptyDisk [] trivial hlocal reachedServer_reaches (by decide +kernel) (by decide +kernel)).mpr
    ⟨rfl, fun _ _ ↦ rfl⟩

def unreached : Attempt := aliceCall (ClientState.initial ⟨[], [], [], []⟩)

/-- After a call that reached no server the registration cannot be finished. -/
theorem interrupted_unfinished : ServerFailed alice.bytes emptyDisk unreached ∧
    ¬ Finished (fun _ _ _ ↦ true) oneConnection 0 .quiet alice
      (attempt alice.bytes emptyDisk unreached) (aliceCall reachedServer) := by
  have hhome : (attempt alice.bytes emptyDisk unreached).home = some [0x2F] := by decide +kernel
  have hfile : ((attempt alice.bytes emptyDisk unreached).files
      (keysPath [0x2F] alice.bytes)).isSome = true := by decide +kernel
  exact ⟨⟨.network, by decide +kernel, by decide⟩,
    unfinished hhome (by decide +kernel) hfile rfl (by decide +kernel)⟩

end CChat.Client.Retries
