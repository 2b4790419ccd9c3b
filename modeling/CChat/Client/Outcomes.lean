import CChat.Client.Requests
import CChat.Server.Registrations

namespace CChat.Client.Outcomes

open CChat.Library CChat.Protocol.Types CChat.Protocol.Wire CChat.Client.Network CChat.Client.Requests
  CChat.Server.Users CChat.Server.Handlers CChat.Server.Loop CChat.Server.Names
  CChat.Server.History CChat.Server.Refusals CChat.Server.Registry CChat.Server.Registrations
open CChat.Server.State hiding Env malloc send
open CChat.Server.Network (wire validateUsernameServer errorPayload)

abbrev ServerEnv := CChat.Server.State.Env
abbrev ClientEnv := CChat.Client.Network.Env

variable {verify : Signature → Challenge → Key → Bool} {w : World} {i : ℕ} {fd : Fd}

def served (verify : Signature → Challenge → Key → Bool) (w : World) (i : ℕ) (env : ServerEnv)
    (written : Bytes) : World :=
  Runs.run (step verify) w ((Framing.decode codec written).1.map fun f ↦
    .receive i (Framing.encode codec f) env)

def farEnd (verify : Signature → Challenge → Key → Bool) (w : World) (i : ℕ) (fd : Fd)
    (env : ServerEnv) (written : Bytes) : Bytes := wire fd (served verify w i env written).out

structure Reliable (env : ClientEnv) : Prop where
  mallocs : ∀ b ∈ env.mallocs, b = true
  sockets : ∀ b ∈ env.sockets, b = true
  sends : env.sends = []

def connected (env : ClientEnv) (peer : Bytes → Bytes) : ClientState :=
  (connectToServer (ClientState.initial { env with connects := [some peer] })).2

def register (verify : Signature → Challenge → Key → Bool) (w : World) (i : ℕ) (fd : Fd)
    (env : ServerEnv) (clientEnv : ClientEnv) (username : Bytes) (key : Key) :
    CchatError × ServerState :=
  let done := registerUserWithServer (connected clientEnv (farEnd verify w i fd env)) username key
  (done.1, (served verify w i env done.2.channel.written).server)

def AddedRecord (before after : ServerState) (username : Username) (key : Key) : Prop :=
  after.userCount = before.userCount + 1 ∧
    after.users before.userCount = ⟨username, key, .offline, true⟩

/-- The result of `register_user_with_server` says what became of the request. -/
structure NamesOutcome (before after : ServerState) (username : Username) (key : Key)
    (result : CchatError) : Prop where
  success : result = .success ↔ AddedRecord before after username key
  auth : result = .auth ↔ (findUser before username).isSome = true
  invalidArgs : result = .invalidArgs ↔ ¬ ValidName username.bytes
  network : result = .network ↔ ¬ AddedRecord before after username key ∧
    ¬ (findUser before username).isSome = true ∧ ValidName username.bytes

theorem connectToServer_reaches {c : ClientState} {peer : Bytes → Bytes}
    {rest : List (Option (Bytes → Bytes))} (hdown : c.connectedToServer = false)
    (hsockets : ∀ b ∈ c.env.sockets, b = true) (hpeer : c.env.connects = some peer :: rest) :
    (connectToServer c).1 = .success ∧ (connectToServer c).2.connectedToServer = true ∧
      (∃ s, (connectToServer c).2.serverSocket = some s) ∧
      (connectToServer c).2.channel = ⟨peer, [], 0⟩ ∧
      (connectToServer c).2.env.mallocs = c.env.mallocs ∧
      (connectToServer c).2.env.sends = c.env.sends := by
  unfold connectToServer socket connect
  rw [hdown, if_neg (by decide)]
  cases hs : c.env.sockets with
  | nil => simp [hpeer]
  | cons ok more =>
    rw [hs] at hsockets
    obtain rfl := hsockets ok List.mem_cons_self
    simp [hpeer]

theorem malloc_reliable {c : ClientState} (h : ∀ b ∈ c.env.mallocs, b = true) :
    (malloc c).1 = true ∧ ∀ b ∈ (malloc c).2.env.mallocs, b = true := by
  unfold malloc
  split
  · exact ⟨rfl, h⟩
  next ok more hm =>
    rw [hm] at h
    exact ⟨h ok List.mem_cons_self, fun b hb ↦ h b (List.mem_cons_of_mem _ hb)⟩

/-- A request gets the frame that its bytes make the far end send. -/
theorem request_answered {c : ClientState} (h : Ready c) (hmallocs : ∀ b ∈ c.env.mallocs, b = true)
    {type : UInt8} {payload rest : Bytes} {f : Frame} (hf : f.2.length < 2 ^ 32)
    (hpeer : (c.channel.peer (c.channel.written ++ packet type payload)).drop c.channel.consumed =
      Framing.encode codec f ++ rest) :
    (request c type payload).1 = .ok f := by
  obtain ⟨s, hs⟩ := h.socket
  obtain ⟨hsocket, hconnected⟩ := malloc_sockets c
  have hchannel := malloc_channel c
  have hsends : (malloc c).2.env.sends = [] := by
    unfold malloc
    split <;> exact h.sends
  have hsent := sendNetworkMessage_quiet (hsocket.trans hs) (hconnected.trans h.connected) hsends
    type payload
  have hroom := (malloc_reliable (malloc_reliable hmallocs).2).1
  have hreceived := @receiveNetworkMessage_received (write (malloc c).2 (packet type payload)) s
    (hsocket.trans hs)
  have hin : (write (malloc c).2 (packet type payload)).channel.incoming =
      Framing.encode codec f ++ rest := by
    rw [← hpeer, write, hchannel]
    rfl
  have hd := Framing.decodeOne_encode codec f hf rest
  have hroom' : (malloc (write (malloc c).2 (packet type payload))).1 = true := by
    rw [malloc_result] at hroom ⊢
    exact hroom
  rw [← hin] at hd
  unfold request
  dsimp only
  rw [h.room, if_neg (by decide), hsent]
  dsimp only
  rw [if_neg (by decide)]
  generalize receiveNetworkMessage (write (malloc c).2 (packet type payload)) = received
    at hreceived ⊢
  cases hreceived with
  | frame f' rest' c' hd' =>
    rw [hd] at hd'
    obtain ⟨rfl, _⟩ := Prod.mk.inj (Option.some.inj hd')
    rfl
  | ended c' hnone =>
    rw [hd] at hnone
    cases hnone
  | noRoom _ _ _ _ _ hfull =>
    rw [hroom'] at hfull
    cases hfull

theorem served_one {type : UInt8} {payload : Bytes} (hfits : payload.length < 2 ^ 32)
    (env : ServerEnv) : served verify w i env (packet type payload) =
      step verify w (.receive i (packet type payload) env) := by
  have hd := Framing.decode_encode codec (type, payload) hfits []
  rw [List.append_nil, Framing.decode_nil] at hd
  have hframes : (Framing.decode codec (packet type payload)).1 = [(type, payload)] :=
    congrArg Prod.fst hd
  rw [served, hframes]
  rfl

theorem Username.of_bytes (username : Username) : Username.ofBytes username.bytes = username :=
  CString.ext ((ofBytes_exact username.fits).mpr username.no_nul)

theorem wireName_nameField (username : Username) (rest : Bytes) :
    wireName (nameField username.bytes ++ rest) = username.bytes := by
  have hlen : ((nameField username.bytes ++ rest).headD 0).toNat = username.bytes.length :=
    UInt8.toNat_ofNat_of_lt (username.fits.trans (by decide))
  rw [wireName, hlen]
  exact List.take_left

theorem parseRegister_username (username : Username) (key : Key) :
    parseRegister (nameField username.bytes ++ key.toList) = .ok (username, key) ∧
        ValidName username.bytes ∨
      (∃ e, parseRegister (nameField username.bytes ++ key.toList) = .error e) ∧
        ¬ ValidName username.bytes := by
  by_cases hvalid : ValidName username.bytes
  · have hparse := parseRegister_request hvalid key
    rw [Username.of_bytes] at hparse
    exact .inl ⟨hparse, hvalid⟩
  · refine .inr ⟨?_, hvalid⟩
    cases hparse : parseRegister (nameField username.bytes ++ key.toList) with
    | error e => exact ⟨e, rfl⟩
    | ok parsed =>
      obtain ⟨hread, hname⟩ := parseRegister_ok hparse
      rw [hread.cut, wireName_nameField, Username.of_bytes] at hname
      exact absurd hname hvalid

/-- What a registration leaves in the table and what the client makes of the
answer, by the checks of `add_user` in their order. -/
inductive Registration (s s' : ServerState) (username : Username) (key : Key) :
    CchatError → Prop
  | invalid (h : ¬ ValidName username.bytes) (hu : s'.userCount = s.userCount) :
      Registration s s' username key .network
  | full (h : ValidName username.bytes) (hfull : maxClients ≤ s.userCount)
      (hu : s'.userCount = s.userCount) : Registration s s' username key .network
  | taken (h : ValidName username.bytes) (hroom : s.userCount < maxClients)
      (htaken : (findUser s username).isSome = true) (hu : s'.userCount = s.userCount) :
      Registration s s' username key .auth
  | added (h : ValidName username.bytes) (hroom : s.userCount < maxClients)
      (hfree : findUser s username = none) (hadded : AddedRecord s s' username key) :
      Registration s s' username key .success

theorem handleRegisterUser_registration (v : World) (username : Username) (key : Key) :
    Registration v.server
      (handleRegisterUser v i (nameField username.bytes ++ key.toList)).2.server username key
      (readRegisterResponse
        ((registrationAnswer v (nameField username.bytes ++ key.toList)).1.code,
          (registrationAnswer v (nameField username.bytes ++ key.toList)).2)) := by
  obtain ⟨hparse, hvalid⟩ | ⟨⟨e, hparse⟩, hvalid⟩ := parseRegister_username username key
  · rw [handleRegisterUser_server v i hparse, registrationAnswer, hparse]
    have hform : ¬ validateUsernameServer username.bytes < 0 :=
      (validateUsernameServer_iff _).mpr hvalid
    dsimp only
    unfold addUser
    rw [if_neg hform]
    by_cases hfull : v.server.userCount ≥ maxClients
    · rw [if_pos hfull]
      exact .full hvalid hfull rfl
    · rw [if_neg hfull]
      by_cases htaken : (findUser v.server username).isSome = true
      · rw [if_pos htaken]
        exact .taken hvalid (Nat.lt_of_not_le hfull) htaken rfl
      · rw [if_neg htaken]
        exact .added hvalid (Nat.lt_of_not_le hfull) (by simpa using htaken)
          ⟨rfl, Function.update_self ..⟩
  · have hsame : (handleRegisterUser v i (nameField username.bytes ++ key.toList)).2.server =
        v.server := by
      rw [handleRegisterUser, hparse]
      exact refuse_server v i e
    rw [hsame, registrationAnswer, hparse]
    exact .invalid hvalid rfl

theorem AddedRecord.grows {s s' : ServerState} {username : Username} {key : Key}
    (h : AddedRecord s s' username key) : s'.userCount ≠ s.userCount := by
  rw [h.1]
  exact Nat.succ_ne_self _

theorem Registration.adds {s s' : ServerState} {username : Username} {key : Key}
    {result : CchatError} (h : Registration s s' username key result)
    (hname : ValidName username.bytes) (hroom : s.userCount < maxClients)
    (hfree : findUser s username = none) : AddedRecord s s' username key := by
  cases h with
  | invalid h => exact absurd hname h
  | full _ hfull => exact absurd hroom (Nat.not_lt_of_le hfull)
  | taken _ _ htaken =>
    rw [hfree] at htaken
    cases htaken
  | added _ _ _ hadded => exact hadded

/-- The client tells a full table from a taken name only when one of them is
out of the question, and never sees that a name is malformed. -/
theorem Registration.names_iff {s s' : ServerState} {username : Username} {key : Key}
    {result : CchatError} (h : Registration s s' username key result) :
    NamesOutcome s s' username key result ↔ ValidName username.bytes ∧
      (s.userCount < maxClients ∨ findUser s username = none) := by
  have hsame : s'.userCount = s.userCount → ¬ AddedRecord s s' username key :=
    fun hu hadded ↦ hadded.grows hu
  cases h with
  | invalid h hu =>
    refine iff_of_false (fun hnames ↦ ?_) (fun hvalid ↦ h hvalid.1)
    exact absurd (hnames.invalidArgs.mpr h) (by decide)
  | full h hfull hu =>
    rw [and_iff_right h, or_iff_right (Nat.not_lt_of_le hfull)]
    constructor
    · intro hnames
      have hnone := (hnames.network.mp rfl).2.1
      simpa using hnone
    · intro hnone
      refine ⟨iff_of_false (by decide) (hsame hu), iff_of_false (by decide) ?_,
        iff_of_false (by decide) (not_not.mpr h), iff_of_true rfl ⟨hsame hu, ?_, h⟩⟩
      · rw [hnone]
        decide
      · rw [hnone]
        decide
  | taken h hroom htaken hu =>
    refine iff_of_true ?_ ⟨h, .inl hroom⟩
    exact ⟨iff_of_false (by decide) (hsame hu), iff_of_true rfl htaken,
      iff_of_false (by decide) (not_not.mpr h),
      iff_of_false (by decide) (fun hnetwork ↦ hnetwork.2.1 htaken)⟩
  | added h hroom hfree hadded =>
    have hnone : ¬ (findUser s username).isSome = true := by
      rw [hfree]
      decide
    refine iff_of_true ?_ ⟨h, .inl hroom⟩
    exact ⟨iff_of_true rfl hadded, iff_of_false (by decide) hnone,
      iff_of_false (by decide) (not_not.mpr h),
      iff_of_false (by decide) (fun hnetwork ↦ hnetwork.1 hadded)⟩

theorem Registration.of_table {s₀ s s' : ServerState} {username : Username} {key : Key}
    {result : CchatError} (hu : s.users = s₀.users) (hc : s.userCount = s₀.userCount)
    (h : Registration s s' username key result) : Registration s₀ s' username key result := by
  have hfind := findUser_congr hu hc username
  cases h with
  | invalid h hsame => exact .invalid h (hsame.trans hc)
  | full h hfull hsame => exact .full h (hc ▸ hfull) (hsame.trans hc)
  | taken h hroom htaken hsame => exact .taken h (hc ▸ hroom) (hfind ▸ htaken) (hsame.trans hc)
  | added h hroom hfree hadded =>
    refine .added h (hc ▸ hroom) (hfind ▸ hfree) ?_
    rw [AddedRecord, hc] at hadded
    exact hadded

theorem nameField_key_length (username : Username) (key : Key) :
    (nameField username.bytes ++ key.toList).length ≤ maxMessageLen * 2 := by
  have hkey : key.toList.length = publicKeySize := key.toList_length
  have hname := username.fits
  rw [List.length_append, nameField_length, hkey]
  have hbounds : maxUsernameLen = 32 ∧ maxMessageLen = 1024 ∧ publicKeySize = 32 := ⟨rfl, rfl, rfl⟩
  omega

theorem parseRegister_error {payload : Bytes} {e : Refusal} (h : parseRegister payload = .error e) :
    e ∈ [⟨.invalidFormat, "Invalid registration data"⟩, ⟨.invalidFormat, "Invalid username length"⟩,
      (⟨.invalidUsername, "Invalid username format"⟩ : Refusal)] := by
  unfold parseRegister readName at h
  dsimp only at h
  split at h
  next hname =>
    split_ifs at hname with hshort hlength
    · cases hname
      cases h
      exact List.mem_cons_self
    · cases hname
      cases h
      exact List.mem_cons_of_mem _ List.mem_cons_self
  next hname =>
    split_ifs at h
    cases h
    exact List.mem_cons_of_mem _ (List.mem_cons_of_mem _ List.mem_cons_self)

theorem registrationAnswer_fits (v : World) (payload : Bytes) :
    (registrationAnswer v payload).2.length < 2 ^ 32 := by
  unfold registrationAnswer
  cases hparse : parseRegister payload with
  | error e =>
    have hmessages : ∀ e ∈ [⟨.invalidFormat, "Invalid registration data"⟩,
        ⟨.invalidFormat, "Invalid username length"⟩,
        (⟨.invalidUsername, "Invalid username format"⟩ : Refusal)],
        (errorPayload e.code (text e.message)).length < 2 ^ 32 := by decide
    exact hmessages e (parseRegister_error hparse)
  | ok parsed =>
    dsimp only
    split_ifs <;> decide

/-- A registration on a connection that was not used before, client and server
together. -/
theorem registration_round {c : ClientState} (hc : Ready c)
    (hmallocs : ∀ b ∈ c.env.mallocs, b = true) {env : ServerEnv} (henv : env.Faultless)
    (hchannel : c.channel = ⟨farEnd verify w i fd env, [], 0⟩) (hw : Steady w)
    (hfresh : Unheard w i fd) (username : Username) (key : Key) :
    (registerUserWithServer c username.bytes key).2.channel.written =
        packet 0x01 (nameField username.bytes ++ key.toList) ∧
      Registration w.server (step verify w (.receive i
        (packet 0x01 (nameField username.bytes ++ key.toList)) env)).server username key
        (registerUserWithServer c username.bytes key).1 := by
  have hfits := nameField_key_length username key
  have hwritten := @Call.perform_written c (.registerUser username.bytes key) hc username.fits
  rw [hchannel, List.nil_append] at hwritten
  refine ⟨hwritten, ?_⟩
  obtain ⟨v, husers, hcount, hturn, hwire⟩ := @Unheard.registers verify i fd w
    (nameField username.bytes ++ key.toList) hw hfresh env henv hfits
  have hresult := @handleRegisterUser_registration i v username key
  have hshort := registrationAnswer_fits v (nameField username.bytes ++ key.toList)
  generalize registrationAnswer v (nameField username.bytes ++ key.toList) = answer
    at hwire hresult hshort
  have hsent : farEnd verify w i fd env (packet 0x01 (nameField username.bytes ++ key.toList)) =
      Framing.encode codec (answer.1.code, answer.2) := by
    rw [farEnd, served_one (hfits.trans_lt (by decide))]
    exact (congrArg (fun v ↦ wire fd v.out) hturn).trans hwire
  have hanswered : (request c 0x01 (nameField username.bytes ++ key.toList)).1 =
      .ok (answer.1.code, answer.2) := by
    refine @request_answered c hc hmallocs _ _ [] _ hshort ?_
    rw [hchannel, List.nil_append, List.drop_zero, List.append_nil]
    exact hsent
  have hcode : (registerUserWithServer c username.bytes key).1 =
      readRegisterResponse (answer.1.code, answer.2) := by
    rw [registerUserWithServer, hc.connected, if_neg (by decide),
      if_neg (Nat.not_le_of_lt username.fits)]
    dsimp only
    rw [hanswered]
  rw [hcode]
  have hafter : (step verify w (.receive i
      (packet 0x01 (nameField username.bytes ++ key.toList)) env)).server =
        (handleRegisterUser v i (nameField username.bytes ++ key.toList)).2.server :=
    congrArg World.server hturn
  rw [hafter]
  exact hresult.of_table husers hcount

theorem connected_ready {clientEnv : ClientEnv} (h : Reliable clientEnv) (peer : Bytes → Bytes) :
    Ready (connected clientEnv peer) ∧ (∀ b ∈ (connected clientEnv peer).env.mallocs, b = true) ∧
      (connected clientEnv peer).channel = ⟨peer, [], 0⟩ := by
  obtain ⟨_, hconnected, hsocket, hchannel, hmallocs, hsends⟩ := @connectToServer_reaches
    (ClientState.initial { clientEnv with connects := [some peer] }) peer [] rfl h.sockets rfl
  have hroom : ∀ b ∈ (connected clientEnv peer).env.mallocs, b = true := by
    intro b hb
    exact h.mallocs b (hmallocs ▸ hb)
  exact ⟨⟨hsocket, hconnected, (malloc_reliable hroom).1, hsends.trans h.sends⟩, hroom, hchannel⟩

/-- The client's result names the server's outcome exactly when the name is
well formed and either the table has room or the name is new. -/
theorem outcome_named_iff (verify : Signature → Challenge → Key → Bool) (xs : List Input)
    (hfresh : Unheard (reach verify xs) i fd) {env : ServerEnv} (henv : env.Faultless)
    {clientEnv : ClientEnv} (hclient : Reliable clientEnv) (username : Username) (key : Key) :
    NamesOutcome (reach verify xs).server
        (register verify (reach verify xs) i fd env clientEnv username.bytes key).2 username key
        (register verify (reach verify xs) i fd env clientEnv username.bytes key).1 ↔
      ValidName username.bytes ∧ ((reach verify xs).server.userCount < maxClients ∨
        findUser (reach verify xs).server username = none) := by
  have hw := @reach_steady verify xs
  generalize reach verify xs = w at hfresh hw ⊢
  obtain ⟨hready, hmallocs, hchannel⟩ := connected_ready hclient (farEnd verify w i fd env)
  obtain ⟨hwritten, hround⟩ := registration_round hready hmallocs henv hchannel hw hfresh username key
  have hfits := (nameField_key_length username key).trans_lt (by decide : _ < 2 ^ 32)
  rw [register]
  dsimp only
  rw [hwritten, served_one hfits]
  exact hround.names_iff

def oneConnection : World := reach (fun _ _ _ ↦ true) [.accept (Block.zero _) true]

theorem oneConnection_unheard : Unheard oneConnection 0 0 :=
  ⟨⟨by decide +kernel, by decide +kernel, by decide +kernel, by decide +kernel⟩, by decide +kernel⟩

theorem quiet_reliable : Reliable ⟨[], [], [], []⟩ := ⟨nofun, nofun, rfl⟩

def registered (name : String) : CchatError × ServerState :=
  register (fun _ _ _ ↦ true) oneConnection 0 0 .quiet ⟨[], [], [], []⟩
    (Username.ofBytes (text name)).bytes (Block.zero _)

theorem outcome_named_alice : NamesOutcome oneConnection.server (registered "alice").2
    (Username.ofBytes (text "alice")) (Block.zero _) (registered "alice").1 :=
  (outcome_named_iff (fun _ _ _ ↦ true) [.accept (Block.zero _) true] oneConnection_unheard
    (by decide) quiet_reliable (Username.ofBytes (text "alice")) (Block.zero _)).mpr
    ⟨by decide +kernel, .inr (by decide +kernel)⟩

/-- A name with a blank in it is refused, and the refusal is not understood. -/
theorem blank_network : (registered "al ice").1 = .network ∧
    ¬ NamesOutcome oneConnection.server (registered "al ice").2
      (Username.ofBytes (text "al ice")) (Block.zero _) (registered "al ice").1 := by
  have hnetwork : (registered "al ice").1 = .network := by decide +kernel
  have hname : ¬ ValidName (Username.ofBytes (text "al ice")).bytes := by decide +kernel
  refine ⟨hnetwork, fun hnames ↦ ?_⟩
  have hinvalid := hnames.invalidArgs.mpr hname
  rw [hnetwork] at hinvalid
  cases hinvalid

end CChat.Client.Outcomes
