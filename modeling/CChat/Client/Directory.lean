import CChat.Client.Lookup
import CChat.Client.Relay

namespace CChat.Client.Directory

open CChat.Library CChat.Protocol.Types CChat.Protocol.Wire
open CChat.Server.State CChat.Server.Network CChat.Server.Users CChat.Server.Handlers
open CChat.Server.Loop CChat.Server.Steps CChat.Server.Invariants CChat.Server.History
open CChat.Server.Names CChat.Server.Registry CChat.Server.Conversation
open CChat.Client.Network (ClientState CchatError)
open CChat.Client.Requests CChat.Client.Relay
open CChat.Client.Lookup (aliceKey)

variable {verify : Signature → Challenge → Key → Bool} {w : World} {i : ℕ} {fd : Fd}
  {c : ClientState} {name : Bytes} {key : Key} {env : Env}

theorem reply_wire {v : World} (hv : v.env.Faultless)
    (hfd : (v.server.clients i).socketFd = some fd) (type : MessageType) (payload : Bytes) :
    (reply v i type payload).2.server = v.server ∧
      wire fd (reply v i type payload).2.out = wire fd v.out ++ packet type.code payload := by
  obtain ⟨_, hout, _⟩ := sendNetworkMessage_out hv fd type payload
  rw [reply, hfd]
  refine ⟨sendNetworkMessage_server _ _ _ _ _, ?_⟩
  rw [hout, wire_append]
  simp [wire, Event.sent]

def Known (s : ServerState) (name : Bytes) (key : Key) : Prop :=
  ∃ k, findUser s (Username.ofBytes name) = some k ∧ (s.users k).publicKey = key

variable (verify name key) in
/-- A logged-in client that asks the server at `w` for the name gets the key. -/
def Told (w : World) (i : ℕ) (fd : Fd) (c : ClientState) (env : Env) : Prop :=
  LoggedIn w i fd → Attached w fd c → Admissible i w (.request 0x03 (nameField name) env) →
    c.channel.peer (c.channel.written ++ packet 0x03 (nameField name)) =
      wire fd (step verify w (.receive i (packet 0x03 (nameField name)) env)).out →
    (Network.getUserPublicKey c name).1 = (.success, some key)

theorem addUser_zero_iff {v : World} {u : Username} (hvalid : ¬ validateUsernameServer u.bytes < 0) :
    (addUser v u key).1 = 0 ↔ findUser v.server u = none ∧ v.server.userCount < maxClients := by
  unfold addUser
  rw [if_neg hvalid]
  split_ifs with hfull hknown
  · exact iff_of_false (by simp) (fun h ↦ Nat.not_lt_of_le hfull h.2)
  · refine iff_of_false (by simp) (fun h ↦ ?_)
    rw [h.1] at hknown
    cases hknown
  · exact iff_of_true rfl ⟨by simpa using hknown, Nat.lt_of_not_le hfull⟩

theorem addUser_out (v : World) (u : Username) : (addUser v u key).2.out = v.out := by
  unfold addUser
  split_ifs <;> rfl

theorem handleRegisterUser_read (v : World) (i : ℕ) {payload : Bytes} {u : Username}
    (hparse : parseRegister payload = .ok (u, key)) :
    ∃ response, (handleRegisterUser v i payload).2 =
        (reply (addUser v u key).2 i .registerResponse response).2 ∧
      response.length = 2 ∧ (Network.readRegisterResponse (0x81, response) = .success ↔
        (addUser v u key).1 = 0) := by
  unfold handleRegisterUser
  rw [hparse]
  dsimp only
  split_ifs with hadded hexists
  · exact ⟨[1, 0], rfl, rfl, iff_of_true rfl hadded⟩
  · exact ⟨[0, ErrorCode.userExists.code], rfl, rfl, iff_of_false (by decide) hadded⟩
  · exact ⟨[0, ErrorCode.serverError.code], rfl, rfl, iff_of_false (by decide) hadded⟩

/-- What a registration leaves in the registry and what its connection is told. -/
theorem register_step (hw : Steady w) (he : Enrolled w.server)
    (hconn : (w.server.clients i).connected = true)
    (hfd : (w.server.clients i).socketFd = some fd) (hname : ValidName name)
    (hadmissible : Admissible i w (.request 0x01 (nameField name ++ key.toList) env)) :
    ∃ response, wire fd (step verify w
          (.receive i (packet 0x01 (nameField name ++ key.toList)) env)).out =
        wire fd w.out ++ packet 0x81 response ∧ response.length = 2 ∧
      (Network.readRegisterResponse (0x81, response) = .success ↔
        findUser w.server (Username.ofBytes name) = none ∧ w.server.userCount < maxClients) ∧
      (Network.readRegisterResponse (0x81, response) = .success →
        Known (step verify w (.receive i (packet 0x01 (nameField name ++ key.toList)) env)).server
          name key) := by
  have hparse := parseRegister_request hname key
  obtain ⟨v, r, hstep, hout, hserver, hf⟩ := @step_dispatch verify w i fd _ _ _ hw.sound hconn hfd
    hadmissible (by decide)
  have hsocket : (v.server.clients i).socketFd = some fd :=
    (limited_identity hserver i).socketFd.trans hfd
  have hvalid : ¬ validateUsernameServer (Username.ofBytes name).bytes < 0 := by
    rw [ValidName.ofBytes hname]
    exact (validateUsernameServer_iff _).mpr hname
  obtain ⟨response, hhandled, hlength, hread⟩ := handleRegisterUser_read v i hparse
  have hdispatch : dispatch verify v i 0x01 (nameField name ++ key.toList) =
      (handleRegisterUser v i (nameField name ++ key.toList)).2 := by
    unfold dispatch
    exact if_pos rfl
  have husers : v.server.users = w.server.users ∧ v.server.userCount = w.server.userCount := by
    rw [hserver]
    exact ⟨rfl, rfl⟩
  have hsent : (addUser v (Username.ofBytes name) key).2.env.Faultless :=
    (CChat.Server.Answers.addUser_pushed v _ key).faultless hf
  have hfd' : ((addUser v (Username.ofBytes name) key).2.server.clients i).socketFd = some fd := by
    rw [CChat.Server.Answers.addUser_clients]
    exact hsocket
  obtain ⟨hkept, hwire⟩ := reply_wire hsent hfd' .registerResponse response
  have hadded := @addUser_zero_iff key v _ hvalid
  rw [findUser_congr husers.1 husers.2, husers.2] at hadded
  rw [hstep, hdispatch, hhandled]
  refine ⟨response, ?_, hlength, hread.trans hadded, fun hsuccess ↦ ?_⟩
  · rw [hwire, addUser_out, hout, wire_append]
    exact congrArg (· ++ packet 0x81 response) (List.append_nil _)
  · have hnew := addUser_zero (hread.mp hsuccess)
    have hv : Enrolled v.server := (SameRecords.of_users husers.1 husers.2).enrolled he
    rw [Known, hkept]
    exact ⟨_, hnew.find hv, by rw [hnew.new]⟩

/-- A lookup of a name the registry has is answered with its key. -/
theorem lookup_step (hw : Steady w) (hi : LoggedIn w i fd) (hname : ValidName name)
    (hknown : Known w.server name key)
    (hadmissible : Admissible i w (.request 0x03 (nameField name) env)) :
    wire fd (step verify w (.receive i (packet 0x03 (nameField name)) env)).out =
      wire fd w.out ++ packet 0x83 (1 :: key.toList) := by
  obtain ⟨v, r, hstep, hout, hserver, hf⟩ := @step_dispatch verify w i fd _ _ _ hw.sound
    hi.connected hi.socket hadmissible (by decide)
  have hclient := limited_identity hserver i
  obtain ⟨k, hfind, hkey⟩ := hknown
  have hrecords : v.server.users = w.server.users ∧ v.server.userCount = w.server.userCount := by
    rw [hserver]
    exact ⟨rfl, rfl⟩
  have hhandled : handleGetPublicKey v i (nameField name) =
      reply v i .publicKeyResponse (1 :: key.toList) := by
    unfold handleGetPublicKey
    rw [parseGetPublicKey_request hname]
    dsimp only
    rw [findUser_congr hrecords.1 hrecords.2, hfind]
    dsimp only
    rw [hrecords.1, hkey]
  have hdispatch : dispatch verify v i 0x03 (nameField name) =
      (handleGetPublicKey v i (nameField name)).2 := by
    unfold dispatch
    rw [if_neg (by decide), if_neg (by decide), if_pos (by decide), authenticatedOnly,
      hclient.authenticated, hi.authenticated]
    rfl
  rw [hstep, hdispatch, hhandled, (reply_wire hf (hclient.socketFd.trans hi.socket) _ _).2, hout,
    wire_append]
  exact congrArg (· ++ packet 0x83 (1 :: key.toList)) (List.append_nil _)

/-- The client's part of a registration: what it reports is in the answer. -/
theorem registerUserWithServer_answered {response : Bytes} (hc : Attached w fd c)
    (hname : ValidName name) (hlength : response.length = 2)
    (hpeer : c.channel.peer (c.channel.written ++ packet 0x01 (nameField name ++ key.toList)) =
      wire fd w.out ++ packet 0x81 response) :
    (Network.registerUserWithServer c name key).1 = Network.readRegisterResponse (0x81, response) := by
  have hanswered := @Attached.answered w fd c hc 0x01 _ (0x81, response) []
    (by dsimp only; omega) (by rw [hpeer, List.append_nil])
  unfold Network.registerUserWithServer
  rw [hc.connected, if_neg (by decide), if_neg (Nat.not_le.mpr hname.2.1)]
  dsimp only
  rw [hanswered]

theorem getUserPublicKey_answered {response : Bytes} (hc : Attached w fd c) (hname : ValidName name)
    (hlength : response.length < 2 ^ 32)
    (hpeer : c.channel.peer (c.channel.written ++ packet 0x03 (nameField name)) =
      wire fd w.out ++ packet 0x83 response) :
    (Network.getUserPublicKey c name).1 = Network.readPublicKeyResponse (0x83, response) := by
  have hanswered := @Attached.answered w fd c hc 0x03 _ (0x83, response) [] hlength
    (by rw [hpeer, List.append_nil])
  unfold Network.getUserPublicKey
  rw [hc.connected, if_neg (by decide), if_neg (Nat.not_le.mpr hname.2.1)]
  dsimp only
  rw [hanswered]

/-- A registration succeeds if the name is free and there is room for it, and
from then on whoever is logged in is told the key under the name. -/
theorem registered_looked_up (xs : List Input) (hc : Attached (reach verify xs) fd c)
    (hconn : ((reach verify xs).server.clients i).connected = true)
    (hfd : ((reach verify xs).server.clients i).socketFd = some fd) (hname : ValidName name)
    (hadmissible : Admissible i (reach verify xs)
      (.request 0x01 (nameField name ++ key.toList) env))
    (hpeer : c.channel.peer (c.channel.written ++ packet 0x01 (nameField name ++ key.toList)) =
      wire fd (step verify (reach verify xs)
        (.receive i (packet 0x01 (nameField name ++ key.toList)) env)).out) :
    ((Network.registerUserWithServer c name key).1 = .success ↔
      findUser (reach verify xs).server (Username.ofBytes name) = none ∧
        (reach verify xs).server.userCount < maxClients) ∧
    ((Network.registerUserWithServer c name key).1 = .success →
      ∀ (later : List Input) (j : ℕ) (fd' : Fd) (d : ClientState) (env' : Env),
        Told verify name key (Runs.run (step verify) (reach verify xs)
          (.receive i (packet 0x01 (nameField name ++ key.toList)) env :: later)) j fd' d env') := by
  have hw := @reach_steady verify xs
  have he := @reach_enrolled verify xs
  generalize reach verify xs = w at *
  obtain ⟨response, hwire, hlength, hread, hknown⟩ := @register_step verify w i fd name key env hw he
    hconn hfd hname hadmissible
  have hreported := registerUserWithServer_answered hc hname hlength (hpeer.trans hwire)
  rw [hreported]
  refine ⟨hread, fun hsuccess later j fd' d env' hj hd hadmissible' hpeer' ↦ ?_⟩
  obtain ⟨k, hfind, hkey⟩ := hknown hsuccess
  have hsteady := @step_steady verify w hw (.receive i (packet 0x01 (nameField name ++ key.toList)) env)
  have hextends := @run_extends verify _ hsteady later
  have hlater : Known (Runs.run (step verify) w
      (.receive i (packet 0x01 (nameField name ++ key.toList)) env :: later)).server name key :=
    ⟨k, hextends.find hfind, (hextends.publicKey k (findUser_some hfind).1).trans hkey⟩
  have hanswer := @lookup_step verify _ j fd' name key env'
    (Runs.run_invariant (fun v x hv ↦ step_steady (w := v) hv x) hsteady later) hj hname hlater hadmissible'
  rw [getUserPublicKey_answered hd hname (by simp [key.toList_length, publicKeySize])
    (hpeer'.trans hanswer)]
  exact readPublicKeyResponse_found key

def bobListens : List Input :=
  [.accept (Block.zero _) true, .accept (Block.zero _) true,
    .receive 1 (registerPacket (text "bob") (List.replicate 32 0)) .quiet,
    .receive 1 (loginPacket (text "bob") (List.replicate 64 0)) .quiet]

def aliceRegisters : Input :=
  .receive 0 (packet 0x01 (nameField (text "alice") ++ aliceKey.toList)) .quiet

def aliceServed : World :=
  Runs.run (step fun _ _ _ ↦ true) (reach (fun _ _ _ ↦ true) bobListens) [aliceRegisters]

def aliceClient : ClientState := clientOn (reach (fun _ _ _ ↦ true) bobListens) 0
  (wire 0 (step (fun _ _ _ ↦ true) (reach (fun _ _ _ ↦ true) bobListens) aliceRegisters).out)

def bobClient : ClientState := clientOn aliceServed 1 (wire 1 (step (fun _ _ _ ↦ true) aliceServed
  (.receive 1 (packet 0x03 (nameField (text "alice"))) .quiet)).out)

theorem registered_looked_up_alice :
    (Network.registerUserWithServer aliceClient (text "alice") aliceKey).1 = .success ∧
      (Network.getUserPublicKey bobClient (text "alice")).1 = (.success, some aliceKey) := by
  obtain ⟨hiff, htold⟩ := @registered_looked_up (fun _ _ _ ↦ true) 0 0 aliceClient (text "alice")
    aliceKey .quiet bobListens (clientOn_attached _ _ _) (by decide +kernel) (by decide +kernel)
    (by decide +kernel) ⟨by decide, by decide, by decide +kernel⟩ (clientOn_peer _ _ _ _)
  have hsuccess := hiff.mpr ⟨by decide +kernel, by decide +kernel⟩
  refine ⟨hsuccess, htold hsuccess [] 1 1 bobClient .quiet
    ⟨by decide +kernel, by decide +kernel, by decide +kernel⟩ (clientOn_attached aliceServed _ _)
    ⟨by decide, by decide, by decide +kernel⟩ (clientOn_peer aliceServed _ _ _)⟩

end CChat.Client.Directory
