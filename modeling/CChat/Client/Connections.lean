import CChat.Library.Runs
import CChat.Client.Sockets

namespace CChat.Client.Connections

open CChat.Library CChat.Protocol.Types Network Sockets

/-- `reconnect_to_server`, which nothing calls. -/
def reconnectToServer (c : ClientState) : CchatError × ClientState :=
  if c.connectedToServer then (.success, c)
  else
    match c.serverSocket with
    | none => connectToServer c
    | some s => connectToServer { close c s with serverSocket := none }

inductive Request
  | connect
  | disconnect
  | register (username : Bytes) (publicKey : Key)
  | getKey (username : Bytes)
  | sendMessage (recipient encryptedMessage : Bytes)

structure Call where
  request : Request
  env : Env
  channel : Channel

def Call.client (call : Call) (c : ClientState) : ClientState :=
  { c with env := call.env, channel := call.channel }

def step (c : ClientState) (call : Call) : ClientState :=
  match call.request with
  | .connect => (connectToServer (call.client c)).2
  | .disconnect => (disconnectFromServer (call.client c)).2
  | .register username publicKey => (registerUserWithServer (call.client c) username publicKey).2
  | .getKey username => (getUserPublicKey (call.client c) username).2
  | .sendMessage recipient encryptedMessage =>
    (sendMessageToServer (call.client c) recipient encryptedMessage).2

/-- The call leaves one open socket, that of `server_socket`, or none. -/
def KeepsSocket (c : ClientState) (call : Call) : Prop := OwnsSocket (step c call)

/-- The socket of a broken connection was not given up yet. -/
def Stale (c : ClientState) : Prop := c.serverSocket ≠ none ∧ c.connectedToServer = false

def NotOverStale (c : ClientState) (call : Call) : Prop := call.request = .connect → ¬ Stale c

variable {c : ClientState} {call : Call}

theorem Call.client_same (call : Call) (c : ClientState) : SameSockets c (call.client c) :=
  ⟨rfl, rfl, id⟩

theorem connectToServer_owns (h : Disconnected c) : OwnsSocket (connectToServer c).2 := by
  obtain ⟨_, howns⟩ | ⟨_, hdown⟩ := connectToServer_cases h
  · exact howns
  · exact hdown.owns

/-- Connecting over a broken connection, the socket of the old one is lost,
however the new attempt ends. -/
theorem connectToServer_loses {s : ℕ} (h : OwnsSocket c) (hs : c.serverSocket = some s)
    (hconnected : c.connectedToServer = false) : ¬ OwnsSocket (connectToServer c).2 := by
  have hheld := (socket_held c).1
  rw [h.held, hs] at hheld
  intro howns
  have hlength : (connectToServer c).2.openSockets.length =
      (connectToServer c).2.serverSocket.toList.length := by rw [howns.held]
  unfold connectToServer at hlength
  rw [hconnected, if_neg (by decide)] at hlength
  dsimp only at hlength
  cases hopened : (socket c).1 with
  | none =>
    rw [hopened] at hheld hlength
    dsimp only at hlength
    rw [hheld] at hlength
    cases hlength
  | some new =>
    have hsame := connect_same { (socket c).2 with serverSocket := some new }
    rw [hopened] at hheld hlength
    dsimp only at hlength
    split at hlength
    · -- the new socket is closed again, the old one is not
      dsimp only [close] at hlength
      rw [hsame.held, hheld] at hlength
      simp at hlength
    · dsimp only at hlength
      rw [hsame.held, hsame.socket, hheld] at hlength
      cases hlength

theorem connectToServer_owns_iff (h : OwnsSocket c) :
    OwnsSocket (connectToServer c).2 ↔ ¬ Stale c := by
  cases hs : c.serverSocket with
  | none =>
    exact iff_of_true (connectToServer_owns (h.disconnected hs)) (fun hstale ↦ hstale.1 hs)
  | some s =>
    cases hconnected : c.connectedToServer with
    | true =>
      have hkeeps : (connectToServer c).2 = c := by rw [connectToServer, if_pos hconnected]
      rw [hkeeps]
      refine iff_of_true h (fun hstale ↦ ?_)
      rw [hstale.2] at hconnected
      cases hconnected
    | false =>
      refine iff_of_false (connectToServer_loses h hs hconnected) (not_not.mpr ⟨?_, hconnected⟩)
      rw [hs]
      exact Option.some_ne_none s

theorem keepsSocket_iff (h : OwnsSocket c) : KeepsSocket c call ↔ NotOverStale c call := by
  have hclient := h.of_same (call.client_same c)
  unfold KeepsSocket NotOverStale step
  cases call.request with
  | connect =>
    dsimp only
    rw [connectToServer_owns_iff hclient]
    exact ⟨fun hfresh _ ↦ hfresh, fun hfresh ↦ hfresh rfl⟩
  | disconnect =>
    exact iff_of_true ((disconnectFromServer_disconnected hclient).owns) nofun
  | register username publicKey =>
    exact iff_of_true (hclient.of_same (registerUserWithServer_same _ username publicKey)) nofun
  | getKey username =>
    exact iff_of_true (hclient.of_same (getUserPublicKey_same _ username)) nofun
  | sendMessage recipient encryptedMessage =>
    exact iff_of_true (hclient.of_same (sendMessageToServer_same _ recipient encryptedMessage)) nofun

/-- Every call of a run leaves the client with the one socket it names, or
none, exactly when no call connects over a broken connection. -/
theorem keeps_socket_iff (env : Env) (calls : List Call) :
    Runs.Along step KeepsSocket (ClientState.initial env) calls ↔
      Runs.Along step NotOverStale (ClientState.initial env) calls :=
  Runs.along_iff (Q := OwnsSocket) (fun _ _ h ↦ keepsSocket_iff h) (fun _ _ _ hkeeps ↦ hkeeps)
    ⟨rfl, fun _ ↦ rfl⟩ calls

theorem reconnectToServer_owns (h : OwnsSocket c) : OwnsSocket (reconnectToServer c).2 := by
  unfold reconnectToServer
  split
  · exact h
  next hconnected =>
    split
    next hnone => exact connectToServer_owns (h.disconnected hnone)
    next s hs =>
      refine connectToServer_owns ⟨rfl, Bool.eq_false_iff.mpr hconnected, ?_⟩
      dsimp only [close]
      rw [h.held, hs]
      simp

def quietChannel : Channel := ⟨fun _ ↦ [], [], 0⟩

def listening : Env := ⟨[], [], [some fun _ ↦ []], []⟩

def brokenRun : List Call :=
  [⟨.connect, listening, quietChannel⟩,
    ⟨.sendMessage (text "bob") (text "hi"), ⟨[], [], [], [.failed true]⟩, quietChannel⟩,
    ⟨.connect, listening, quietChannel⟩]

theorem reconnect_loses_socket :
    (Runs.run step (ClientState.initial listening) brokenRun).openSockets = [1, 0] ∧
      (Runs.run step (ClientState.initial listening) brokenRun).serverSocket = some 1 ∧
      ¬ Runs.Along step KeepsSocket (ClientState.initial listening) brokenRun := by
  have hopen : (Runs.run step (ClientState.initial listening) brokenRun).openSockets = [1, 0] := by
    decide +kernel
  have hsocket : (Runs.run step (ClientState.initial listening) brokenRun).serverSocket =
      some 1 := by decide +kernel
  refine ⟨hopen, hsocket, fun hkeeps ↦ ?_⟩
  have hheld := hkeeps.2.2.1.held
  have hrun : step (step (step (ClientState.initial listening) ⟨.connect, listening, quietChannel⟩)
      ⟨.sendMessage (text "bob") (text "hi"), ⟨[], [], [], [.failed true]⟩, quietChannel⟩)
      ⟨.connect, listening, quietChannel⟩ =
        Runs.run step (ClientState.initial listening) brokenRun := rfl
  rw [hrun, hopen, hsocket] at hheld
  cases hheld

end CChat.Client.Connections
