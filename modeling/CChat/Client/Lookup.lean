import CChat.Client.Network
import CChat.Server.Refusals

namespace CChat.Client.Lookup

open CChat.Library CChat.Protocol.Types CChat.Protocol.Wire CChat.Client.Network CChat.Server.State
  CChat.Server.Users CChat.Server.Loop CChat.Server.History CChat.Server.Refusals
open CChat.Server.Network (wire)

variable {verify : Signature → Challenge → Key → Bool}

/-- The far end of a connection that the server accepted in world `w` and
whose request it handles in world `served`. Without a slot it is closed. -/
def serverPeer (verify : Signature → Challenge → Key → Bool) (w served : World)
    (serverEnv : CChat.Server.State.Env) (asked : Bytes) : Bytes :=
  match freeSlot w.server with
  | none => []
  | some i => wire w.nextFd (step verify served (.receive i asked serverEnv)).out

/-- The middle of `start_chat` against a server in world `w`: a new connection
is asked for a key, after inputs of other connections. -/
def startChat (verify : Signature → Challenge → Key → Bool) (w : World) (challenge : Challenge)
    (others : List Input) (serverEnv : CChat.Server.State.Env) (env : CChat.Client.Network.Env)
    (username : Bytes) : CchatError × Option Key :=
  let served := Runs.run (step verify) (acceptClient w challenge true) others
  let connected := connectToServer (ClientState.initial
    { env with connects := [some (serverPeer verify w served serverEnv)] })
  if connected.1 = .success then (getUserPublicKey connected.2 username).1
  else (.network, none)

theorem readHeader_type (type : UInt8) (n : ℕ) : (readHeader (frameHeader type n)).1 = type := by
  simp [readHeader, frameHeader, List.getD_eq_getElem?_getD]

theorem packet_take_five (type : UInt8) (payload : Bytes) :
    (packet type payload).take 5 = frameHeader type payload.length := by
  have hl : (frameHeader type payload.length).length = 5 := by simp [frameHeader]
  rw [packet, ← hl, List.take_left]

theorem Refused.frame {bytes rest : Bytes} {f : Frame} (h : Refused bytes)
    (hd : Framing.decodeOne codec bytes = some (f, rest)) : f.1 = 0x88 := by
  obtain ⟨n, payload, rfl⟩ := h
  obtain ⟨hlong, _, rfl, _⟩ := (Framing.decodeOne_some codec).mp hd
  have hn : 5 ≤ n := by
    rw [List.length_take] at hlong
    exact Nat.le_trans hlong (Nat.min_le_left _ _)
  have htake : ((packet MessageType.error.code payload).take n).take 5 =
      frameHeader MessageType.error.code payload.length := by
    rw [List.take_take, Nat.min_eq_left hn, packet_take_five]
  calc (readHeader (((packet MessageType.error.code payload).take n).take 5)).1
      = (readHeader (frameHeader MessageType.error.code payload.length)).1 := by rw [htake]
    _ = 0x88 := readHeader_type _ _

theorem getUserPublicKey_refused {c : ClientState} {s : ℕ} {username : Bytes}
    (hs : c.serverSocket = some s)
    (h : Refused ((c.channel.peer (c.channel.written ++ packet 0x03 (nameField username))).drop
      c.channel.consumed)) :
    (getUserPublicKey c username).1.1 ≠ .success ∧ (getUserPublicKey c username).1.2 = none := by
  unfold getUserPublicKey
  split
  · exact ⟨nofun, rfl⟩
  · split
    · exact ⟨nofun, rfl⟩
    · dsimp only
      split
      next e he =>
        obtain rfl | rfl := request_error he
        · exact ⟨nofun, rfl⟩
        · exact ⟨nofun, rfl⟩
      next response hresponse =>
        obtain ⟨rest, hd⟩ := request_ok hs hresponse
        have htype := Refused.frame h hd
        have hread : readPublicKeyResponse response = (.network, none) := by
          rw [readPublicKeyResponse, if_pos]
          rw [htype]
          decide
        rw [hread]
        exact ⟨nofun, rfl⟩

theorem run_fresh {w : World} {i : ℕ} {fd : Fd} {xs : List Input} (hw : Steady w)
    (hf : Fresh w i fd) (hxs : ∀ x ∈ xs, Input.slot x ≠ some i) :
    Fresh (Runs.run (step verify) w xs) i fd := by
  induction xs generalizing w with
  | nil => exact hf
  | cons x xs ih =>
    exact ih (step_steady hw x) (step_fresh hw hf (hxs x List.mem_cons_self))
      (fun y hy ↦ hxs y (List.mem_cons_of_mem _ hy))

theorem serverPeer_refused {w : World} {others : List Input} (hw : Steady w)
    (challenge : Challenge) (serverEnv : CChat.Server.State.Env) (username : Bytes)
    (hothers : ∀ i ∈ freeSlot w.server, ∀ x ∈ others, Input.slot x ≠ some i) :
    Refused (serverPeer verify w (Runs.run (step verify) (acceptClient w challenge true) others)
      serverEnv (packet 0x03 (nameField username))) := by
  unfold serverPeer
  split
  · exact refused_nil
  next i hslot =>
    have hstart : Steady (acceptClient w challenge true) :=
      @step_steady verify w hw (.accept challenge true)
    have hfresh := @run_fresh verify _ i w.nextFd others hstart
      (acceptClient_fresh hw challenge hslot) (hothers i hslot)
    have htype : (readHeader ((packet 0x03 (nameField username)).take 5)).1 = 0x03 := by
      rw [packet_take_five, readHeader_type]
    exact hfresh.refused (by rw [htype]; decide) (by rw [htype]; decide)

/-- No lookup of `start_chat` succeeds, whoever is registered: the server
answers a connection without a login with an `ERROR`. -/
theorem startChat_never (verify : Signature → Challenge → Key → Bool) (xs others : List Input)
    (challenge : Challenge) (serverEnv : CChat.Server.State.Env) (env : CChat.Client.Network.Env)
    (username : Bytes)
    (hothers : ∀ i ∈ freeSlot (reach verify xs).server, ∀ x ∈ others, Input.slot x ≠ some i) :
    (startChat verify (reach verify xs) challenge others serverEnv env username).1 ≠ .success ∧
      (startChat verify (reach verify xs) challenge others serverEnv env username).2 = none := by
  have hrefused := @serverPeer_refused verify _ others (reach_steady xs) challenge serverEnv username
    hothers
  unfold startChat
  dsimp only
  generalize serverPeer verify (reach verify xs) (Runs.run (step verify)
    (acceptClient (reach verify xs) challenge true) others) serverEnv = peer at hrefused ⊢
  split
  next hconnected =>
    obtain ⟨s, hs, hchannel⟩ := @connectToServer_first { env with connects := [some peer] } peer []
      rfl hconnected
    refine getUserPublicKey_refused hs ?_
    rw [hchannel]
    exact hrefused
  · exact ⟨nofun, rfl⟩

def aliceKey : Key := ⟨List.replicate 32 7, by simp⟩

def aliceRegistered : List Input :=
  [.accept (Block.zero _) true,
    .receive 0 (registerPacket (text "alice") aliceKey.toList) .quiet]

def aliceLookup : CchatError × Option Key :=
  startChat (fun _ _ _ ↦ true) (reach (fun _ _ _ ↦ true) aliceRegistered) (Block.zero _)
    [.receive 0 (loginPacket (text "alice") (List.replicate 64 0)) .quiet] .quiet ⟨[], [], [], []⟩
    (text "alice")

theorem aliceLookup_fails : aliceLookup.1 ≠ .success ∧ aliceLookup.2 = none := by
  refine startChat_never _ _ _ _ _ _ _ ?_
  have hslot : freeSlot (reach (fun _ _ _ ↦ true) aliceRegistered).server = some 1 := by
    decide +kernel
  intro i hi x hx
  rw [hslot] at hi
  rw [List.mem_singleton.mp hx, ← Option.some.inj hi]
  decide

theorem aliceRegistered_lookup :
    findUser (reach (fun _ _ _ ↦ true) aliceRegistered).server
        (Username.ofBytes (text "alice")) = some 0 ∧
      ((reach (fun _ _ _ ↦ true) aliceRegistered).server.users 0).publicKey = aliceKey ∧
      aliceLookup ≠ (.success, some aliceKey) := by
  decide +kernel

end CChat.Client.Lookup
