import CChat.Client.Chat
import CChat.Client.Requests
import CChat.Client.Streams
import CChat.Server.Conversation
import CChat.Server.Encoders
import CChat.Server.Presence

namespace CChat.Client.Relay

open CChat.Library CChat.Protocol.Types CChat.Protocol.Wire
open CChat.Server.State CChat.Server.Network CChat.Server.Users CChat.Server.Handlers
open CChat.Server.Loop CChat.Server.Steps CChat.Server.Invariants CChat.Server.History
open CChat.Server.Names CChat.Server.Registry CChat.Server.Conversation CChat.Server.Encoders
open CChat.Server.Queue (timestampBits)
open CChat.Server.Answers (takeRequest_some)
open CChat.Server.Effects (SameIdentity)
open CChat.Server.Delivery (takeRequest_faultless)
open CChat.Client.Network (ClientState CchatError)
open CChat.Client.Requests CChat.Client.Crypto CChat.Client.Chat CChat.Client.Streams
open CChat.Server.Receiving (Allocates)

variable {verify : Signature → Challenge → Key → Bool} {w : World} {i j : ℕ} {fd fd' : Fd}
  {recipient : Username} {data : Bytes} {c d : ClientState}

structure LoggedIn (w : World) (i : ℕ) (fd : Fd) : Prop where
  connected : (w.server.clients i).connected = true
  authenticated : (w.server.clients i).authenticated = true
  socket : (w.server.clients i).socketFd = some fd

theorem sendNetworkMessage_out (hf : w.env.Faultless) (fd : Fd) (type : MessageType)
    (payload : Bytes) :
    (sendNetworkMessage w (some fd) type payload none).1 = 0 ∧
      (sendNetworkMessage w (some fd) type payload none).2.out =
        w.out ++ [.frame fd type payload none] ∧
      (sendNetworkMessage w (some fd) type payload none).2.env.Faultless := by
  obtain ⟨hleft, hall⟩ := sendNetworkMessage_faultless hf (some fd) type payload none
  have hzero := hall rfl
  refine ⟨hzero, ?_, hleft⟩
  cases sendNetworkMessage_written w (some fd) type payload none with
  | whole n hn _ _ _ ho =>
    rw [ho, Option.some.inj hn]
  | torn _ _ _ hr =>
    rw [hzero] at hr
    cases hr
  | dead hn => cases hn

/-- A message for someone online is written to their socket at once. -/
theorem relay_online (hf : w.env.Faultless) (id : UInt32) (data : Bytes)
    (hj : findClientByUsername w.server recipient = some j)
    (hfd' : (w.server.clients j).socketFd = some fd') :
    (relay w i id recipient data).1 = 1 ∧
      (relay w i id recipient data).2.server = w.server ∧
      (relay w i id recipient data).2.out = w.out ++ [.frame fd' .incomingMessage
        (directPayload id (w.server.clients i).username (time w).1 data) none] ∧
      (relay w i id recipient data).2.env.Faultless := by
  obtain ⟨hroom, hleft⟩ := malloc_faultless (time_faultless hf)
  obtain ⟨hzero, hout, hend⟩ := sendNetworkMessage_out hleft fd' .incomingMessage
    (directPayload id (w.server.clients i).username (time w).1 data)
  unfold relay
  dsimp only
  rw [hj]
  dsimp only
  rw [hroom, if_neg (by decide), hfd', if_pos hzero]
  exact ⟨rfl, by rw [sendNetworkMessage_server, malloc_server, time_server],
    by rw [hout, malloc_out, time_out], hend⟩

theorem handleSendMessage_online {payload : Bytes} (hf : w.env.Faultless)
    (hparse : parseSendMessage payload = .ok (recipient, data))
    (hk : (findUser w.server recipient).isSome)
    (hj : findClientByUsername w.server recipient = some j)
    (hfd : (w.server.clients i).socketFd = some fd)
    (hfd' : (w.server.clients j).socketFd = some fd') :
    ∃ t, (handleSendMessage w i payload).2.out = w.out ++
      [.frame fd' .incomingMessage
        (directPayload w.server.nextMessageId (w.server.clients i).username t data) none,
        .frame fd .messageAck (ackPayload w.server.nextMessageId 1) none] := by
  obtain ⟨k, hk⟩ := Option.isSome_iff_exists.mp hk
  obtain ⟨hone, hserver, hout, hleft⟩ := relay_online (w := (drawMessageId w).2) (i := i) hf
    w.server.nextMessageId data hj hfd'
  have hfd₁ : ((relay (drawMessageId w).2 i w.server.nextMessageId recipient data).2.server.clients
      i).socketFd = some fd := by
    rw [hserver]
    exact hfd
  obtain ⟨_, hack, _⟩ := sendNetworkMessage_out hleft fd .messageAck
    (ackPayload w.server.nextMessageId 1)
  refine ⟨(time (drawMessageId w).2).1, ?_⟩
  have hanswered : (handleSendMessage w i payload).2 =
      (reply (relay (drawMessageId w).2 i w.server.nextMessageId recipient data).2 i .messageAck
        (ackPayload w.server.nextMessageId 1)).2 := by
    have hsent : ¬(relay (drawMessageId w).2 i (drawMessageId w).1 recipient data).1 = 0 := by
      change ¬(relay (drawMessageId w).2 i w.server.nextMessageId recipient data).1 = 0
      rw [hone]
      decide
    unfold handleSendMessage
    rw [hparse]
    dsimp only
    rw [hk]
    dsimp only
    rw [if_neg hsent]
    change (reply _ i .messageAck (ackPayload w.server.nextMessageId
      (relay (drawMessageId w).2 i w.server.nextMessageId recipient data).1)).2 = _
    rw [hone]
    rfl
  rw [hanswered, reply, hfd₁, hack, hout, List.append_assoc]
  rfl

/-- An admissible request meets the `switch` in a server that differs from `w`
in the rate limit only. -/
theorem step_dispatch {type : UInt8} {payload : Bytes} {env : Env} (hw : Sound w)
    (hconn : (w.server.clients i).connected = true) (hfd : (w.server.clients i).socketFd = some fd)
    (hadmissible : Admissible i w (.request type payload env))
    (htype : type ≠ MessageType.logout.code) :
    ∃ v r, step verify w (.receive i (packet type payload) env) = dispatch verify v i type payload ∧
      v.out = w.out ++ [.request fd type payload] ∧
      v.server = (w.modifyClient i (fun c ↦ { c with rateLimit := r })).server ∧
      v.env.Faultless := by
  have hreq := takeRequest_admissible hadmissible
  obtain ⟨hout, r, hserver⟩ := takeRequest_some (w := { w with env := env }) (i := i) hfd hreq
  have hf := takeRequest_faultless (w := { w with env := env }) hadmissible.2.1 hreq
  obtain ⟨hturn, _, _⟩ := @clientHandler_dispatch verify i w fd _ env _ _ hfd hconn
    hw.sockets.running hreq htype
  exact ⟨_, r, (step_receive _ _ hconn).trans hturn, hout, hserver, hf⟩

theorem limited_identity {v : World} {r : RateLimit}
    (hserver : v.server = (w.modifyClient i (fun c ↦ { c with rateLimit := r })).server) (k : ℕ) :
    SameIdentity (w.server.clients k) (v.server.clients k) := by
  rw [hserver]
  by_cases hk : k = i
  · rw [hk, modifyClient_self]
    exact ⟨rfl, rfl, rfl, rfl, rfl⟩
  · rw [modifyClient_other _ _ hk]
    exact ⟨rfl, rfl, rfl, rfl, rfl⟩

/-- A `SEND_MESSAGE` to someone online, from the bytes of the sender's request
to the two frames the server writes. -/
theorem send_online {payload : Bytes} {env : Env} (hw : CChat.Server.Presence.Tracked verify w)
    (hi : LoggedIn w i fd) (hj : findClientByUsername w.server recipient = some j)
    (hfd' : (w.server.clients j).socketFd = some fd')
    (hparse : parseSendMessage payload = .ok (recipient, data))
    (hadmissible : Admissible i w (.request MessageType.sendMessage.code payload env)) :
    ∃ t, (step verify w (.receive i (packet MessageType.sendMessage.code payload) env)).out =
      w.out ++ [.request fd MessageType.sendMessage.code payload,
        .frame fd' .incomingMessage
          (directPayload w.server.nextMessageId (w.server.clients i).username t data) none,
        .frame fd .messageAck (ackPayload w.server.nextMessageId 1) none] := by
  obtain ⟨v, r, hstep, hout, hserver, hf⟩ := @step_dispatch verify w i fd _ _ _ hw.steady.sound
    hi.connected hi.socket hadmissible (by decide)
  have hclient := limited_identity hserver
  have husers : v.server.users = w.server.users ∧ v.server.userCount = w.server.userCount ∧
      v.server.clientCount = w.server.clientCount ∧
      v.server.nextMessageId = w.server.nextMessageId := by
    rw [hserver]
    exact ⟨rfl, rfl, rfl, rfl⟩
  have hj' : findClientByUsername v.server recipient = some j := by
    rw [← hj, findClientByUsername, findClientByUsername, husers.2.2.1]
    refine List.find?_congr (fun k _ ↦ ?_)
    simp only [holds, (hclient k).connected, (hclient k).authenticated, (hclient k).username]
  obtain ⟨_, _, hauth', hname⟩ := findClient_some hj
  have hk : (findUser v.server recipient).isSome := by
    obtain ⟨k, hk⟩ := CChat.Server.Presence.Manned.user hw.manned hauth'
    rw [hname] at hk
    rw [findUser_congr husers.1 husers.2.1, hk]
    rfl
  obtain ⟨t, ht⟩ := handleSendMessage_online (w := v) (i := i) hf hparse hk hj'
    ((hclient i).socketFd.trans hi.socket) ((hclient j).socketFd.trans hfd')
  refine ⟨t, ?_⟩
  have hdispatch : dispatch verify v i MessageType.sendMessage.code payload =
      (handleSendMessage v i payload).2 := by
    unfold dispatch
    rw [if_neg (by decide), if_neg (by decide), if_neg (by decide), if_pos rfl, authenticatedOnly,
      (hclient i).authenticated, hi.authenticated]
    rfl
  rw [hstep, hdispatch, ht, hout, (hclient i).username, husers.2.2.2, List.append_assoc]
  rfl

theorem step_grows (hw : Steady w) (x : Input) : ∃ es, (step verify w x).out = w.out ++ es := by
  cases @step_turn verify w hw.sound x with
  | accept challenge created _ h =>
    obtain ho | ho := Accepted.out h
    · exact ⟨[], ho.trans (List.append_nil _).symm⟩
    · exact ⟨_, ho⟩
  | idle i stream env _ _ h => exact ⟨[], by rw [h, List.append_nil]⟩
  | handled i stream env fd _ _ _ h => exact CChat.Server.Views.Chain.grows h

theorem run_grows (hw : Steady w) (xs : List Input) :
    ∃ es, (Runs.run (step verify) w xs).out = w.out ++ es := by
  induction xs generalizing w with
  | nil => exact ⟨[], (List.append_nil _).symm⟩
  | cons x xs ih =>
    obtain ⟨es, hes⟩ := @step_grows verify w hw x
    obtain ⟨more, hmore⟩ := ih (step_steady hw x)
    exact ⟨es ++ more, by rw [Runs.run_cons, hmore, hes, List.append_assoc]⟩

/-- The sender is sent the acknowledgement and no more, and whatever the
recipient is sent later comes behind the message. -/
theorem send_wires {payload : Bytes} {env : Env} (hw : CChat.Server.Presence.Tracked verify w)
    (hi : LoggedIn w i fd) (hne : i ≠ j)
    (hj : findClientByUsername w.server recipient = some j)
    (hfd' : (w.server.clients j).socketFd = some fd')
    (hparse : parseSendMessage payload = .ok (recipient, data))
    (hadmissible : Admissible i w (.request MessageType.sendMessage.code payload env)) :
    ∃ t, wire fd (step verify w
        (.receive i (packet MessageType.sendMessage.code payload) env)).out = wire fd w.out ++
          packet MessageType.messageAck.code (ackPayload w.server.nextMessageId 1) ∧
      ∀ later, ∃ more, wire fd' (Runs.run (step verify) w
        (.receive i (packet MessageType.sendMessage.code payload) env :: later)).out =
          wire fd' w.out ++ (packet MessageType.incomingMessage.code (directPayload
            w.server.nextMessageId (w.server.clients i).username t data) ++ more) := by
  obtain ⟨t, hout⟩ := send_online hw hi hj hfd' hparse hadmissible
  have hdistinct : fd' ≠ fd := by
    rintro rfl
    exact hne (hw.steady.sound.sockets.distinct i j fd' hi.socket hfd')
  refine ⟨t, ?_, fun later ↦ ?_⟩
  · rw [hout]
    simp [wire, Event.sent, hdistinct]
  · obtain ⟨es, hes⟩ := @run_grows verify _ (step_steady hw.steady
      (.receive i (packet MessageType.sendMessage.code payload) env)) later
    refine ⟨wire fd' es, ?_⟩
    rw [Runs.run_cons, hes, wire_append, hout]
    simp [wire, Event.sent, hdistinct.symm]

/-- A client takes in the first frame it was sent and has not read. -/
theorem receives_first {s : ℕ} {f : Frame} {more : Bytes} (hs : c.serverSocket = some s)
    (hroom : Allocates c.env.mallocs) (hfits : f.2.length < 2 ^ 32)
    (hin : c.channel.incoming = packet f.1 f.2 ++ more) :
    (Network.receiveNetworkMessage c).1 = some f := by
  have hd : Framing.decodeOne codec c.channel.incoming = some (f, more) := by
    rw [hin]
    exact Framing.decodeOne_encode codec f hfits more
  have hreceived := Network.receiveNetworkMessage_received hs
  generalize Network.receiveNetworkMessage c = result at hreceived ⊢
  cases hreceived with
  | frame f' rest c' hd' =>
    rw [hd] at hd'
    cases hd'
    rfl
  | ended c' hd' =>
    rw [hd] at hd'
    cases hd'
  | noRoom f' rest c' _ _ hno =>
    rw [(clientMalloc_allocates hroom).1] at hno
    cases hno

/-- The client behind a descriptor when the server has got as far as `w`: it
has read all it was sent, and none of its own calls fails. -/
structure Attached (w : World) (fd : Fd) (c : ClientState) : Prop where
  socket : ∃ s, c.serverSocket = some s
  connected : c.connectedToServer = true
  mallocs : Allocates c.env.mallocs
  sends : c.env.sends = []
  consumed : c.channel.consumed = (wire fd w.out).length

/-- A request is answered by the first frame the server writes once it has it. -/
theorem Attached.answered (h : Attached w fd c) {type : UInt8} {payload : Bytes} {response : Frame}
    {more : Bytes} (hfits : response.2.length < 2 ^ 32)
    (hpeer : c.channel.peer (c.channel.written ++ packet type payload) =
      wire fd w.out ++ (packet response.1 response.2 ++ more)) :
    (Network.request c type payload).1 = .ok response := by
  obtain ⟨s, hs⟩ := h.socket
  obtain ⟨hroom, hleft⟩ := clientMalloc_allocates h.mallocs
  obtain ⟨hsocket, hconnected⟩ := Network.malloc_sockets c
  have hsends : (Network.malloc c).2.env.sends = [] := by
    unfold Network.malloc
    split <;> exact h.sends
  have hsent := Network.sendNetworkMessage_quiet (hsocket.trans hs) (hconnected.trans h.connected)
    hsends type payload
  have hin : (Network.write (Network.malloc c).2 (packet type payload)).channel.incoming =
      packet response.1 response.2 ++ more := by
    rw [Network.write, Network.malloc_channel, Network.Channel.incoming]
    dsimp only
    rw [hpeer, h.consumed, List.drop_left]
  have hfirst := receives_first (c := Network.write (Network.malloc c).2 (packet type payload))
    (hsocket.trans hs) hleft hfits hin
  unfold Network.request
  dsimp only
  rw [hroom, if_neg (by decide), hsent, if_neg (Int.lt_irrefl 0), hfirst]

/-- What a chat line to someone online comes to: it is acknowledged, and the
next frame its recipient takes in, at once or later, carries it under the
sender's name and opens to the line. -/
structure Relayed (sodium : Sodium) (initialized : Bool) (w : World) (i : ℕ) (c d : ClientState)
    (partner : Username) (message encrypted : Bytes) (keys : SessionKeys) (privateKey : Key) :
    Prop where
  reported : (sendMessageSecure sodium initialized c partner message keys).1 = .success
  accepted : Acknowledged c partner.bytes encrypted
  received : ∃ payload t,
    (Network.receiveNetworkMessage d).1 = some (MessageType.incomingMessage.code, payload) ∧
      decodeIncoming payload = some ⟨w.server.nextMessageId.toNat,
        (w.server.clients i).username.bytes, timestampBits t, encrypted⟩
  opened : ∀ initialized', (initCryptoLibrary sodium initialized').1 = .success →
    (Crypto.received sodium initialized' encrypted privateKey).GivesBack message

/-- A client that has read all that `w` wrote to it and then finds `bytes`. -/
def clientOn (w : World) (fd : Fd) (bytes : Bytes) : ClientState :=
  ⟨some 3, true, [3], 4, ⟨fun _ ↦ bytes, [], (wire fd w.out).length⟩, ⟨[], [], [], []⟩⟩

theorem clientOn_attached (w : World) (fd : Fd) (bytes : Bytes) :
    Attached w fd (clientOn w fd bytes) :=
  ⟨⟨3, rfl⟩, rfl, List.forall_mem_nil _, rfl, rfl⟩

theorem clientOn_peer (w : World) (fd : Fd) (bytes said : Bytes) :
    (clientOn w fd bytes).channel.peer said = bytes := rfl

def metRun : List Input :=
  [.accept (Block.zero _) true, .accept (Block.zero _) true,
    .receive 0 (registerPacket (text "alice") (List.replicate 32 0)) .quiet,
    .receive 1 (registerPacket (text "bob") (List.replicate 32 0)) .quiet,
    .receive 0 (loginPacket (text "alice") (List.replicate 64 0)) .quiet,
    .receive 1 (loginPacket (text "bob") (List.replicate 64 0)) .quiet]

def hello : Bytes := List.replicate sealBytes 0 ++ text "hello"

def helloPacket : Bytes := sendPacket (Username.ofBytes (text "bob")).bytes hello

end CChat.Client.Relay
