import CChat.Client.Pairing
import CChat.Server.Names
import CChat.Server.Receiving

namespace CChat.Client.Requests

open CChat.Library CChat.Protocol.Types CChat.Protocol.Wire CChat.Client.Pairing
open CChat.Server.State CChat.Server.Network CChat.Server.Receiving CChat.Server.Users
open CChat.Server.Handlers CChat.Server.Names

def Call.request : Call → Frame
  | .registerUser username publicKey => (0x01, nameField username ++ publicKey.toList)
  | .getPublicKey username => (0x03, nameField username)
  | .sendMessage recipient encryptedMessage =>
    (0x04, nameField recipient ++
      (BigEndian.bytes 2 encryptedMessage.length ++ encryptedMessage))

def ackFields (payload : Bytes) : UInt32 × UInt8 :=
  (UInt32.ofNat (BigEndian.value (payload.take 4)), payload.getD 4 0)

structure Ready (c : Network.ClientState) : Prop where
  socket : ∃ s, c.serverSocket = some s
  connected : c.connectedToServer = true
  room : (Network.malloc c).1 = true
  sends : c.env.sends = []

theorem receive_written (c : Network.ClientState) :
    (Network.receiveNetworkMessage c).2.channel.written = c.channel.written := by
  have hmalloc := congrArg Network.Channel.written (Network.malloc_channel (Network.recv c 5).2)
  unfold Network.receiveNetworkMessage
  dsimp only
  split
  · rfl
  · split_ifs
    · rfl
    · exact hmalloc
    · exact hmalloc
    · exact hmalloc
    · rfl

theorem request_written {c : Network.ClientState} (h : Ready c) (type : UInt8) (payload : Bytes) :
    (Network.request c type payload).2.channel.written =
      c.channel.written ++ packet type payload := by
  obtain ⟨s, hs⟩ := h.socket
  obtain ⟨hsocket, hconnected⟩ := Network.malloc_sockets c
  have hsends : (Network.malloc c).2.env.sends = [] := by
    unfold Network.malloc
    split <;> exact h.sends
  have hsent := Network.sendNetworkMessage_quiet (hsocket.trans hs) (hconnected.trans h.connected)
    hsends type payload
  have hwritten := receive_written (Network.write (Network.malloc c).2 (packet type payload))
  have hchannel := Network.malloc_channel c
  unfold Network.request
  dsimp only
  rw [h.room, if_neg (by decide), hsent, if_neg (Int.lt_irrefl 0)]
  rw [Network.write, hchannel] at hwritten
  rw [Network.write, hchannel]
  split <;> exact hwritten

/-- A call whose arguments are let through makes its request and no other. -/
theorem Call.perform_request {c : Network.ClientState} {call : Call}
    (hconnected : c.connectedToServer = true) (hsends : call.Sends) :
    (call.perform c).2 = (Network.request c (Call.request call).1 (Call.request call).2).2 := by
  cases call with
  | registerUser username publicKey =>
    simp only [Call.perform, Network.registerUserWithServer, hconnected]
    rw [if_neg (by decide), if_neg (Nat.not_le.mpr hsends)]
    dsimp only [Call.request]
    split <;> rfl
  | getPublicKey username =>
    simp only [Call.perform, Network.getUserPublicKey, hconnected]
    rw [if_neg (by decide), if_neg (Nat.not_le.mpr hsends)]
    dsimp only [Call.request]
    split <;> rfl
  | sendMessage recipient encryptedMessage =>
    obtain ⟨hname, hpos, hlong⟩ := hsends
    have hargs : ¬ (encryptedMessage.length = 0 || !c.connectedToServer) = true := by
      simp [hconnected, Nat.ne_of_gt hpos]
    have hsizes : ¬ (recipient.length ≥ maxUsernameLen ∨
        encryptedMessage.length > maxMessageLen + 100) := by
      omega
    simp only [Call.perform, Network.sendMessageToServer]
    rw [if_neg hargs, if_neg hsizes]
    dsimp only [Call.request]
    split <;> rfl

theorem Call.perform_written {c : Network.ClientState} {call : Call} (h : Ready c)
    (hsends : call.Sends) :
    (call.perform c).2.channel.written =
      c.channel.written ++ Framing.encode codec (Call.request call) := by
  rw [Call.perform_request h.connected hsends, request_written h]
  rfl

structure Arrives (call : Call) (type : MessageType) (payload : Bytes) : Prop where
  fits : payload.length ≤ maxMessageLen * 2
  written : ∀ c, Ready c →
    (call.perform c).2.channel.written = c.channel.written ++ packet type.code payload
  received : ∀ w : World, Allocates w.env.mallocs →
    (receiveNetworkMessage w (packet type.code payload)).1 = .message type.code payload

theorem arrives {call : Call} {type : MessageType} {payload : Bytes}
    (hrequest : Call.request call = (type.code, payload)) (hsends : call.Sends)
    (hfits : payload.length ≤ maxMessageLen * 2) : Arrives call type payload := by
  refine ⟨hfits, fun c hc ↦ ?_, fun w hw ↦ ?_⟩
  · rw [Call.perform_written hc hsends, hrequest]
    rfl
  · have hmessage := receiveNetworkMessage_frame hw (f := (type.code, payload)) hfits []
    rw [List.append_nil] at hmessage
    exact hmessage

variable {name data : Bytes}

theorem ValidName.ofBytes (h : ValidName name) : (Username.ofBytes name).bytes = name :=
  (ofBytes_exact h.2.1).mpr h.no_nul

theorem nameField_length (name : Bytes) : (nameField name).length = 1 + name.length :=
  Nat.add_comm _ _

theorem parseRegister_request (h : ValidName name) (key : Key) :
    parseRegister (nameField name ++ key.toList) = .ok (Username.ofBytes name, key) := by
  have hkey : key.toList.length = publicKeySize := key.toList_length
  have hvalid := (validateUsernameServer_iff _).mpr h
  have hread := Block.read_append key []
  rw [List.append_nil] at hread
  unfold parseRegister
  rw [readName_nameField h.1 h.2.1 (by omega) (by omega)]
  dsimp only
  rw [ValidName.ofBytes h, if_neg hvalid, hread]

theorem parseGetPublicKey_request (h : ValidName name) :
    parseGetPublicKey (nameField name) = .ok (Username.ofBytes name) := by
  have hread := @readName_nameField 1 0 "Invalid public key request" "Invalid username length"
    name [] h.1 h.2.1 (by omega) (by omega)
  rw [List.append_nil] at hread
  rw [parseGetPublicKey, hread]

theorem parseSendMessage_request (h : ValidName name) (hpos : 0 < data.length)
    (hlong : data.length ≤ maxMessageLen + 100) :
    parseSendMessage (nameField name ++ (BigEndian.bytes 2 data.length ++ data)) =
      .ok (Username.ofBytes name, data) := by
  have htwo : (BigEndian.bytes 2 data.length).length = 2 := BigEndian.bytes_length _ _
  have hsize : data.length < 256 ^ 2 := hlong.trans_lt (by decide)
  have hlen : (BigEndian.bytes 2 data.length ++ data).length = 2 + data.length := by
    rw [List.length_append, htwo]
  have htake : (BigEndian.bytes 2 data.length ++ data).take 2 = BigEndian.bytes 2 data.length :=
    List.take_left' htwo
  have hdrop : (BigEndian.bytes 2 data.length ++ data).drop 2 = data := List.drop_left' htwo
  unfold parseSendMessage
  rw [readName_nameField h.1 h.2.1 (by omega) (by omega)]
  dsimp only
  rw [htake, hdrop, BigEndian.value_bytes_of_lt hsize, hlen, if_neg (by omega), List.take_length]

theorem ackFields_ackPayload (id : UInt32) (status : UInt8) :
    ackFields (ackPayload id status) = (id, status) := by
  have hfour : (BigEndian.bytes 4 id.toNat).length = 4 := BigEndian.bytes_length _ _
  have htake : (ackPayload id status).take 4 = BigEndian.bytes 4 id.toNat := List.take_left' hfour
  rw [ackFields, htake, BigEndian.value_bytes_of_lt id.toNat_lt, UInt32.ofNat_toNat]
  rfl

theorem readMessageAck_ackPayload (id : UInt32) (status : UInt8) :
    Network.readMessageAck (MessageType.messageAck.code, ackPayload id status) =
      if status = 0 then .network else .success := rfl

theorem readPublicKeyResponse_found (key : Key) :
    Network.readPublicKeyResponse (MessageType.publicKeyResponse.code, 1 :: key.toList) =
      (.success, some key) := by
  have hkey : key.toList.length = publicKeySize := key.toList_length
  have hread := Block.read_append key []
  rw [List.append_nil] at hread
  have htype : ¬ MessageType.publicKeyResponse.code ≠ 0x83 := by decide
  have hfound : ¬ ((1 :: key.toList).length < 1 ∨ (1 :: key.toList).getD 0 0 = 0) := by
    rintro (hshort | hzero)
    · rw [List.length_cons] at hshort
      omega
    · rw [List.getD_cons_zero] at hzero
      exact absurd hzero (by decide)
  have hlong : ¬ (1 :: key.toList).length < 1 + publicKeySize := by
    rw [List.length_cons, hkey]
    omega
  unfold Network.readPublicKeyResponse
  rw [if_neg htype, if_neg hfound, if_neg hlong]
  exact congrArg (fun key ↦ (Network.CchatError.success, some key)) hread

theorem handleGetPublicKey_read (w : World) (i : ℕ) {payload : Bytes} {u : Username}
    (h : parseGetPublicKey payload = .ok u) :
    ∃ response, handleGetPublicKey w i payload = reply w i .publicKeyResponse response ∧
      Network.readPublicKeyResponse (MessageType.publicKeyResponse.code, response) =
        match findUser w.server u with
        | some k => (.success, some (w.server.users k).publicKey)
        | none => (.userNotFound, none) := by
  unfold handleGetPublicKey
  rw [h]
  dsimp only
  cases findUser w.server u with
  | none => exact ⟨[0], rfl, rfl⟩
  | some k => exact ⟨_, rfl, readPublicKeyResponse_found _⟩

theorem handleSendMessage_ack (w : World) (i : ℕ) {payload : Bytes} {u : Username} {data : Bytes}
    (h : parseSendMessage payload = .ok (u, data)) (hu : (findUser w.server u).isSome) :
    ∃ (v : World) (status : UInt8), (handleSendMessage w i payload).2 =
      (reply v i .messageAck (ackPayload w.server.nextMessageId status)).2 := by
  obtain ⟨k, hk⟩ := Option.isSome_iff_exists.mp hu
  unfold handleSendMessage
  rw [h]
  dsimp only
  rw [hk]
  dsimp only
  split <;> exact ⟨_, _, rfl⟩

/-- The server takes a client's request for what the client put into it, and the
client the server's answer. -/
theorem requests_agree (hname : ValidName name) (key : Key) (hpos : 0 < data.length)
    (hlong : data.length ≤ maxMessageLen + 100) :
    (∃ (u : Username) (payload payload' payload'' : Bytes), u.bytes = name ∧
      Arrives (.registerUser name key) .registerUser payload ∧
      parseRegister payload = .ok (u, key) ∧
      Arrives (.getPublicKey name) .getPublicKey payload' ∧
      parseGetPublicKey payload' = .ok u ∧
      Arrives (.sendMessage name data) .sendMessage payload'' ∧
      parseSendMessage payload'' = .ok (u, data)) ∧
    (∀ (w : World) (i : ℕ) (payload : Bytes) (u : Username), parseGetPublicKey payload = .ok u →
      ∃ response, handleGetPublicKey w i payload = reply w i .publicKeyResponse response ∧
        Network.readPublicKeyResponse (MessageType.publicKeyResponse.code, response) =
          match findUser w.server u with
          | some k => (.success, some (w.server.users k).publicKey)
          | none => (.userNotFound, none)) ∧
    (∀ (w : World) (i : ℕ) (payload : Bytes) (u : Username) (data : Bytes),
      parseSendMessage payload = .ok (u, data) → (findUser w.server u).isSome →
      ∃ (v : World) (status : UInt8), (handleSendMessage w i payload).2 =
        (reply v i .messageAck (ackPayload w.server.nextMessageId status)).2) ∧
    ∀ (id : UInt32) (status : UInt8), ackFields (ackPayload id status) = (id, status) ∧
      Network.readMessageAck (MessageType.messageAck.code, ackPayload id status) =
        if status = 0 then .network else .success := by
  have hkey : key.toList.length = publicKeySize := key.toList_length
  have htwo : (BigEndian.bytes 2 data.length).length = 2 := BigEndian.bytes_length _ _
  have hshort := hname.2.1
  have hbounds : maxUsernameLen = 32 ∧ maxMessageLen = 1024 ∧ publicKeySize = 32 := ⟨rfl, rfl, rfl⟩
  refine ⟨⟨Username.ofBytes name, _, _, _, ValidName.ofBytes hname, ?_,
    parseRegister_request hname key, ?_, parseGetPublicKey_request hname, ?_,
    parseSendMessage_request hname hpos hlong⟩, fun w i payload u h ↦ handleGetPublicKey_read w i h,
    fun w i payload u data h hu ↦ handleSendMessage_ack w i h hu,
    fun id status ↦ ⟨ackFields_ackPayload id status, readMessageAck_ackPayload id status⟩⟩
  · refine arrives rfl hshort ?_
    rw [List.length_append, nameField_length, hkey]
    omega
  · refine arrives rfl hshort ?_
    rw [nameField_length]
    omega
  · refine arrives rfl ⟨hshort, hpos, hlong⟩ ?_
    rw [List.length_append, List.length_append, nameField_length, htwo]
    omega

theorem requests_agree_alice :
    (∃ (u : Username) (payload : Bytes), u.bytes = text "alice" ∧
      Arrives (.sendMessage (text "alice") [7]) .sendMessage payload ∧
      parseSendMessage payload = .ok (u, [7])) ∧
    ackFields (ackPayload 258 2) = (258, 2) := by
  have h := @requests_agree (text "alice") [7] (by decide +kernel) (Block.zero _) (by decide)
    (by decide)
  obtain ⟨⟨u, _, _, payload, hu, _, _, _, _, hsent, hparse⟩, _, _, hack⟩ := h
  have hread := (hack 258 2).1
  exact ⟨⟨u, payload, hu, hsent, hparse⟩, hread⟩

end CChat.Client.Requests
