import CChat.Server.Bounds
import CChat.Client.Network

namespace CChat.Client.Bounds

open CChat.Library CChat.Library.Access CChat.Protocol.Types CChat.Protocol.Wire Network

/-- The payload `receive_network_message` hands over: without bytes the pointer is null. -/
def received (bytes : Bytes) (h : bytes.length < 2 ^ 32) : Span UInt8 where
  pointer := if bytes.length > 0 then some bytes else none
  len := UInt32.ofNat bytes.length
  sized := by
    intro values hvalues
    obtain ⟨_, heq⟩ := Option.ite_none_right_eq_some.mp hvalues
    obtain rfl := Option.some.inj heq
    rw [UInt32.toNat_ofNat', Nat.mod_eq_of_lt h]

/-- The end of `register_user_with_server`. -/
def readRegisterResponse (type : UInt8) (p : Span UInt8) : Checked CchatError := do
  if type ≠ 0x81 ∨ p.len < 2 then return .network
  let success ← load p 0
  let errorCode ← load p 1
  if success = 1 then return .success
  if errorCode = 0x02 then return .auth
  if errorCode = 0x01 then return .invalidArgs
  return .network

/-- The end of `get_user_public_key`; no byte is looked at when there is none. -/
def readPublicKeyResponse (type : UInt8) (p : Span UInt8) : Checked (CchatError × Option Key) := do
  if type ≠ 0x83 then return (.network, none)
  if p.len < 1 then return (.userNotFound, none)
  if (← load p 0) = 0 then return (.userNotFound, none)
  if p.len < 1 + 32 then return (.network, none)
  let publicKey ← loadRange p 1 publicKeySize
  return (.success, some (Block.read publicKeySize publicKey))

/-- The end of `send_message_to_server`, which takes the message's identifier
and does nothing with it. -/
def readMessageAck (type : UInt8) (p : Span UInt8) : Checked CchatError := do
  if type ≠ 0x84 ∨ p.len < 5 then return .network
  let b₀ ← load p 0
  let b₁ ← load p 1
  let b₂ ← load p 2
  let b₃ ← load p 3
  let _messageId := (b₀.toUInt32 <<< 24) ||| (b₁.toUInt32 <<< 16) ||| (b₂.toUInt32 <<< 8) |||
    b₃.toUInt32
  let status ← load p 4
  if status = 0 then return .network
  return .success

def readAnswer {β : Type} (answered : Except CchatError Frame × ClientState)
    (failed : CchatError → β) (parse : UInt8 → Span UInt8 → Checked β) :
    Checked (β × ClientState) := do
  match answered.1 with
  | .error e => return (failed e, answered.2)
  | .ok (type, payload) =>
    if h : payload.length < 2 ^ 32 then return (← parse type (received payload h), answered.2)
    else throw .read

def registerUserWithServer (c : ClientState) (username : Bytes) (publicKey : Key) :
    Checked (CchatError × ClientState) := do
  if !c.connectedToServer then return (.network, c)
  if username.length ≥ maxUsernameLen then return (.invalidArgs, c)
  readAnswer (request c 0x01 (nameField username ++ publicKey.toList)) id readRegisterResponse

def getUserPublicKey (c : ClientState) (username : Bytes) :
    Checked ((CchatError × Option Key) × ClientState) := do
  if !c.connectedToServer then return ((.network, none), c)
  if username.length ≥ maxUsernameLen then return ((.invalidArgs, none), c)
  readAnswer (request c 0x03 (nameField username)) (fun e ↦ (e, none)) readPublicKeyResponse

def sendMessageToServer (c : ClientState) (recipient encryptedMessage : Bytes) :
    Checked (CchatError × ClientState) := do
  if encryptedMessage.length = 0 || !c.connectedToServer then return (.network, c)
  if recipient.length ≥ maxUsernameLen ∨ encryptedMessage.length > maxMessageLen + 100 then
    return (.invalidArgs, c)
  readAnswer (request c 0x04 (nameField recipient ++
    (BigEndian.bytes 2 encryptedMessage.length ++ encryptedMessage))) id readMessageAck

variable {bytes : Bytes} {h : bytes.length < 2 ^ 32}

theorem received_len_lt (m : UInt32) (n : ℕ) (hm : m.toNat = n) :
    (received bytes h).len < m ↔ bytes.length < n := by
  rw [UInt32.lt_iff_toNat_lt, hm, received, UInt32.toNat_ofNat', Nat.mod_eq_of_lt h]

theorem received_pointer (hlong : 0 < bytes.length) : (received bytes h).pointer = some bytes :=
  if_pos hlong

theorem received_load {n : ℕ} (hlong : n ≤ bytes.length) :
    ∀ i < n, load (received bytes h) i = .ok (bytes.getD i 0) := by
  intro i hi
  have hinside : i < bytes.length := Nat.lt_of_lt_of_le hi hlong
  rw [load_ok (received_pointer (Nat.zero_lt_of_lt hinside)) hinside, List.getD_eq_getElem?_getD,
    List.getElem?_eq_getElem hinside, Option.getD_some]

theorem readRegisterResponse_ok (type : UInt8) :
    readRegisterResponse type (received bytes h) =
      .ok (Network.readRegisterResponse (type, bytes)) := by
  unfold readRegisterResponse Network.readRegisterResponse
  simp only [received_len_lt 2 2 rfl]
  by_cases hshort : type ≠ 0x81 ∨ bytes.length < 2
  · rw [if_pos hshort, if_pos hshort]
    rfl
  · have hload := @received_load _ h 2 (Nat.not_lt.mp (not_or.mp hshort).2)
    rw [if_neg hshort, if_neg hshort, hload 0 (by decide), ok_bind, hload 1 (by decide), ok_bind]
    split_ifs <;> rfl

theorem readPublicKeyResponse_ok (type : UInt8) :
    readPublicKeyResponse type (received bytes h) =
      .ok (Network.readPublicKeyResponse (type, bytes)) := by
  unfold readPublicKeyResponse Network.readPublicKeyResponse
  simp only [received_len_lt 1 1 rfl, received_len_lt (1 + 32) (1 + publicKeySize) rfl]
  by_cases htype : type ≠ 0x83
  · rw [if_pos htype, if_pos htype]
    rfl
  rw [if_neg htype, if_neg htype]
  by_cases hempty : bytes.length < 1
  · rw [if_pos hempty, if_pos (.inl hempty)]
    rfl
  have hload := @received_load _ h 1 (Nat.not_lt.mp hempty)
  rw [if_neg hempty, hload 0 (by decide), ok_bind]
  by_cases hzero : bytes.getD 0 0 = 0
  · rw [if_pos hzero, if_pos (.inr hzero)]
    rfl
  have hpresent : ¬ (bytes.length < 1 ∨ bytes.getD 0 0 = 0) := not_or.mpr ⟨hempty, hzero⟩
  rw [if_neg hzero, if_neg hpresent]
  by_cases hshort : bytes.length < 1 + publicKeySize
  · rw [if_pos hshort, if_pos hshort]
    rfl
  · have hlong : 1 + publicKeySize ≤ bytes.length := Nat.not_lt.mp hshort
    rw [if_neg hshort, if_neg hshort,
      loadRange_ok (received_pointer (Nat.not_lt.mp hempty)) hlong, ok_bind,
      Server.Bounds.read_take (Nat.le_sub_of_add_le' hlong)]
    rfl

theorem readMessageAck_ok (type : UInt8) :
    readMessageAck type (received bytes h) = .ok (Network.readMessageAck (type, bytes)) := by
  unfold readMessageAck Network.readMessageAck
  simp only [received_len_lt 5 5 rfl]
  by_cases hshort : type ≠ 0x84 ∨ bytes.length < 5
  · rw [if_pos hshort, if_pos hshort]
    rfl
  · have hload := @received_load _ h 5 (Nat.not_lt.mp (not_or.mp hshort).2)
    rw [if_neg hshort, if_neg hshort, hload 0 (by decide), hload 1 (by decide), hload 2 (by decide),
      hload 3 (by decide), hload 4 (by decide)]
    simp only [ok_bind]
    split_ifs <;> rfl

theorem readHeader_lt (header : Bytes) : (readHeader header).2 < 2 ^ 32 := by
  have hvalue := BigEndian.value_lt (header.take 4)
  have hfour : (header.take 4).length ≤ 4 := List.length_take_le 4 header
  calc (readHeader header).2 < 256 ^ (header.take 4).length := hvalue
    _ ≤ 256 ^ 4 := Nat.pow_le_pow_right (by decide) hfour
    _ = 2 ^ 32 := rfl

/-- A frame that is received is no longer than its header can say. -/
theorem request_fits {c : ClientState} {type : UInt8} {payload : Bytes} {f : Frame}
    (h : (request c type payload).1 = .ok f) : f.2.length < 2 ^ 32 := by
  cases hs : c.serverSocket with
  | none =>
    have hsent : (sendNetworkMessage (malloc c).2 type payload).1 = -1 := by
      rw [sendNetworkMessage, (malloc_sockets c).1, hs]
      rfl
    unfold request at h
    dsimp only at h
    split at h
    · cases h
    · rw [hsent, if_pos (by decide)] at h
      cases h
  | some s =>
    obtain ⟨rest, hdecoded⟩ := request_ok hs h
    obtain ⟨hlength, _⟩ := Framing.decodeOne_announced codec hdecoded
    rw [hlength]
    exact readHeader_lt _

theorem readAnswer_ok {β : Type} {c : ClientState} {type : UInt8} {payload : Bytes}
    (failed : CchatError → β) {parse : UInt8 → Span UInt8 → Checked β} (model : Frame → β)
    (hparse : ∀ type bytes h, parse type (received bytes h) = .ok (model (type, bytes))) :
    readAnswer (request c type payload) failed parse =
      .ok (match (request c type payload).1 with
        | .error e => (failed e, (request c type payload).2)
        | .ok response => (model response, (request c type payload).2)) := by
  have hfits := @request_fits c type payload
  unfold readAnswer
  cases hanswered : (request c type payload).1 with
  | error e => rfl
  | ok f =>
    dsimp only
    rw [dif_pos (hfits hanswered), hparse, ok_bind]
    rfl

theorem registerUserWithServer_ok (c : ClientState) (username : Bytes) (publicKey : Key) :
    registerUserWithServer c username publicKey =
      .ok (Network.registerUserWithServer c username publicKey) := by
  unfold registerUserWithServer Network.registerUserWithServer
  rw [readAnswer_ok id Network.readRegisterResponse (fun type _ _ ↦ readRegisterResponse_ok type)]
  generalize request c 0x01 (nameField username ++ publicKey.toList) = answered
  obtain ⟨e | response, c'⟩ := answered
  · split_ifs <;> rfl
  · split_ifs <;> rfl

theorem getUserPublicKey_ok (c : ClientState) (username : Bytes) :
    getUserPublicKey c username = .ok (Network.getUserPublicKey c username) := by
  unfold getUserPublicKey Network.getUserPublicKey
  rw [readAnswer_ok _ Network.readPublicKeyResponse (fun type _ _ ↦ readPublicKeyResponse_ok type)]
  generalize request c 0x03 (nameField username) = answered
  obtain ⟨e | response, c'⟩ := answered
  · split_ifs <;> rfl
  · split_ifs <;> rfl

theorem sendMessageToServer_ok (c : ClientState) (recipient encryptedMessage : Bytes) :
    sendMessageToServer c recipient encryptedMessage =
      .ok (Network.sendMessageToServer c recipient encryptedMessage) := by
  unfold sendMessageToServer Network.sendMessageToServer
  rw [readAnswer_ok id Network.readMessageAck (fun type _ _ ↦ readMessageAck_ok type)]
  generalize request c 0x04 (nameField recipient ++
    (BigEndian.bytes 2 encryptedMessage.length ++ encryptedMessage)) = answered
  obtain ⟨e | response, c'⟩ := answered
  · split_ifs <;> rfl
  · split_ifs <;> rfl

/-- An access goes through only inside the array it is made to, and every access
of the five handlers and the three requests goes through: with checked accesses
they come to what they come to without the checks, whatever the payload. -/
theorem parsers_in_bounds :
    (∀ (p : Span UInt8) i, (∃ b, load p i = .ok b) ↔ p.pointer ≠ none ∧ i < p.len.toNat) ∧
    (∀ (p : Span UInt8) start n, (∃ bytes, loadRange p start n = .ok bytes) ↔
      p.pointer ≠ none ∧ start + n ≤ p.len.toNat) ∧
    (∀ stores (cells : Buffers.Cells UInt8), (∃ stored, storeAll stores cells = .ok stored) ↔
      ∀ s ∈ stores, s.1 + s.2.length ≤ cells.length) ∧
    (∀ w i p, Server.Bounds.handleRegisterUser w i p =
      .ok (Server.Handlers.handleRegisterUser w i p.content)) ∧
    (∀ verify w i p, Server.Bounds.handleLoginUser verify w i p =
      .ok (Server.Handlers.handleLoginUser verify w i p.content)) ∧
    (∀ w i p, Server.Bounds.handleGetPublicKey w i p =
      .ok (Server.Handlers.handleGetPublicKey w i p.content)) ∧
    (∀ w i p, Server.Bounds.handleSendMessage w i p =
      .ok (Server.Handlers.handleSendMessage w i p.content)) ∧
    (∀ w i p, Server.Bounds.handleSetStatus w i p =
      .ok (Server.Handlers.handleSetStatus w i p.content)) ∧
    (∀ c username publicKey, registerUserWithServer c username publicKey =
      .ok (Network.registerUserWithServer c username publicKey)) ∧
    (∀ c username, getUserPublicKey c username = .ok (Network.getUserPublicKey c username)) ∧
    ∀ c recipient encryptedMessage, sendMessageToServer c recipient encryptedMessage =
      .ok (Network.sendMessageToServer c recipient encryptedMessage) :=
  ⟨load_inside, loadRange_inside, storeAll_inside, Server.Bounds.handleRegisterUser_ok,
    Server.Bounds.handleLoginUser_ok, Server.Bounds.handleGetPublicKey_ok,
    Server.Bounds.handleSendMessage_ok, Server.Bounds.handleSetStatus_ok,
    registerUserWithServer_ok, getUserPublicKey_ok, sendMessageToServer_ok⟩

end CChat.Client.Bounds
