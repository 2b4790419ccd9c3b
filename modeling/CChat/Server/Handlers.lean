import CChat.Server.Queue

namespace CChat.Server.Handlers

open CChat.Library CChat.Library.Circular CChat.Protocol.Types State Network Users Queue

structure Refusal where
  code : ErrorCode
  message : String
deriving DecidableEq

/-- The length-prefixed name every handler but two starts with, and the bytes
behind it. `least` is the payload length checked before the name is looked at,
`extra` what must follow the name. -/
def readName (least extra : ℕ) (tooShort badLength : String) (payload : Bytes) :
    Except Refusal (Username × Bytes) :=
  if payload.length < least then .error ⟨.invalidFormat, tooShort⟩
  else
    let n := (payload.headD 0).toNat
    if n = 0 ∨ n ≥ maxUsernameLen ∨ payload.length < 1 + n + extra then
      .error ⟨.invalidFormat, badLength⟩
    else .ok (Username.ofBytes ((payload.drop 1).take n), payload.drop (1 + n))

def parseRegister (payload : Bytes) : Except Refusal (Username × Key) :=
  match readName (1 + publicKeySize) publicKeySize "Invalid registration data"
      "Invalid username length" payload with
  | .error e => .error e
  | .ok (username, rest) =>
    if validateUsernameServer username.bytes < 0 then
      .error ⟨.invalidUsername, "Invalid username format"⟩
    else .ok (username, Block.read publicKeySize rest)

def parseLogin (payload : Bytes) : Except Refusal (Username × Signature) :=
  match readName (1 + signatureSize) signatureSize "Invalid login data"
      "Invalid username length" payload with
  | .error e => .error e
  | .ok (username, rest) => .ok (username, Block.read signatureSize rest)

def parseGetPublicKey (payload : Bytes) : Except Refusal Username :=
  match readName 1 0 "Invalid public key request" "Invalid username length" payload with
  | .error e => .error e
  | .ok (username, _) => .ok username

def parseSendMessage (payload : Bytes) : Except Refusal (Username × Bytes) :=
  match readName 3 2 "Invalid message data" "Invalid recipient length" payload with
  | .error e => .error e
  | .ok (recipient, rest) =>
    let messageLen := BigEndian.value (rest.take 2)
    if messageLen = 0 ∨ rest.length < 2 + messageLen then
      .error ⟨.invalidFormat, "Invalid message length"⟩
    else .ok (recipient, (rest.drop 2).take messageLen)

def parseSetStatus (payload : Bytes) : Except Refusal UserStatus :=
  if payload.length < 1 then .error ⟨.invalidFormat, "Invalid status data"⟩
  else
    match UserStatus.ofByte (payload.headD 0) with
    | none => .error ⟨.invalidFormat, "Invalid status value"⟩
    | some status => .ok status

def refuse (w : World) (i : ℕ) (e : Refusal) : ℤ × World :=
  (-1, (sendError w (w.server.clients i).socketFd e.code e.message).2)

def reply (w : World) (i : ℕ) (type : MessageType) (payload : Bytes) : ℤ × World :=
  sendNetworkMessage w (w.server.clients i).socketFd type payload none

def handleRegisterUser (w : World) (i : ℕ) (payload : Bytes) : ℤ × World :=
  match parseRegister payload with
  | .error e => refuse w i e
  | .ok (username, publicKey) =>
    let added := addUser w username publicKey
    if added.1 = 0 then reply added.2 i .registerResponse [1, 0]
    else if added.1 = -2 then
      reply added.2 i .registerResponse [0, ErrorCode.userExists.code]
    else reply added.2 i .registerResponse [0, ErrorCode.serverError.code]

def handleLoginUser (verify : Signature → Challenge → Key → Bool) (w : World) (i : ℕ)
    (payload : Bytes) : ℤ × World :=
  match parseLogin payload with
  | .error e => refuse w i e
  | .ok (username, signature) =>
    let result := authenticateUser verify w i username signature
    if result.1 = 0 then
      let delivered := deliverQueuedMessages result.2 i
      reply delivered.2 i .loginResponse (1 :: (result.2.server.clients i).challenge.toList)
    else reply result.2 i .loginResponse [0]

def handleGetPublicKey (w : World) (i : ℕ) (payload : Bytes) : ℤ × World :=
  match parseGetPublicKey payload with
  | .error e => refuse w i e
  | .ok username =>
    match findUser w.server username with
    | some k => reply w i .publicKeyResponse (1 :: (w.server.users k).publicKey.toList)
    | none => reply w i .publicKeyResponse [0]

def directPayload (id : UInt32) (sender : Username) (timestamp : ℤ) (data : Bytes) : Bytes :=
  BigEndian.bytes 4 id.toNat ++
    (UInt8.ofNat sender.bytes.length :: sender.bytes ++
      (BigEndian.bytes 4 (timestampBits timestamp) ++ (BigEndian.bytes 2 data.length ++ data)))

def ackPayload (id : UInt32) (status : UInt8) : Bytes := BigEndian.bytes 4 id.toNat ++ [status]

def drawMessageId (w : World) : UInt32 × World :=
  (w.server.nextMessageId,
    { w with server := { w.server with nextMessageId := w.server.nextMessageId + 1 } })

theorem queueMessage_eq {w : World} {recipient sender : Username} {data : Bytes} {j : ℕ}
    (hj : findClientByUsername w.server recipient = some j) (hdata : data.length ≠ 0)
    (hroom : (w.server.clients j).queue.count < messageQueueSize) :
    queueMessage w recipient sender data =
      (let now := time (drawMessageId w).2
      let allocated := malloc now.2
      let entry : StoredMessage :=
        ⟨w.server.nextMessageId, sender, recipient, now.1, data.length, none, false⟩
      if !allocated.1 then
        (-1, allocated.2.modifyClient j (fun c ↦ { c with queue := writeTail c.queue entry }))
      else
        let stored := { entry with encryptedData := some data }
        (0, (allocated.2.modifyClient j (fun c ↦
          { c with queue := push messageQueueSize c.queue stored })).emit (.queued stored))) := by
  unfold queueMessage
  simp only [hdata, hj, Nat.not_le.mpr hroom, ↓reduceIte]
  rfl

theorem copy_allocates (w : World) :
    (malloc (time (drawMessageId w).2).2).1 = Env.allocates w.env 0 :=
  time_malloc_allocates (drawMessageId w).2

/-- The part of `handle_send_message` behind the format checks, up to the
status byte of the acknowledgement. -/
def relay (w : World) (i : ℕ) (id : UInt32) (recipient : Username) (data : Bytes) :
    UInt8 × World :=
  let sender := (w.server.clients i).username
  match findClientByUsername w.server recipient with
  | some j =>
    let now := time w
    let allocated := malloc now.2
    if !allocated.1 then (0, allocated.2)
    else
      let sent := sendNetworkMessage allocated.2 (w.server.clients j).socketFd .incomingMessage
        (directPayload id sender now.1 data) none
      if sent.1 = 0 then (1, sent.2)
      else (2, (queueMessage sent.2 recipient sender data).2)
  | none => (2, (queueMessage w recipient sender data).2)

def handleSendMessage (w : World) (i : ℕ) (payload : Bytes) : ℤ × World :=
  match parseSendMessage payload with
  | .error e => refuse w i e
  | .ok (recipient, data) =>
    match findUser w.server recipient with
    | none => refuse w i ⟨.userNotFound, "Recipient not found"⟩
    | some _ =>
      let drawn := drawMessageId w
      let relayed := relay drawn.2 i drawn.1 recipient data
      let answered := reply relayed.2 i .messageAck (ackPayload drawn.1 relayed.1)
      if relayed.1 = 0 then (-1, answered.2) else answered

def handleGetMessages (w : World) (i : ℕ) : ℤ × World := deliverQueuedMessages w i

def handleSetStatus (w : World) (i : ℕ) (payload : Bytes) : ℤ × World :=
  match parseSetStatus payload with
  | .error e => refuse w i e
  | .ok status =>
    let username := (w.server.clients i).username
    match findUser w.server username with
    | none => (0, w)
    | some k =>
      let w₁ := w.modifyUser k (fun u ↦ { u with status := status })
      let w₂ := w₁.modifyClient i (fun c ↦ { c with status := status })
      (0, broadcastStatusUpdate w₂ username status)

def registered (s : ServerState) : List UserRecord :=
  ((List.range s.userCount).map s.users).filter (fun u ↦ u.isRegistered)

def userEntry (u : UserRecord) : Bytes :=
  UInt8.ofNat u.username.bytes.length :: u.username.bytes ++ [u.status.code]

def handleListUsers (w : World) (i : ℕ) : ℤ × World :=
  let allocated := malloc w
  if !allocated.1 then refuse allocated.2 i ⟨.serverError, "Memory allocation failed"⟩
  else
    let users := registered w.server
    reply allocated.2 i .userListResponse
      (BigEndian.bytes 2 users.length ++ users.flatMap userEntry)

def handleLogout (w : World) (i : ℕ) : ℤ × World :=
  (0, w.modifyClient i (fun c ↦ { c with connected := false }))

end CChat.Server.Handlers
