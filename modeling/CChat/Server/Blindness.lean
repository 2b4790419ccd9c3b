import CChat.Server.Loop

namespace CChat.Server.Blindness

open CChat.Library CChat.Library.Circular CChat.Protocol.Types CChat.Protocol.Wire State Network
  Users Queue Handlers Loop

/-- Which ciphertexts of one run stand where which of another run do; one that
does not stand for itself may not be left in its place. -/
structure Masking where
  rel : Bytes → Bytes → Prop
  length_eq : ∀ {data data'}, rel data data' → data'.length = data.length

variable (M : Masking)

structure SameEntry (m m' : StoredMessage) : Prop where
  rest : m' = { m with encryptedData := m'.encryptedData }
  data : Option.Rel M.rel m.encryptedData m'.encryptedData

/-- Payloads of frames: an `INCOMING_MESSAGE` carries the ciphertext of its run,
the others are equal. -/
inductive SameFrame :
    MessageType → Bytes → Option StoredMessage → Bytes → Option StoredMessage → Prop
  | same {type : MessageType} (htype : type ≠ .incomingMessage) (payload : Bytes) :
      SameFrame type payload none payload none
  | direct (id : UInt32) (sender : Username) (timestamp : ℤ) {data data' : Bytes}
      (h : M.rel data data') :
      SameFrame .incomingMessage (directPayload id sender timestamp data) none
        (directPayload id sender timestamp data') none
  | stored {m m' : StoredMessage} (h : SameEntry M m m') :
      SameFrame .incomingMessage (queuedPayload m) (some m) (queuedPayload m') (some m')

/-- A `SEND_MESSAGE` payload: what the length field covers of the body is the
ciphertext. -/
def sendPayload (name : Bytes) (declared : ℕ) (body : Bytes) : Bytes :=
  nameField name ++ (BigEndian.bytes 2 declared ++ body)

def Carries (type : UInt8) (payload data : Bytes) : Prop :=
  type = MessageType.sendMessage.code ∧ ∃ name rest, name.length < 256 ∧ data.length < 2 ^ 16 ∧
    payload = sendPayload name data.length (data ++ rest)

structure SameBody (declared : ℕ) (body body' : Bytes) : Prop where
  cipher : M.rel (body.take declared) (body'.take declared)
  rest : body'.drop declared = body.drop declared

inductive SamePayload : UInt8 → Bytes → Bytes → Prop
  | same {type : UInt8} {payload : Bytes} (h : ∀ data, Carries type payload data → M.rel data data) :
      SamePayload type payload payload
  | send {name : Bytes} {declared : ℕ} {body body' : Bytes} (hname : name.length < 256)
      (hdeclared : declared < 2 ^ 16) (h : SameBody M declared body body') :
      SamePayload MessageType.sendMessage.code (sendPayload name declared body)
        (sendPayload name declared body')

inductive SameEvent : Event → Event → Prop
  | frame (fd : Fd) {type : MessageType} {payload payload' : Bytes}
      {entry entry' : Option StoredMessage} (h : SameFrame M type payload entry payload' entry') :
      SameEvent (.frame fd type payload entry) (.frame fd type payload' entry')
  | torn (fd : Fd) (n : ℕ) {type : MessageType} {payload payload' : Bytes}
      {entry entry' : Option StoredMessage} (h : SameFrame M type payload entry payload' entry') :
      SameEvent (.torn fd ((packet type.code payload).take n))
        (.torn fd ((packet type.code payload').take n))
  | request (fd : Fd) {type : UInt8} {payload payload' : Bytes}
      (h : SamePayload M type payload payload') :
      SameEvent (.request fd type payload) (.request fd type payload')
  | queued {m m' : StoredMessage} (h : SameEntry M m m') : SameEvent (.queued m) (.queued m')
  | login (fd : Fd) (name : Username) (signature : Signature) (challenge : Challenge) (key : Key) :
      SameEvent (.login fd name signature challenge key) (.login fd name signature challenge key)
  | closed (fd : Fd) : SameEvent (.closed fd) (.closed fd)

structure SameSlot (c c' : ClientConnection) : Prop where
  rest : c' = { c with queue := c'.queue }
  queue : Pointwise (SameEntry M) c.queue c'.queue

structure Blind (w w' : World) : Prop where
  users : w'.server.users = w.server.users
  userCount : w'.server.userCount = w.server.userCount
  slots : ∀ j, SameSlot M (w.server.clients j) (w'.server.clients j)
  clientCount : w'.server.clientCount = w.server.clientCount
  nextMessageId : w'.server.nextMessageId = w.server.nextMessageId
  running : w'.server.running = w.server.running
  nextFd : w'.nextFd = w.nextFd
  out : List.Forall₂ (SameEvent M) w.out w'.out
  env : w'.env = w.env

def Brings (x : Input) (data : Bytes) : Prop :=
  ∃ i type payload more env, x = .receive i (packet type payload ++ more) env ∧
    Carries type payload data

inductive SameInput : Input → Input → Prop
  | same {x : Input} (h : ∀ data, Brings x data → M.rel data data) : SameInput x x
  | request (i : ℕ) (more : Bytes) (env : Env) {type : UInt8} {payload payload' : Bytes}
      (h : SamePayload M type payload payload') (hlen : payload.length < 2 ^ 32) :
      SameInput (.receive i (packet type payload ++ more) env)
        (.receive i (packet type payload' ++ more) env)

inductive SameReceived : Received → Received → Prop
  | disconnected : SameReceived .disconnected .disconnected
  | failed : SameReceived .failed .failed
  | message {type : UInt8} {payload payload' : Bytes} (h : SamePayload M type payload payload') :
      SameReceived (.message type payload) (.message type payload')

inductive SameTaken : Option (UInt8 × Bytes) → Option (UInt8 × Bytes) → Prop
  | none : SameTaken none none
  | some {type : UInt8} {payload payload' : Bytes} (h : SamePayload M type payload payload') :
      SameTaken (some (type, payload)) (some (type, payload'))

structure Alike {α : Type} (r r' : α × World) : Prop where
  result : r'.1 = r.1
  world : Blind M r.2 r'.2

variable {M} {w w' : World} {i : ℕ}

theorem SameEntry.bare {m : StoredMessage} (h : m.encryptedData = none) : SameEntry M m m := by
  refine ⟨rfl, ?_⟩
  rw [h]
  exact .none

theorem zero_same : SameSlot M ClientConnection.zero ClientConnection.zero :=
  ⟨rfl, rfl, rfl, rfl, fun _ ↦ .bare rfl⟩

theorem brings_type {i : ℕ} {stream : Bytes} {env : Env} {data : Bytes}
    (h : Brings (.receive i stream env) data) :
    stream.getD 4 0 = MessageType.sendMessage.code := by
  obtain ⟨_, type, payload, more, _, hx, rfl, _⟩ := h
  obtain ⟨_, rfl, _⟩ := Input.receive.inj hx
  simp [packet, frameHeader, List.getD_eq_getElem?_getD]

theorem SameEntry.fields {m m' : StoredMessage} (h : SameEntry M m m') :
    m'.messageId = m.messageId ∧ m'.sender = m.sender ∧ m'.recipient = m.recipient ∧
      m'.timestamp = m.timestamp ∧ m'.encryptedLen = m.encryptedLen ∧
      m'.delivered = m.delivered := by
  rw [h.rest]
  exact ⟨rfl, rfl, rfl, rfl, rfl, rfl⟩

theorem SameEntry.spent {m m' : StoredMessage} (h : SameEntry M m m') :
    SameEntry M (StoredMessage.spent m) (StoredMessage.spent m') := by
  rw [h.rest]
  exact ⟨rfl, .none⟩

theorem SameEntry.data_length {m m' : StoredMessage} (h : SameEntry M m m') :
    (m'.encryptedData.getD []).length = (m.encryptedData.getD []).length := by
  have hdata := h.data
  generalize m.encryptedData = data at hdata ⊢
  generalize m'.encryptedData = data' at hdata ⊢
  cases hdata with
  | none => rfl
  | some h => exact M.length_eq h

theorem SameFrame.length {type : MessageType} {payload payload' : Bytes}
    {entry entry' : Option StoredMessage} (h : SameFrame M type payload entry payload' entry') :
    payload'.length = payload.length := by
  cases h with
  | same => rfl
  | direct _ _ _ hdata => simp [directPayload, M.length_eq hdata]
  | stored hm =>
    obtain ⟨hid, hsender, _, htime, hlen, _⟩ := hm.fields
    simp [queuedPayload, hid, hsender, htime, hlen, hm.data_length]

theorem Blind.socketFd (h : Blind M w w') (j : ℕ) :
    (w'.server.clients j).socketFd = (w.server.clients j).socketFd := by rw [(h.slots j).rest]

theorem Blind.username (h : Blind M w w') (j : ℕ) :
    (w'.server.clients j).username = (w.server.clients j).username := by rw [(h.slots j).rest]

theorem Blind.authenticated (h : Blind M w w') (j : ℕ) :
    (w'.server.clients j).authenticated = (w.server.clients j).authenticated := by
  rw [(h.slots j).rest]

theorem Blind.connected (h : Blind M w w') (j : ℕ) :
    (w'.server.clients j).connected = (w.server.clients j).connected := by rw [(h.slots j).rest]

theorem Blind.findUser (h : Blind M w w') (username : Username) :
    findUser w'.server username = findUser w.server username := by
  rw [Users.findUser, h.users, h.userCount]
  rfl

theorem Blind.findClient (h : Blind M w w') (username : Username) :
    findClientByUsername w'.server username = findClientByUsername w.server username := by
  have hholds : ∀ j, holds (w'.server.clients j) username =
      holds (w.server.clients j) username := by
    intro j
    rw [(h.slots j).rest]
    rfl
  unfold findClientByUsername
  simp only [hholds, h.clientCount]

theorem Blind.emit (h : Blind M w w') {e e' : Event} (he : SameEvent M e e') :
    Blind M (w.emit e) (w'.emit e') :=
  { h with out := List.rel_append h.out (.cons he .nil) }

theorem Blind.withEnv (h : Blind M w w') (env : Env) :
    Blind M { w with env := env } { w' with env := env } := { h with env := rfl }

theorem Blind.recount (h : Blind M w w') (f : ℕ → ℕ) :
    Blind M { w with server := { w.server with clientCount := f w.server.clientCount } }
      { w' with server := { w'.server with clientCount := f w'.server.clientCount } } :=
  { h with clientCount := congrArg f h.clientCount }

theorem Blind.modifyClient (h : Blind M w w') (i : ℕ) {f f' : ClientConnection → ClientConnection}
    (hf : SameSlot M (f (w.server.clients i)) (f' (w'.server.clients i))) :
    Blind M (w.modifyClient i f) (w'.modifyClient i f') := by
  refine { h with slots := fun j ↦ ?_ }
  by_cases hj : j = i
  · rw [hj, modifyClient_self, modifyClient_self]
    exact hf
  · rw [modifyClient_other w f hj, modifyClient_other w' f' hj]
    exact h.slots j

theorem Blind.modifyRest (h : Blind M w w') (i : ℕ) {f : ClientConnection → ClientConnection}
    (hf : ∀ c ring, f { c with queue := ring } = { f c with queue := ring }) :
    Blind M (w.modifyClient i f) (w'.modifyClient i f) := by
  refine h.modifyClient i ?_
  have hslot := h.slots i
  have hsame : f (w.server.clients i) =
      { f (w.server.clients i) with queue := (w.server.clients i).queue } :=
    hf (w.server.clients i) (w.server.clients i).queue
  have hother : f (w'.server.clients i) =
      { f (w.server.clients i) with queue := (w'.server.clients i).queue } := by
    conv_lhs => rw [hslot.rest]
    exact hf _ _
  rw [hother]
  refine ⟨rfl, ?_⟩
  rw [hsame]
  exact hslot.queue

theorem Blind.modifyUser (h : Blind M w w') (k : ℕ) (f : UserRecord → UserRecord) :
    Blind M (w.modifyUser k f) (w'.modifyUser k f) := by
  refine { h with users := ?_ }
  simp only [World.modifyUser, h.users]

theorem Alike.of {α : Type} {r : α} (h : Blind M w w') : Alike M (r, w) (r, w') := ⟨rfl, h⟩

theorem malloc_alike (h : Blind M w w') : Alike M (malloc w) (malloc w') := by
  unfold malloc
  rw [h.env]
  split
  · exact ⟨rfl, h⟩
  · exact ⟨rfl, h.withEnv _⟩

theorem time_alike (h : Blind M w w') : Alike M (time w) (time w') := by
  unfold time
  rw [h.env]
  split
  · exact ⟨rfl, h⟩
  · exact ⟨rfl, h.withEnv _⟩

theorem send_alike (h : Blind M w w') (fd : Option Fd) (n : ℕ) :
    Alike M (send w fd n) (send w' fd n) := by
  unfold send
  rw [h.env]
  split
  · exact ⟨rfl, h⟩
  · exact ⟨rfl, h⟩
  · exact ⟨rfl, h.withEnv _⟩

theorem frameHeader_five (type : UInt8) (n : ℕ) : (frameHeader type n).length = 5 := by
  simp [frameHeader]

theorem packet_take (type : UInt8) (payload : Bytes) (n : ℕ) :
    (packet type payload).take (5 + n) = frameHeader type payload.length ++ payload.take n := by
  have hfive := frameHeader_five type payload.length
  conv_lhs => rw [packet, ← hfive]
  exact List.take_length_add_append n

theorem packet_take_header (type : UInt8) (payload : Bytes) {n : ℕ} (hn : n ≤ 5) :
    (packet type payload).take n = (frameHeader type payload.length).take n := by
  have hfive := frameHeader_five type payload.length
  exact List.take_append_of_le_length (by omega)

theorem sendNetworkMessage_alike (h : Blind M w w') (fd : Option Fd) {type : MessageType}
    {payload payload' : Bytes} {entry entry' : Option StoredMessage}
    (hframe : SameFrame M type payload entry payload' entry') :
    Alike M (sendNetworkMessage w fd type payload entry)
      (sendNetworkMessage w' fd type payload' entry') := by
  obtain ⟨hheader, hw₁⟩ := send_alike h fd (frameHeader type.code payload.length).length
  obtain ⟨hpayload, hw₂⟩ := send_alike hw₁ fd payload.length
  have hpart : (send w fd (frameHeader type.code payload.length).length).1 ≤ 5 :=
    (send_le w fd _).trans_eq (frameHeader_five _ _)
  have htorn : ∀ {v v' : World}, Blind M v v' → ∀ n,
      Blind M (sendNetworkMessage.tornOff v fd ((packet type.code payload).take n))
        (sendNetworkMessage.tornOff v' fd ((packet type.code payload').take n)) := by
    intro v v' hv n
    cases fd with
    | none => exact hv
    | some fd => exact hv.emit (.torn fd n hframe)
  have hwhole : ∀ {v v' : World}, Blind M v v' →
      Blind M (sendNetworkMessage.whole v fd type payload entry)
        (sendNetworkMessage.whole v' fd type payload' entry') := by
    intro v v' hv
    cases fd with
    | none => exact hv
    | some fd => exact hv.emit (.frame fd hframe)
  unfold sendNetworkMessage
  dsimp only
  rw [hframe.length, hheader, hpayload]
  split
  · have hcut := htorn hw₁ (send w fd (frameHeader type.code payload.length).length).1
    rw [packet_take_header _ payload hpart, packet_take_header _ payload' hpart,
      hframe.length] at hcut
    exact ⟨rfl, hcut⟩
  · split
    · split
      · have hcut := htorn hw₂ (5 + (send (send w fd
          (frameHeader type.code payload.length).length).2 fd payload.length).1)
        rw [packet_take, packet_take, hframe.length] at hcut
        exact ⟨rfl, hcut⟩
      · exact ⟨rfl, hwhole hw₂⟩
    · exact ⟨rfl, hwhole hw₁⟩

theorem sendError_alike (h : Blind M w w') (fd : Option Fd) (code : ErrorCode) (message : String) :
    Alike M (sendError w fd code message) (sendError w' fd code message) := by
  obtain ⟨hok, hallocated⟩ := malloc_alike h
  unfold sendError
  dsimp only
  rw [hok]
  split
  · exact ⟨rfl, hallocated⟩
  · exact sendNetworkMessage_alike hallocated fd (.same (by decide) _)

theorem receiveNetworkMessage_alike (h : Blind M w w') (stream : Bytes) :
    Alike M (receiveNetworkMessage w stream) (receiveNetworkMessage w' stream) := by
  obtain ⟨hok, hallocated⟩ := malloc_alike h
  unfold receiveNetworkMessage
  dsimp only
  rw [hok]
  repeat' split
  all_goals first | exact ⟨rfl, h⟩ | exact ⟨rfl, hallocated⟩

/-- How `receive_network_message` takes a frame whose bytes are all there. -/
theorem receiveNetworkMessage_packet (w : World) (type : UInt8) {payload : Bytes} (more : Bytes)
    (hlen : payload.length < 2 ^ 32) :
    receiveNetworkMessage w (packet type payload ++ more) =
      if payload.length > maxMessageLen * 2 then (.failed, w)
      else if payload.length > 0 then
        if !(malloc w).1 then (.failed, (malloc w).2) else (.message type payload, (malloc w).2)
      else (.message type payload, w) := by
  have hfive : (frameHeader type payload.length).length = 5 := by simp [frameHeader]
  have hheader : (packet type payload ++ more).take 5 = frameHeader type payload.length := by
    rw [packet, List.append_assoc, List.take_append_of_le_length (by omega), ← hfive,
      List.take_length]
  have hbody : (packet type payload ++ more).drop 5 = payload ++ more := by
    rw [packet, List.append_assoc, ← hfive, List.drop_left]
  have hread : readHeader (frameHeader type payload.length) = (type, payload.length) :=
    codec.read_write type payload.length hlen
  have htake : (payload ++ more).take payload.length = payload := List.take_left
  unfold receiveNetworkMessage
  simp only [hheader, hbody, hfive, hread, htake]
  rw [if_neg (by decide : ¬(5 = 0)), if_neg (by decide : ¬(5 ≠ 5))]
  split
  · rfl
  · split
    · rw [if_neg (fun hne : payload.length ≠ payload.length ↦ hne rfl)]
    next hpos =>
      have hnil : payload = [] := List.eq_nil_of_length_eq_zero (by omega)
      simp [hnil]

theorem SameBody.length_eq {declared : ℕ} {body body' : Bytes}
    (h : SameBody M declared body body') : body'.length = body.length := by
  rw [← List.take_append_drop declared body, ← List.take_append_drop declared body',
    List.length_append, List.length_append, M.length_eq h.cipher, h.rest]

theorem SamePayload.length_eq {type : UInt8} {payload payload' : Bytes}
    (h : SamePayload M type payload payload') : payload'.length = payload.length := by
  cases h with
  | same => rfl
  | send _ _ hbody => simp [sendPayload, hbody.length_eq]

theorem SamePayload.eq {type : UInt8} {payload payload' : Bytes}
    (h : SamePayload M type payload payload') (htype : type ≠ MessageType.sendMessage.code) :
    payload' = payload := by
  cases h with
  | same => rfl
  | send => exact absurd rfl htype

theorem checkRateLimit_alike (h : Blind M w w') (i : ℕ) :
    Alike M (checkRateLimit w i) (checkRateLimit w' i) := by
  obtain ⟨hnow, htimed⟩ := time_alike h
  have hlimit : ((time w').2.server.clients i).rateLimit =
      ((time w).2.server.clients i).rateLimit := by rw [(htimed.slots i).rest]
  unfold checkRateLimit
  dsimp only
  rw [hnow, hlimit]
  split
  · exact .of (htimed.modifyRest i (fun _ _ ↦ rfl))
  · exact .of htimed

theorem updateRateLimit_alike (h : Blind M w w') (i : ℕ) :
    Blind M (updateRateLimit w i) (updateRateLimit w' i) := h.modifyRest i (fun _ _ ↦ rfl)

theorem refuse_alike (h : Blind M w w') (i : ℕ) (e : Refusal) :
    Alike M (refuse w i e) (refuse w' i e) := by
  unfold refuse
  rw [h.socketFd i]
  exact ⟨rfl, (sendError_alike h _ e.code e.message).world⟩

theorem reply_alike (h : Blind M w w') (i : ℕ) {type : MessageType}
    (htype : type ≠ .incomingMessage) (payload : Bytes) :
    Alike M (reply w i type payload) (reply w' i type payload) := by
  unfold reply
  rw [h.socketFd i]
  exact sendNetworkMessage_alike h _ (.same htype payload)

theorem addUser_alike (h : Blind M w w') (username : Username) (publicKey : Key) :
    Alike M (addUser w username publicKey) (addUser w' username publicKey) := by
  unfold addUser
  rw [h.users, h.userCount, h.findUser username]
  split_ifs
  · exact ⟨rfl, h⟩
  · exact ⟨rfl, h⟩
  · exact ⟨rfl, h⟩
  · exact ⟨rfl, { h with users := rfl, userCount := rfl }⟩

theorem broadcastLoop_alike (username : Username) (payload : Bytes) (js : List ℕ)
    (h : Blind M w w') :
    Blind M (broadcastLoop username payload js w) (broadcastLoop username payload js w') := by
  induction js generalizing w w' with
  | nil => exact h
  | cons j js ih =>
    unfold broadcastLoop
    dsimp only
    rw [h.connected j, h.authenticated j, h.username j, h.socketFd j]
    split
    · exact ih (sendNetworkMessage_alike h _ (.same (by decide) payload)).world
    · exact ih h

theorem broadcastStatusUpdate_alike (h : Blind M w w') (username : Username) (status : UserStatus) :
    Blind M (broadcastStatusUpdate w username status)
      (broadcastStatusUpdate w' username status) := by
  obtain ⟨hok, hallocated⟩ := malloc_alike h
  unfold broadcastStatusUpdate
  dsimp only
  rw [hok, hallocated.clientCount]
  split
  · exact hallocated
  · exact broadcastLoop_alike _ _ _ hallocated

theorem authenticateUser_alike (verify : Signature → Challenge → Key → Bool) (h : Blind M w w')
    (i : ℕ) (username : Username) (signature : Signature) :
    Alike M (authenticateUser verify w i username signature)
      (authenticateUser verify w' i username signature) := by
  unfold authenticateUser
  dsimp only
  have hchallenge : (w'.server.clients i).challenge = (w.server.clients i).challenge := by
    rw [(h.slots i).rest]
  rw [h.findUser username, h.users, hchallenge, h.socketFd i]
  cases findUser w.server username with
  | none => exact ⟨rfl, h⟩
  | some k =>
    dsimp only
    split
    · exact ⟨rfl, h⟩
    · refine ⟨rfl, broadcastStatusUpdate_alike (Blind.modifyUser ?_ k _) username .online⟩
      have hnamed : Blind M
          (w.modifyClient i (fun c ↦ { c with authenticated := true, username := username }))
          (w'.modifyClient i (fun c ↦ { c with authenticated := true, username := username })) :=
        h.modifyRest i (fun _ _ ↦ rfl)
      cases (w.server.clients i).socketFd with
      | none => exact hnamed
      | some fd => exact hnamed.emit (.login ..)

theorem queueMessage_alike (h : Blind M w w') (recipient sender : Username) {data data' : Bytes}
    (hdata : M.rel data data') :
    Alike M (queueMessage w recipient sender data) (queueMessage w' recipient sender data') := by
  have hlen : data'.length = data.length := M.length_eq hdata
  by_cases hpos : data.length = 0
  · simp only [queueMessage, hlen, hpos, ↓reduceIte]
    exact .of h
  cases hj : findClientByUsername w.server recipient with
  | none =>
    simp only [queueMessage, hlen, hpos, h.findClient recipient, hj, ↓reduceIte]
    exact .of h
  | some j =>
    have hj' : findClientByUsername w'.server recipient = some j :=
      (h.findClient recipient).trans hj
    have hcount := (h.slots j).queue.count
    by_cases hroom : (w.server.clients j).queue.count ≥ messageQueueSize
    · simp only [queueMessage, hlen, hpos, hj, hj', hcount, hroom, ↓reduceIte]
      exact .of h
    rw [queueMessage_eq hj hpos (by omega), queueMessage_eq hj' (by omega) (by omega)]
    have hdrawn : Blind M (drawMessageId w).2 (drawMessageId w').2 :=
      { h with nextMessageId := congrArg (fun id ↦ id + 1) h.nextMessageId }
    obtain ⟨hnow, htimed⟩ := time_alike hdrawn
    obtain ⟨hok, hallocated⟩ := malloc_alike htimed
    have hslot := hallocated.slots j
    dsimp only
    rw [hok, hnow, hlen, h.nextMessageId]
    split
    · refine .of (hallocated.modifyClient j ⟨?_, ?_⟩)
      · rw [hslot.rest]
      · exact hslot.queue.writeTail (.bare rfl)
    · have hstored : SameEntry M
          ⟨w.server.nextMessageId, sender, recipient, (time (drawMessageId w).2).1, data.length,
            some data, false⟩
          ⟨w.server.nextMessageId, sender, recipient, (time (drawMessageId w).2).1, data.length,
            some data', false⟩ := ⟨rfl, .some hdata⟩
      refine .of (Blind.emit (hallocated.modifyClient j ⟨?_, ?_⟩) (.queued hstored))
      · rw [hslot.rest]
      · exact hslot.queue.push hstored

theorem deliverLoop_alike (i n : ℕ) (delivered : ℤ) (h : Blind M w w') :
    Alike M (deliverLoop i n delivered w) (deliverLoop i n delivered w') := by
  induction n generalizing delivered w w' with
  | zero => exact .of h
  | succ n ih =>
    have hslot := h.slots i
    have hhead := hslot.queue.cells (w.server.clients i).queue.head
    unfold deliverLoop
    dsimp only
    rw [hslot.queue.count, hslot.queue.head, hhead.fields.2.2.2.2.2, h.socketFd i]
    split
    · split
      · refine ih delivered (h.modifyClient i ⟨?_, hslot.queue.advanceHead⟩)
        rw [hslot.rest]
      · obtain ⟨hok, hallocated⟩ := malloc_alike h
        rw [hok]
        split
        · exact .of hallocated
        · obtain ⟨hresult, hsent⟩ := sendNetworkMessage_alike hallocated
            (w.server.clients i).socketFd (.stored hhead)
          rw [hresult]
          split
          · have hslot := hsent.slots i
            refine ih (delivered + 1)
              (hsent.modifyClient i ⟨?_, (hslot.queue.writeHead hhead.spent).advanceHead⟩)
            rw [hslot.rest]
          · exact .of hsent
    · exact .of h

theorem deliverQueuedMessages_alike (h : Blind M w w') (i : ℕ) :
    Alike M (deliverQueuedMessages w i) (deliverQueuedMessages w' i) := by
  unfold deliverQueuedMessages
  rw [h.authenticated i, (h.slots i).queue.count]
  split
  · exact .of h
  · exact deliverLoop_alike i _ 0 h

theorem relay_alike (h : Blind M w w') (i : ℕ) (id : UInt32) (recipient : Username)
    {data data' : Bytes} (hdata : M.rel data data') :
    Alike M (relay w i id recipient data) (relay w' i id recipient data') := by
  unfold relay
  dsimp only
  rw [h.findClient recipient, h.username i]
  cases findClientByUsername w.server recipient with
  | none => exact .of (queueMessage_alike h recipient _ hdata).world
  | some j =>
    obtain ⟨hnow, htimed⟩ := time_alike h
    obtain ⟨hok, hallocated⟩ := malloc_alike htimed
    obtain ⟨hresult, hsent⟩ := sendNetworkMessage_alike hallocated (w.server.clients j).socketFd
      (.direct id (w.server.clients i).username (time w).1 hdata)
    dsimp only
    rw [hok, hnow, h.socketFd j, hresult]
    split
    · exact .of hallocated
    · split
      · exact .of hsent
      · exact .of (queueMessage_alike hsent recipient _ hdata).world

/-- Up to the length field a `SEND_MESSAGE` is read without its ciphertext. -/
theorem parseSendMessage_send {name : Bytes} {declared : ℕ} (body : Bytes)
    (hname : name.length < 256) (hdeclared : declared < 2 ^ 16) :
    parseSendMessage (sendPayload name declared body) =
      if (sendPayload name declared body).length < 3 then
        .error ⟨.invalidFormat, "Invalid message data"⟩
      else if name.length = 0 ∨ name.length ≥ maxUsernameLen ∨
          (sendPayload name declared body).length < 1 + name.length + 2 then
        .error ⟨.invalidFormat, "Invalid recipient length"⟩
      else if declared = 0 ∨ body.length < declared then
        .error ⟨.invalidFormat, "Invalid message length"⟩
      else .ok (Username.ofBytes name, body.take declared) := by
  have hlen : (UInt8.ofNat name.length).toNat = name.length := UInt8.toNat_ofNat_of_lt' hname
  have hhead : ((sendPayload name declared body).headD 0).toNat = name.length := hlen
  have hfield : (sendPayload name declared body).drop (1 + name.length) =
      BigEndian.bytes 2 declared ++ body := by
    have hsize : (nameField name).length = 1 + name.length := by
      rw [nameField, List.length_cons, Nat.add_comm]
    rw [sendPayload, ← hsize, List.drop_left]
  have hread : ((sendPayload name declared body).drop 1).take name.length = name := List.take_left
  have htwo : (BigEndian.bytes 2 declared).length = 2 := BigEndian.bytes_length 2 declared
  have htake : (BigEndian.bytes 2 declared ++ body).take 2 = BigEndian.bytes 2 declared := by
    rw [List.take_append_of_le_length (by omega), List.take_of_length_le (by omega)]
  have hdrop : (BigEndian.bytes 2 declared ++ body).drop 2 = body := by
    conv_lhs => rw [← htwo]
    exact List.drop_left
  have hvalue : BigEndian.value (BigEndian.bytes 2 declared) = declared :=
    BigEndian.value_bytes_of_lt (by norm_num; omega)
  have hshort : (BigEndian.bytes 2 declared ++ body).length < 2 + declared ↔
      body.length < declared := by
    rw [List.length_append, htwo]
    omega
  unfold parseSendMessage readName
  simp only [hhead, hfield, hread]
  split_ifs
  · rfl
  · rfl
  · simp only [htake, hvalue, hshort]
    rw [if_pos ‹_›]
  · simp only [htake, hvalue, hshort, hdrop]
    rw [if_neg ‹_›]

/-- A payload that is long enough for its name and a length field has the
form of a `SEND_MESSAGE`. -/
theorem exists_sendPayload {payload : Bytes}
    (h : 1 + (payload.headD 0).toNat + 2 ≤ payload.length) :
    ∃ name declared body, name.length < 256 ∧ declared < 2 ^ 16 ∧
      payload = sendPayload name declared body := by
  cases payload with
  | nil => cases h
  | cons n rest =>
    have hroom : n.toNat + 2 ≤ rest.length := by
      rw [List.length_cons, List.headD_cons] at h
      omega
    have hname : (rest.take n.toNat).length = n.toNat := by
      rw [List.length_take]
      omega
    have htwo : ((rest.drop n.toNat).take 2).length = 2 := by
      rw [List.length_take, List.length_drop]
      omega
    have hfield := BigEndian.bytes_value ((rest.drop n.toNat).take 2)
    have hvalue := BigEndian.value_lt ((rest.drop n.toNat).take 2)
    rw [htwo] at hfield hvalue
    have hbyte : (rest.take n.toNat).length < 256 := hname.trans_lt n.toNat_lt
    refine ⟨rest.take n.toNat, _, (rest.drop n.toNat).drop 2, hbyte, hvalue, ?_⟩
    rw [sendPayload, nameField, hname, UInt8.ofNat_toNat, hfield, List.take_append_drop,
      List.cons_append, List.take_append_drop]

theorem parseSendMessage_carries {payload : Bytes} {request : Username × Bytes}
    (h : parseSendMessage payload = .ok request) :
    Carries MessageType.sendMessage.code payload request.2 := by
  have hlong : 1 + (payload.headD 0).toNat + 2 ≤ payload.length := by
    by_contra hshort
    have hbad : (payload.headD 0).toNat = 0 ∨ (payload.headD 0).toNat ≥ maxUsernameLen ∨
        payload.length < 1 + (payload.headD 0).toNat + 2 := .inr (.inr (Nat.lt_of_not_le hshort))
    obtain ⟨e, he⟩ : ∃ e, readName 3 2 "Invalid message data" "Invalid recipient length" payload =
        .error e := by
      unfold readName
      split
      · exact ⟨_, rfl⟩
      · exact ⟨_, if_pos hbad⟩
    rw [parseSendMessage, he] at h
    cases h
  obtain ⟨name, declared, body, hname, hdeclared, rfl⟩ := exists_sendPayload hlong
  rw [parseSendMessage_send body hname hdeclared] at h
  split_ifs at h with _ _ hbody
  obtain rfl := Except.ok.inj h
  have hdata : (body.take declared).length = declared := by
    rw [List.length_take]
    omega
  refine ⟨rfl, name, body.drop declared, hname, hdata.trans_lt hdeclared, ?_⟩
  rw [hdata, List.take_append_drop]

theorem parseSendMessage_alike {payload payload' : Bytes}
    (h : SamePayload M MessageType.sendMessage.code payload payload') :
    (∃ e, parseSendMessage payload = .error e ∧ parseSendMessage payload' = .error e) ∨
      ∃ recipient data data', parseSendMessage payload = .ok (recipient, data) ∧
        parseSendMessage payload' = .ok (recipient, data') ∧ M.rel data data' := by
  cases h with
  | same hsame =>
    cases hp : parseSendMessage payload with
    | error e => exact .inl ⟨e, rfl, rfl⟩
    | ok request =>
      have hdata := hsame request.2 (parseSendMessage_carries hp)
      exact .inr ⟨request.1, request.2, request.2, rfl, rfl, hdata⟩
  | @send name declared body body' hname hdeclared hbody =>
    have hlen : (sendPayload name declared body').length =
        (sendPayload name declared body).length := by
      simp [sendPayload, hbody.length_eq]
    rw [parseSendMessage_send body hname hdeclared, parseSendMessage_send body' hname hdeclared,
      hlen, hbody.length_eq]
    split_ifs
    · exact .inl ⟨_, rfl, rfl⟩
    · exact .inl ⟨_, rfl, rfl⟩
    · exact .inl ⟨_, rfl, rfl⟩
    · exact .inr ⟨_, _, _, rfl, rfl, hbody.cipher⟩

theorem handleRegisterUser_alike (h : Blind M w w') (i : ℕ) (payload : Bytes) :
    Alike M (handleRegisterUser w i payload) (handleRegisterUser w' i payload) := by
  unfold handleRegisterUser
  cases parseRegister payload with
  | error e => exact refuse_alike h i e
  | ok request =>
    obtain ⟨hresult, hadded⟩ := addUser_alike h request.1 request.2
    dsimp only
    rw [hresult]
    split_ifs
    · exact reply_alike hadded i (by decide) _
    · exact reply_alike hadded i (by decide) _
    · exact reply_alike hadded i (by decide) _

theorem handleLoginUser_alike (verify : Signature → Challenge → Key → Bool) (h : Blind M w w')
    (i : ℕ) (payload : Bytes) :
    Alike M (handleLoginUser verify w i payload) (handleLoginUser verify w' i payload) := by
  unfold handleLoginUser
  cases parseLogin payload with
  | error e => exact refuse_alike h i e
  | ok request =>
    obtain ⟨hresult, hlogged⟩ := authenticateUser_alike verify h i request.1 request.2
    dsimp only
    rw [hresult, (hlogged.slots i).rest]
    split_ifs
    · exact reply_alike (deliverQueuedMessages_alike hlogged i).world i (by decide) _
    · exact reply_alike hlogged i (by decide) _

theorem handleGetPublicKey_alike (h : Blind M w w') (i : ℕ) (payload : Bytes) :
    Alike M (handleGetPublicKey w i payload) (handleGetPublicKey w' i payload) := by
  unfold handleGetPublicKey
  cases parseGetPublicKey payload with
  | error e => exact refuse_alike h i e
  | ok username =>
    dsimp only
    rw [h.findUser username, h.users]
    cases findUser w.server username with
    | none => exact reply_alike h i (by decide) _
    | some k => exact reply_alike h i (by decide) _

theorem handleSendMessage_alike (h : Blind M w w') (i : ℕ) {payload payload' : Bytes}
    (hpayload : SamePayload M MessageType.sendMessage.code payload payload') :
    Alike M (handleSendMessage w i payload) (handleSendMessage w' i payload') := by
  unfold handleSendMessage
  obtain ⟨e, he, he'⟩ | ⟨recipient, data, data', hp, hp', hdata⟩ := parseSendMessage_alike hpayload
  · rw [he, he']
    exact refuse_alike h i e
  rw [hp, hp']
  dsimp only
  rw [h.findUser recipient]
  cases findUser w.server recipient with
  | none => exact refuse_alike h i _
  | some k =>
    have hdrawn : Blind M (drawMessageId w).2 (drawMessageId w').2 :=
      { h with nextMessageId := congrArg (fun id ↦ id + 1) h.nextMessageId }
    have hid : (drawMessageId w').1 = (drawMessageId w).1 := h.nextMessageId
    obtain ⟨hstatus, hrelayed⟩ := relay_alike hdrawn i (drawMessageId w).1 recipient hdata
    obtain ⟨hresult, hanswered⟩ := reply_alike hrelayed i
      (show MessageType.messageAck ≠ .incomingMessage by decide)
      (ackPayload (drawMessageId w).1
        (relay (drawMessageId w).2 i (drawMessageId w).1 recipient data).1)
    dsimp only
    rw [hid, hstatus]
    split
    · exact .of hanswered
    · exact ⟨hresult, hanswered⟩

theorem handleSetStatus_alike (h : Blind M w w') (i : ℕ) (payload : Bytes) :
    Alike M (handleSetStatus w i payload) (handleSetStatus w' i payload) := by
  unfold handleSetStatus
  cases parseSetStatus payload with
  | error e => exact refuse_alike h i e
  | ok status =>
    dsimp only
    rw [h.username i, h.findUser (w.server.clients i).username]
    cases findUser w.server (w.server.clients i).username with
    | none => exact .of h
    | some k =>
      exact .of (broadcastStatusUpdate_alike ((h.modifyUser k _).modifyRest i (fun _ _ ↦ rfl)) _ _)

theorem handleListUsers_alike (h : Blind M w w') (i : ℕ) :
    Alike M (handleListUsers w i) (handleListUsers w' i) := by
  obtain ⟨hok, hallocated⟩ := malloc_alike h
  have hregistered : registered w'.server = registered w.server := by
    rw [registered, registered, h.users, h.userCount]
  unfold handleListUsers
  dsimp only
  rw [hok, hregistered]
  split
  · exact refuse_alike hallocated i _
  · exact reply_alike hallocated i (by decide) _

theorem handleLogout_alike (h : Blind M w w') (i : ℕ) :
    Alike M (handleLogout w i) (handleLogout w' i) := .of (h.modifyRest i (fun _ _ ↦ rfl))

theorem authenticatedOnly_alike (h : Blind M w w') (i : ℕ) {handle handle' : World → ℤ × World}
    (hhandle : Alike M (handle w) (handle' w')) :
    Blind M (authenticatedOnly w i handle) (authenticatedOnly w' i handle') := by
  unfold authenticatedOnly
  rw [h.authenticated i, h.socketFd i]
  split
  · exact (sendError_alike h _ _ _).world
  · exact hhandle.world

theorem receiveNetworkMessage_stream {stream payload : Bytes} {type : UInt8}
    (h : (receiveNetworkMessage w stream).1 = .message type payload) :
    ∃ more, stream = packet type payload ++ more := by
  have htaken : 5 ≤ stream.length ∧ (readHeader (stream.take 5)).2 ≤ (stream.drop 5).length ∧
      (type, payload) = ((readHeader (stream.take 5)).1,
        (stream.drop 5).take (readHeader (stream.take 5)).2) := by
    unfold receiveNetworkMessage at h
    dsimp only at h
    split_ifs at h with _ hfive _ hpos _ hbody
    · obtain ⟨rfl, rfl⟩ := Received.message.inj h
      rw [not_not, List.length_take] at hfive hbody
      exact ⟨by omega, by omega, rfl⟩
    · obtain ⟨rfl, rfl⟩ := Received.message.inj h
      have hzero : (readHeader (stream.take 5)).2 = 0 := Nat.eq_zero_of_not_pos hpos
      rw [not_not, List.length_take] at hfive
      rw [hzero, List.take_zero]
      exact ⟨by omega, Nat.zero_le _, rfl⟩
  exact ⟨_, encode_decodeOne ((Framing.decodeOne_some codec).mpr
    ⟨htaken.1, htaken.2.1, htaken.2.2, rfl⟩)⟩

theorem receive_same_alike (h : Blind M w w') {stream : Bytes}
    (hstream : ∀ type payload more data, stream = packet type payload ++ more →
      Carries type payload data → M.rel data data) :
    SameReceived M (receiveNetworkMessage w stream).1 (receiveNetworkMessage w' stream).1 ∧
      Blind M (receiveNetworkMessage w stream).2 (receiveNetworkMessage w' stream).2 := by
  obtain ⟨hresult, hworld⟩ := receiveNetworkMessage_alike h stream
  refine ⟨?_, hworld⟩
  rw [hresult]
  cases hr : (receiveNetworkMessage w stream).1 with
  | disconnected => exact .disconnected
  | failed => exact .failed
  | message type payload =>
    obtain ⟨more, hmore⟩ := receiveNetworkMessage_stream hr
    exact .message (.same (fun data ↦ hstream type payload more data hmore))

theorem receive_request_alike (h : Blind M w w') {type : UInt8} {payload payload' : Bytes}
    (hpayload : SamePayload M type payload payload') (hlen : payload.length < 2 ^ 32)
    (more : Bytes) :
    SameReceived M (receiveNetworkMessage w (packet type payload ++ more)).1
        (receiveNetworkMessage w' (packet type payload' ++ more)).1 ∧
      Blind M (receiveNetworkMessage w (packet type payload ++ more)).2
        (receiveNetworkMessage w' (packet type payload' ++ more)).2 := by
  obtain ⟨hok, hallocated⟩ := malloc_alike h
  have hsame := hpayload.length_eq
  rw [receiveNetworkMessage_packet w type more hlen,
    receiveNetworkMessage_packet w' type more (by omega), hsame, hok]
  split_ifs
  · exact ⟨.failed, h⟩
  · exact ⟨.failed, hallocated⟩
  · exact ⟨.message hpayload, hallocated⟩
  · exact ⟨.message hpayload, h⟩

/-- The part of `takeRequest` behind `receive_network_message`. -/
theorem takeRequest_alike (i : ℕ) {stream stream' : Bytes}
    (hreceived : SameReceived M (receiveNetworkMessage w stream).1
      (receiveNetworkMessage w' stream').1)
    (hworld : Blind M (receiveNetworkMessage w stream).2 (receiveNetworkMessage w' stream').2) :
    SameTaken M (takeRequest w i stream).1 (takeRequest w' i stream').1 ∧
      Blind M (takeRequest w i stream).2 (takeRequest w' i stream').2 := by
  obtain ⟨hallowed, hchecked⟩ := checkRateLimit_alike hworld i
  have hcounted := updateRateLimit_alike hchecked i
  unfold takeRequest
  dsimp only
  generalize (receiveNetworkMessage w stream).1 = received at hreceived ⊢
  generalize (receiveNetworkMessage w' stream').1 = received' at hreceived ⊢
  cases hreceived with
  | disconnected => exact ⟨.none, hworld⟩
  | failed => exact ⟨.none, hworld⟩
  | message hpayload =>
    dsimp only
    rw [hallowed, hchecked.socketFd i, hcounted.socketFd i]
    split
    · exact ⟨.none, (sendError_alike hchecked _ _ _).world⟩
    · generalize (updateRateLimit (checkRateLimit (receiveNetworkMessage w stream).2 i).2 i) = v
        at hcounted ⊢
      cases (v.server.clients i).socketFd with
      | none => exact ⟨.some hpayload, hcounted⟩
      | some fd => exact ⟨.some hpayload, hcounted.emit (.request fd hpayload)⟩

section Runs

variable (verify : Signature → Challenge → Key → Bool)

theorem dispatch_alike (h : Blind M w w') (i : ℕ) {type : UInt8} {payload payload' : Bytes}
    (hpayload : SamePayload M type payload payload') :
    Blind M (dispatch verify w i type payload) (dispatch verify w' i type payload') := by
  unfold dispatch
  by_cases hsend : type = MessageType.sendMessage.code
  · subst hsend
    rw [if_neg (by decide), if_neg (by decide), if_neg (by decide), if_pos rfl, if_neg (by decide),
      if_neg (by decide), if_neg (by decide), if_pos rfl]
    exact authenticatedOnly_alike h i (handleSendMessage_alike h i hpayload)
  rw [hpayload.eq hsend, h.socketFd i]
  split_ifs
  · exact (handleRegisterUser_alike h i payload).world
  · exact (handleLoginUser_alike verify h i payload).world
  · exact authenticatedOnly_alike h i (handleGetPublicKey_alike h i payload)
  · exact authenticatedOnly_alike h i (deliverQueuedMessages_alike h i)
  · exact authenticatedOnly_alike h i (handleSetStatus_alike h i payload)
  · exact authenticatedOnly_alike h i (handleListUsers_alike h i)
  · exact (handleLogout_alike h i).world
  · exact (sendError_alike h _ _ _).world

theorem goOffline_alike (h : Blind M w w') (i : ℕ) :
    Blind M (goOffline w i) (goOffline w' i) := by
  unfold goOffline
  dsimp only
  rw [h.authenticated i, h.username i, h.findUser (w.server.clients i).username]
  split
  · cases findUser w.server (w.server.clients i).username with
    | none => exact h
    | some k => exact broadcastStatusUpdate_alike (h.modifyUser k _) _ _
  · exact h

theorem closeSocket_alike (h : Blind M w w') (i : ℕ) :
    Blind M (closeSocket w i) (closeSocket w' i) := by
  unfold closeSocket
  rw [h.socketFd i]
  cases (w.server.clients i).socketFd with
  | none => exact h
  | some fd => exact h.emit (.closed fd)

theorem terminate_alike (h : Blind M w w') (i : ℕ) :
    Blind M (terminate w i) (terminate w' i) := by
  have hclosed := closeSocket_alike (goOffline_alike h i) i
  refine hclosed.modifyClient i ⟨?_, (hclosed.slots i).queue.reset⟩
  rw [(hclosed.slots i).rest]

theorem fresh_same {fd : Fd} {challenge : Challenge} :
    SameSlot M (freshClient fd challenge) (freshClient fd challenge) := ⟨rfl, zero_same.queue⟩

theorem acceptClient_alike (h : Blind M w w') (challenge : Challenge) (created : Bool) :
    Blind M (acceptClient w challenge created) (acceptClient w' challenge created) := by
  have hfree : freeSlot w'.server = freeSlot w.server := by
    unfold freeSlot
    simp only [h.connected]
  have hnumbered : Blind M { w with nextFd := w.nextFd + 1 } { w' with nextFd := w'.nextFd + 1 } :=
    { h with nextFd := congrArg (fun fd ↦ fd + 1) h.nextFd }
  unfold acceptClient
  dsimp only
  rw [hfree, h.nextFd]
  rw [h.nextFd] at hnumbered
  cases freeSlot w.server with
  | none => exact hnumbered.emit (.closed w.nextFd)
  | some i =>
    have hslotted : Blind M
        (World.modifyClient { w with nextFd := w.nextFd + 1 } i
          (fun _ ↦ freshClient w.nextFd challenge))
        (World.modifyClient { w' with nextFd := w.nextFd + 1 } i
          (fun _ ↦ freshClient w.nextFd challenge)) := hnumbered.modifyClient i fresh_same
    have hcounted := hslotted.recount (fun n ↦ if i ≥ n then i + 1 else n)
    dsimp only
    split
    · exact hcounted
    · exact (hcounted.emit (.closed w.nextFd)).modifyRest i (fun _ _ ↦ rfl)

theorem clientHandler_alike (i : ℕ) {stream stream' : Bytes}
    (hreceived : SameReceived M (receiveNetworkMessage w stream).1
      (receiveNetworkMessage w' stream').1)
    (hworld : Blind M (receiveNetworkMessage w stream).2 (receiveNetworkMessage w' stream').2) :
    Blind M (clientHandler verify w i stream) (clientHandler verify w' i stream') := by
  obtain ⟨htaken, hadmitted⟩ := takeRequest_alike i hreceived hworld
  unfold clientHandler
  dsimp only
  generalize (takeRequest w i stream).1 = taken at htaken ⊢
  generalize (takeRequest w' i stream').1 = taken' at htaken ⊢
  cases htaken with
  | none => exact terminate_alike hadmitted i
  | some hpayload =>
    have hhandled := dispatch_alike verify hadmitted i hpayload
    dsimp only
    rw [hhandled.connected i, hhandled.running]
    split
    · exact hhandled
    · exact terminate_alike hhandled i

theorem step_alike (h : Blind M w w') {x x' : Input} (hx : SameInput M x x') :
    Blind M (step verify w x) (step verify w' x') := by
  cases hx with
  | same hsame =>
    cases x with
    | accept challenge created => exact acceptClient_alike h challenge created
    | receive i stream env =>
      obtain ⟨hreceived, hworld⟩ := receive_same_alike (h.withEnv env)
        (fun type payload more data heq hdata ↦
          hsame data ⟨i, type, payload, more, env, heq ▸ rfl, hdata⟩)
      unfold step
      dsimp only
      rw [h.connected i]
      split
      · exact clientHandler_alike verify i hreceived hworld
      · exact h
  | request i more env hpayload hlen =>
    obtain ⟨hreceived, hworld⟩ := receive_request_alike (h.withEnv env) hpayload hlen more
    unfold step
    dsimp only
    rw [h.connected i]
    split
    · exact clientHandler_alike verify i hreceived hworld
    · exact h

def Stored (s : ServerState) (data : Bytes) : Prop :=
  ∃ j k, ((s.clients j).queue.cells k).encryptedData = some data

def Masking.keeping (M : Masking) (s : ServerState) : Masking where
  rel data data' := M.rel data data' ∨ (data' = data ∧ Stored s data)
  length_eq h := by
    obtain h | ⟨rfl, _⟩ := h
    · exact M.length_eq h
    · rfl

theorem SamePayload.keeping {type : UInt8} {payload payload' : Bytes}
    (h : SamePayload M type payload payload') (s : ServerState) :
    SamePayload (M.keeping s) type payload payload' := by
  cases h with
  | same h => exact .same (fun data hdata ↦ .inl (h data hdata))
  | send hname hdeclared h => exact .send hname hdeclared ⟨.inl h.cipher, h.rest⟩

theorem SameInput.keeping {x x' : Input} (h : SameInput M x x') (s : ServerState) :
    SameInput (M.keeping s) x x' := by
  cases h with
  | same h => exact .same (fun data hdata ↦ .inl (h data hdata))
  | request i more env h hlen => exact .request i more env (h.keeping s) hlen

theorem start_blind (s : ServerState) (nextFd : Fd) (env : Env) :
    Blind (M.keeping s) ⟨s, nextFd, [], env⟩ ⟨s, nextFd, [], env⟩ := by
  refine ⟨rfl, rfl, fun j ↦ ⟨rfl, rfl, rfl, rfl, fun k ↦ ⟨rfl, ?_⟩⟩, rfl, rfl, rfl, rfl, .nil, rfl⟩
  cases hdata : ((s.clients j).queue.cells k).encryptedData with
  | none => exact .none
  | some data => exact .some (.inr ⟨rfl, j, k, hdata⟩)

/-- Over every two runs from one state whose inputs differ in ciphertexts at
most, whatever ciphertexts of the one may stand for which of the other, the
frames, the acknowledgements and the state differ in those ciphertexts at most,
and each run has its own there. -/
theorem run_blind (s : ServerState) (nextFd : Fd) (env : Env) {xs xs' : List Input}
    (hxs : List.Forall₂ (SameInput M) xs xs') :
    Blind (M.keeping s) (Runs.run (step verify) ⟨s, nextFd, [], env⟩ xs)
      (Runs.run (step verify) ⟨s, nextFd, [], env⟩ xs') := by
  have hkept : List.Forall₂ (SameInput (M.keeping s)) xs xs' := hxs.imp (fun _ _ h ↦ h.keeping s)
  exact Runs.run_related (S := Blind (M.keeping s)) (I := SameInput (M.keeping s))
    (fun _ _ _ _ hw hx ↦ step_alike verify hw hx) (start_blind s nextFd env) hkept

def writesTwice (data : Bytes) : List Input :=
  [.accept (Block.zero _) true, .accept (Block.zero _) true,
    .receive 0 (registerPacket (text "alice") (List.replicate 32 1)) .quiet,
    .receive 1 (registerPacket (text "bob") (List.replicate 32 2)) .quiet,
    .receive 0 (loginPacket (text "alice") (List.replicate 64 0)) .quiet,
    .receive 1 (loginPacket (text "bob") (List.replicate 64 0)) .quiet,
    .receive 0 (sendPacket (text "bob") data) .quiet,
    .receive 0 (sendPacket (text "bob") data) ⟨[], [some 0], []⟩,
    .receive 1 (packet 0x05 []) .quiet]

/-- `[8, 9]` stands where `[1, 2]` did. -/
def swapped : Masking where
  rel data data' := data = [1, 2] ∧ data' = [8, 9]
  length_eq h := by rw [h.1, h.2]; rfl

theorem run_blind_swapped :
    Blind (swapped.keeping ServerState.initial) (reach (fun _ _ _ ↦ true) (writesTwice [1, 2]))
        (reach (fun _ _ _ ↦ true) (writesTwice [8, 9])) ∧
      (reach (fun _ _ _ ↦ true) (writesTwice [1, 2])).out ≠
        (reach (fun _ _ _ ↦ true) (writesTwice [8, 9])).out := by
  have hsend : ∀ env, SameInput swapped (.receive 0 (sendPacket (text "bob") [1, 2]) env)
      (.receive 0 (sendPacket (text "bob") [8, 9]) env) := fun env ↦
    .request 0 [] env
      (@SamePayload.send swapped (text "bob") 2 [1, 2] [8, 9] (by decide) (by decide)
        ⟨⟨rfl, rfl⟩, rfl⟩)
      (by decide)
  have haccept : SameInput swapped (.accept (Block.zero _) true) (.accept (Block.zero _) true) :=
    .same (fun _ h ↦ by obtain ⟨_, _, _, _, _, hx, _⟩ := h; cases hx)
  have hother : ∀ (i : ℕ) (stream : Bytes), stream.getD 4 0 ≠ MessageType.sendMessage.code →
      SameInput swapped (.receive i stream .quiet) (.receive i stream .quiet) :=
    fun i stream htype ↦ .same (fun data h ↦ absurd (brings_type h) htype)
  refine ⟨run_blind _ ServerState.initial 0 .quiet ?_, by decide +kernel⟩
  exact .cons haccept (.cons haccept (.cons (hother _ _ (by decide)) (.cons (hother _ _ (by decide))
    (.cons (hother _ _ (by decide)) (.cons (hother _ _ (by decide)) (.cons (hsend _)
      (.cons (hsend _) (.cons (hother _ _ (by decide)) .nil))))))))

end Runs

end CChat.Server.Blindness
