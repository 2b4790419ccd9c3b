import CChat.Library.Runs
import CChat.Server.Loop

namespace CChat.Threads.Machine

open CChat.Library CChat.Library.Circular CChat.Protocol.Types CChat.Server.State
  CChat.Server.Network CChat.Server.Users CChat.Server.Queue CChat.Server.Handlers CChat.Server.Loop

/-- Where a handler goes on behind `broadcast_status_update`. -/
inductive After
  | loggedIn
  | statusSet
  | closing
deriving DecidableEq

/-- What a handler does next, with the local variables it needs for it. Each
constructor but `reading` and `done` stands for one critical section, one frame
or one private step of `client_handler` and of what it calls. -/
inductive Control
  | reading
  | testing
  | refusing (e : Refusal)
  | replying (type : MessageType) (payload : Bytes)
  | registering (username : Username) (publicKey : Key)
  | identifying (username : Username) (signature : Signature)
  | accrediting (k : ℕ) (username : Username) (signature : Signature)
  | onlining (k : ℕ) (username : Username)
  | announcing (username : Username) (status : UserStatus) (after : After)
  | sweeping (username : Username) (status : UserStatus) (j : ℕ) (after : After)
  | delivering
  | seekingKey (username : Username)
  | copyingKey (k : ℕ) (username : Username)
  | seekingRecipient (recipient : Username) (data : Bytes)
  | drawing (recipient : Username) (data : Bytes)
  | locating (id : UInt32) (recipient : Username) (data : Bytes)
  | sending (id : UInt32) (recipient : Username) (data : Bytes) (j : ℕ)
  | queueing (id : UInt32) (recipient : Username) (data : Bytes)
  | storing (id : UInt32) (recipient : Username) (data : Bytes) (j : ℕ)
  | fetching
  | seekingSelf (status : UserStatus)
  | settingUser (k : ℕ) (status : UserStatus)
  | settingClient (status : UserStatus)
  | listing
  | snapshotting (k : ℕ) (users : List UserRecord)
  | hangingUp
  | closing
  | offlining (k : ℕ)
  | shutting
  | done
deriving DecidableEq

def After.control : After → Control
  | .loggedIn => .delivering
  | .statusSet => .testing
  | .closing => .shutting

def parsed {α : Type} (request : Except Refusal α) (next : α → Control) : Control :=
  match request with
  | .error e => .refusing e
  | .ok a => next a

def loggedInOnly (authenticated : Bool) (next : Control) : Control :=
  if !authenticated then .refusing ⟨.authFailed, "Not authenticated"⟩ else next

/-- The `switch` of `client_handler` with the format checks of the handlers. -/
def route (authenticated : Bool) (type : UInt8) (payload : Bytes) : Control :=
  if type = MessageType.registerUser.code then
    parsed (parseRegister payload) (fun r ↦ .registering r.1 r.2)
  else if type = MessageType.loginUser.code then
    parsed (parseLogin payload) (fun r ↦ .identifying r.1 r.2)
  else if type = MessageType.getPublicKey.code then
    loggedInOnly authenticated (parsed (parseGetPublicKey payload) .seekingKey)
  else if type = MessageType.sendMessage.code then
    loggedInOnly authenticated
      (parsed (parseSendMessage payload) (fun r ↦ .seekingRecipient r.1 r.2))
  else if type = MessageType.getMessages.code then loggedInOnly authenticated .fetching
  else if type = MessageType.setStatus.code then
    loggedInOnly authenticated (parsed (parseSetStatus payload) .seekingSelf)
  else if type = MessageType.listUsers.code then loggedInOnly authenticated .listing
  else if type = MessageType.logout.code then .hangingUp
  else .refusing ⟨.invalidFormat, "Unknown message type"⟩

def registration (result : ℤ) : Bytes :=
  if result = 0 then [1, 0]
  else if result = -2 then [0, ErrorCode.userExists.code]
  else [0, ErrorCode.serverError.code]

/-- The section of `queue_message` under the queue's mutex, on the slot that
was found for the recipient. -/
def storeMessage (w : World) (j : ℕ) (recipient sender : Username) (data : Bytes) : World :=
  if (w.server.clients j).queue.count ≥ messageQueueSize then w
  else
    let id := w.server.nextMessageId
    let w₁ := { w with server := { w.server with nextMessageId := id + 1 } }
    let now := time w₁
    let allocated := malloc now.2
    let entry : StoredMessage := ⟨id, sender, recipient, now.1, data.length, none, false⟩
    if !allocated.1 then
      allocated.2.modifyClient j (fun c ↦ { c with queue := writeTail c.queue entry })
    else
      let stored := { entry with encryptedData := some data }
      (allocated.2.modifyClient j (fun c ↦
        { c with queue := push messageQueueSize c.queue stored })).emit (.queued stored)

theorem queueMessage_sections (w : World) (recipient sender : Username) (data : Bytes) :
    (queueMessage w recipient sender data).2 = if data.length = 0 then w else
      match findClientByUsername w.server recipient with
      | none => w
      | some j => storeMessage w j recipient sender data := by
  unfold queueMessage storeMessage
  dsimp only
  by_cases hdata : data.length = 0
  · rw [if_pos hdata, if_pos hdata]
  · rw [if_neg hdata, if_neg hdata]
    cases findClientByUsername w.server recipient with
    | none => rfl
    | some j =>
      dsimp only
      split_ifs <;> rfl

variable (verify : Signature → Challenge → Key → Bool)

def proceed (w : World) (i : ℕ) : Control → World × Control
  | .reading => (w, .reading)
  | .testing =>
    (w, if (w.server.clients i).connected && w.server.running then .reading else .closing)
  | .refusing e => ((refuse w i e).2, .testing)
  | .replying type payload => ((reply w i type payload).2, .testing)
  | .registering username publicKey =>
    let added := addUser w username publicKey
    (added.2, .replying .registerResponse (registration added.1))
  | .identifying username signature =>
    match findUser w.server username with
    | none => (w, .replying .loginResponse [0])
    | some k => (w, .accrediting k username signature)
  | .accrediting k username signature =>
    let c := w.server.clients i
    let key := (w.server.users k).publicKey
    if !verify signature c.challenge key then (w, .replying .loginResponse [0])
    else
      let w₁ := w.modifyClient i (fun c ↦ { c with authenticated := true, username := username })
      match c.socketFd with
      | none => (w₁, .onlining k username)
      | some fd => (w₁.emit (.login fd username signature c.challenge key), .onlining k username)
  | .onlining k username =>
    (w.modifyUser k (fun u ↦ { u with status := .online }),
      .announcing username .online .loggedIn)
  | .announcing username status after =>
    let allocated := malloc w
    if !allocated.1 then (allocated.2, after.control)
    else (allocated.2, .sweeping username status 0 after)
  | .sweeping username status j after =>
    if j < w.server.clientCount then
      let c := w.server.clients j
      if c.connected && c.authenticated && decide (c.username ≠ username) then
        ((sendNetworkMessage w c.socketFd .statusUpdate (statusPayload username status) none).2,
          .sweeping username status (j + 1) after)
      else (w, .sweeping username status (j + 1) after)
    else (w, after.control)
  | .delivering =>
    ((deliverQueuedMessages w i).2,
      .replying .loginResponse (1 :: (w.server.clients i).challenge.toList))
  | .seekingKey username =>
    match findUser w.server username with
    | none => (w, .replying .publicKeyResponse [0])
    | some k => (w, .copyingKey k username)
  | .copyingKey k _ =>
    (w, .replying .publicKeyResponse (1 :: (w.server.users k).publicKey.toList))
  | .seekingRecipient recipient data =>
    match findUser w.server recipient with
    | none => (w, .refusing ⟨.userNotFound, "Recipient not found"⟩)
    | some _ => (w, .drawing recipient data)
  | .drawing recipient data =>
    let drawn := drawMessageId w
    (drawn.2, .locating drawn.1 recipient data)
  | .locating id recipient data =>
    match findClientByUsername w.server recipient with
    | none => (w, .queueing id recipient data)
    | some j => (w, .sending id recipient data j)
  | .sending id recipient data j =>
    let now := time w
    let allocated := malloc now.2
    if !allocated.1 then (allocated.2, .replying .messageAck (ackPayload id 0))
    else
      let sent := sendNetworkMessage allocated.2 (w.server.clients j).socketFd .incomingMessage
        (directPayload id (w.server.clients i).username now.1 data) none
      if sent.1 = 0 then (sent.2, .replying .messageAck (ackPayload id 1))
      else (sent.2, .queueing id recipient data)
  | .queueing id recipient data =>
    if data.length = 0 then (w, .replying .messageAck (ackPayload id 2))
    else
      match findClientByUsername w.server recipient with
      | none => (w, .replying .messageAck (ackPayload id 2))
      | some j => (w, .storing id recipient data j)
  | .storing id recipient data j =>
    (storeMessage w j recipient (w.server.clients i).username data,
      .replying .messageAck (ackPayload id 2))
  | .fetching => ((deliverQueuedMessages w i).2, .testing)
  | .seekingSelf status =>
    match findUser w.server (w.server.clients i).username with
    | none => (w, .testing)
    | some k => (w, .settingUser k status)
  | .settingUser k status =>
    (w.modifyUser k (fun u ↦ { u with status := status }), .settingClient status)
  | .settingClient status =>
    (w.modifyClient i (fun c ↦ { c with status := status }),
      .announcing (w.server.clients i).username status .statusSet)
  | .listing =>
    let allocated := malloc w
    if !allocated.1 then (allocated.2, .refusing ⟨.serverError, "Memory allocation failed"⟩)
    else (allocated.2, .snapshotting 0 [])
  | .snapshotting k users =>
    if k < w.server.userCount then
      let user := w.server.users k
      (w, .snapshotting (k + 1) (if user.isRegistered then users ++ [user] else users))
    else (w, .replying .userListResponse
      (BigEndian.bytes 2 users.length ++ users.flatMap userEntry))
  | .hangingUp => (w.modifyClient i (fun c ↦ { c with connected := false }), .testing)
  | .closing =>
    let c := w.server.clients i
    if c.authenticated && decide (c.username.bytes.length > 0) then
      match findUser w.server c.username with
      | none => (w, .shutting)
      | some k => (w, .offlining k)
    else (w, .shutting)
  | .offlining k =>
    (w.modifyUser k (fun u ↦ { u with status := .offline }),
      .announcing (w.server.clients i).username .offline .closing)
  | .shutting =>
    -- one step, though in the code an `accept` may fall behind `connected = false`
    ((closeSocket w i).modifyClient i (fun c ↦ { c with
      socketFd := none, connected := false, authenticated := false, username := Username.empty
      queue := reset c.queue }), .done)
  | .done => (w, .done)

inductive Mutex
  | users
  | clients
deriving DecidableEq

/-- Which of these two mutexes of the server a handler keeps from one step to the
next: the loops of `handle_list_users` and `broadcast_status_update` run inside
theirs. The `client->mutex` of its slot, which a closing block keeps as well, is not
among them: nobody but a handler of the same slot waits for it. -/
def Control.holds : Control → Option Mutex
  | .snapshotting _ _ => some .users
  | .sweeping _ _ (_ + 1) _ => some .clients
  | _ => none

/-- Which of the two a step of a handler waits for. -/
def acquires (c : ClientConnection) : Control → Option Mutex
  | .registering _ _ => some .users
  | .identifying _ _ => some .users
  | .seekingKey _ => some .users
  | .seekingRecipient _ _ => some .users
  | .seekingSelf _ => some .users
  | .listing => some .users
  | .closing =>
    if c.authenticated && decide (c.username.bytes.length > 0) then some .users else none
  | .sweeping _ _ 0 _ => some .clients
  | .locating _ _ _ => some .clients
  | .queueing _ _ _ => some .clients
  | _ => none

structure Handler where
  slot : ℕ
  control : Control
deriving DecidableEq

structure Pool where
  world : World
  handlers : Fd → Option Handler

def Pool.initial : Pool := ⟨World.initial, fun _ ↦ none⟩

def Pool.held (m : Pool) (x : Mutex) : Bool :=
  (List.range m.world.nextFd).any (fun h ↦
    (m.handlers h).any (fun handler ↦ decide (handler.control.holds = some x)))

def Pool.blocked (m : Pool) (i : ℕ) (c : Control) : Bool :=
  (acquires (m.world.server.clients i) c).any m.held

/-- What happens next: a connection is accepted, a waiting handler gets bytes,
a handler takes its next step, or the environment changes. -/
inductive Input
  | accept (challenge : Challenge) (created : Bool)
  | receive (h : Fd) (stream : Bytes)
  | go (h : Fd)
  | environment (env : Env)

def Pool.put (m : Pool) (h : Fd) (i : ℕ) (r : World × Control) : Pool :=
  ⟨r.1, Function.update m.handlers h (some ⟨i, r.2⟩)⟩

def acceptHandler (m : Pool) (challenge : Challenge) (created : Bool) : Pool :=
  let w := acceptClient m.world challenge created
  match freeSlot m.world.server with
  | none => { m with world := w }
  | some i => if created then m.put m.world.nextFd i (w, .testing) else { m with world := w }

def receiveRequest (w : World) (i : ℕ) (stream : Bytes) : World × Control :=
  let admitted := takeRequest w i stream
  match admitted.1 with
  | none => (admitted.2, .closing)
  | some (type, payload) =>
    (admitted.2, route (admitted.2.server.clients i).authenticated type payload)

def step (m : Pool) : Input → Pool
  | .accept challenge created =>
    if m.held .clients then m else acceptHandler m challenge created
  | .receive h stream =>
    match m.handlers h with
    | some ⟨i, .reading⟩ => m.put h i (receiveRequest m.world i stream)
    | _ => m
  | .go h =>
    match m.handlers h with
    | some ⟨i, c⟩ => if m.blocked i c then m else m.put h i (proceed verify m.world i c)
    | none => m
  | .environment env => { m with world := { m.world with env := env } }

def reach (xs : List Input) : Pool := Runs.run (step verify) Pool.initial xs

end CChat.Threads.Machine
