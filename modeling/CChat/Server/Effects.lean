import CChat.Server.Loop

namespace CChat.Server.Effects

open CChat.Library CChat.Library.Circular CChat.Protocol.Types State Network Users Queue Handlers
  Loop

def Event.isLogin : Event → Bool
  | .login .. => true
  | _ => false

/-- The request slot `i` is handling is a `SEND_MESSAGE` with this recipient and
ciphertext, and no login has been accepted since it arrived. -/
def Asked (w : World) (i : ℕ) (recipient : Username) (data : Bytes) : Prop :=
  ∃ fd pre payload post, (w.server.clients i).socketFd = some fd ∧
    w.out = pre ++ .request fd MessageType.sendMessage.code payload :: post ∧
    (∀ e ∈ post, Event.isLogin e = false) ∧ parseSendMessage payload = .ok (recipient, data)

inductive Emission (w : World) (i : ℕ) : Event → Prop
  | request (fd : Fd) (type : UInt8) (payload : Bytes)
      (hfd : (w.server.clients i).socketFd = some fd) : Emission w i (.request fd type payload)
  | reply (fd : Fd) (type : MessageType) (payload : Bytes)
      (hfd : (w.server.clients i).socketFd = some fd)
      (htype : type ≠ .incomingMessage ∧ type ≠ .statusUpdate)
      (hshort : (w.server.clients i).authenticated = true ∨ payload.length < challengeSize) :
      Emission w i (.frame fd type payload none)
  | torn (j : ℕ) (fd : Fd) (bytes : Bytes) (hfd : (w.server.clients j).socketFd = some fd)
      (hown : j = i ∨
        (w.server.clients i).authenticated = true ∧ (w.server.clients j).authenticated = true) :
      Emission w i (.torn fd bytes)
  | direct (j : ℕ) (fd : Fd) (recipient : Username) (data : Bytes) (id : UInt32) (t : ℤ)
      (hi : (w.server.clients i).authenticated = true)
      (hj : holds (w.server.clients j) recipient = true)
      (hfd : (w.server.clients j).socketFd = some fd) (hasked : Asked w i recipient data) :
      Emission w i (.frame fd .incomingMessage
        (directPayload id (w.server.clients i).username t data) none)
  | status (j : ℕ) (fd : Fd) (status : UserStatus)
      (hi : (w.server.clients i).authenticated = true)
      (hj : (w.server.clients j).connected = true ∧ (w.server.clients j).authenticated = true ∧
        (w.server.clients j).username ≠ (w.server.clients i).username)
      (hfd : (w.server.clients j).socketFd = some fd) :
      Emission w i (.frame fd .statusUpdate
        (statusPayload (w.server.clients i).username status) none)

structure SameIdentity (c c' : ClientConnection) : Prop where
  socketFd : c'.socketFd = c.socketFd
  username : c'.username = c.username
  authenticated : c'.authenticated = c.authenticated
  connected : c'.connected = c.connected
  challenge : c'.challenge = c.challenge

theorem SameIdentity.refl (c : ClientConnection) : SameIdentity c c := ⟨rfl, rfl, rfl, rfl, rfl⟩

theorem SameIdentity.trans {a b c : ClientConnection} (h : SameIdentity a b)
    (h' : SameIdentity b c) : SameIdentity a c :=
  ⟨h'.socketFd.trans h.socketFd, h'.username.trans h.username,
    h'.authenticated.trans h.authenticated, h'.connected.trans h.connected,
    h'.challenge.trans h.challenge⟩

/-- What a handler may do at four points of its run, beyond what its own code
checks there: accept a login, add a user, hang up, run its closing block. -/
structure Guards where
  login : World → Username → Prop
  register : World → Prop
  logout : Prop
  close : World → Prop

def Guards.any : Guards := ⟨fun _ _ ↦ True, fun _ ↦ True, True, fun _ ↦ True⟩

structure Guards.Implies (g g' : Guards) : Prop where
  login : ∀ w name, g.login w name → g'.login w name
  register : ∀ w, g.register w → g'.register w
  logout : g.logout → g'.logout
  close : ∀ w, g.close w → g'.close w

def closedEvents : Option Fd → List Event
  | none => []
  | some fd => [.closed fd]

def closedClient (c : ClientConnection) : ClientConnection :=
  { c with
    socketFd := none, connected := false, authenticated := false, username := Username.empty
    queue := reset c.queue }

variable (verify : Signature → Challenge → Key → Bool)

/-- One change of the world by the handler of slot `i`: every critical section
and every frame of `client_handler` and of what it calls is one of these. -/
inductive Effect (g : Guards) (i : ℕ) (w w' : World) : Prop
  | silent (h : Silent w w')
  | emit (e : Event) (he : Emission w i e) (hs : w'.server = w.server)
      (hn : w'.nextFd = w.nextFd) (ho : w'.out = w.out ++ [e])
  | tune (c : ClientConnection) (hc : SameIdentity (w.server.clients i) c)
      (hq : c.queue = (w.server.clients i).queue)
      (hown : (w.server.clients i).authenticated = true ∨
        ∃ r, c = { w.server.clients i with rateLimit := r })
      (hs : w'.server = (w.modifyClient i (fun _ ↦ c)).server)
      (hn : w'.nextFd = w.nextFd) (ho : w'.out = w.out)
  | setStatus (k : ℕ) (status : UserStatus)
      (hi : (w.server.clients i).authenticated = true)
      (hk : findUser w.server (w.server.clients i).username = some k)
      (hs : w'.server = (w.modifyUser k (fun u ↦ { u with status := status })).server)
      (hn : w'.nextFd = w.nextFd) (ho : w'.out = w.out)
  | register (username : Username) (key : Key) (hg : g.register w)
      (hname : ¬ validateUsernameServer username.bytes < 0)
      (hroom : w.server.userCount < maxClients) (hnew : findUser w.server username = none)
      (hs : w'.server = { w.server with
        users := Function.update w.server.users w.server.userCount ⟨username, key, .offline, true⟩
        userCount := w.server.userCount + 1 })
      (hn : w'.nextFd = w.nextFd) (ho : w'.out = w.out)
  | login (username : Username) (signature : Signature) (fd : Fd) (k : ℕ)
      (hg : g.login w username) (hk : findUser w.server username = some k)
      (hv : verify signature (w.server.clients i).challenge (w.server.users k).publicKey = true)
      (hfd : (w.server.clients i).socketFd = some fd)
      (hs : w'.server = (w.modifyClient i (fun c ↦
        { c with authenticated := true, username := username })).server)
      (hn : w'.nextFd = w.nextFd)
      (ho : w'.out = w.out ++ [.login fd username signature (w.server.clients i).challenge
        (w.server.users k).publicKey])
  | nextId (hi : (w.server.clients i).authenticated = true)
      (hs : w'.server = { w.server with nextMessageId := w.server.nextMessageId + 1 })
      (hn : w'.nextFd = w.nextFd) (ho : w'.out = w.out)
  | enqueue (j : ℕ) (m : StoredMessage) (data : Bytes)
      (hi : (w.server.clients i).authenticated = true)
      (hj : holds (w.server.clients j) m.recipient = true)
      (hasked : Asked w i m.recipient data) (hsender : m.sender = (w.server.clients i).username)
      (hdata : m.encryptedData = some data) (hlen : m.encryptedLen = data.length)
      (hpos : 0 < data.length) (hfresh : m.delivered = false)
      (hroom : (w.server.clients j).queue.count < messageQueueSize)
      (hs : w'.server = (w.modifyClient j (fun c ↦
        { c with queue := push messageQueueSize c.queue m })).server)
      (hn : w'.nextFd = w.nextFd) (ho : w'.out = w.out ++ [.queued m])
  | spoil (j : ℕ) (m : StoredMessage)
      (hi : (w.server.clients i).authenticated = true)
      (hroom : (w.server.clients j).queue.count < messageQueueSize)
      (hs : w'.server = (w.modifyClient j (fun c ↦
        { c with queue := writeTail c.queue m })).server)
      (hn : w'.nextFd = w.nextFd) (ho : w'.out = w.out)
  | deliver (fd : Fd) (m : StoredMessage)
      (hi : (w.server.clients i).authenticated = true)
      (hcount : 0 < (w.server.clients i).queue.count)
      (hm : m = (w.server.clients i).queue.cells (w.server.clients i).queue.head)
      (hfresh : m.delivered = false) (hfd : (w.server.clients i).socketFd = some fd)
      (hs : w'.server = (w.modifyClient i (fun c ↦
        { c with queue := advanceHead messageQueueSize (writeHead c.queue (StoredMessage.spent m)) })).server)
      (hn : w'.nextFd = w.nextFd)
      (ho : w'.out = w.out ++ [.frame fd .incomingMessage (queuedPayload m) (some m)])
  | skip (hi : (w.server.clients i).authenticated = true)
      (hcount : 0 < (w.server.clients i).queue.count)
      (hold : ((w.server.clients i).queue.cells (w.server.clients i).queue.head).delivered = true)
      (hs : w'.server = (w.modifyClient i (fun c ↦
        { c with queue := advanceHead messageQueueSize c.queue })).server)
      (hn : w'.nextFd = w.nextFd) (ho : w'.out = w.out)
  | logout (hg : g.logout)
      (hs : w'.server = (w.modifyClient i (fun c ↦ { c with connected := false })).server)
      (hn : w'.nextFd = w.nextFd) (ho : w'.out = w.out)
  | close (hg : g.close w) (hs : w'.server = (w.modifyClient i closedClient).server)
      (hn : w'.nextFd = w.nextFd)
      (ho : w'.out = w.out ++ closedEvents (w.server.clients i).socketFd)

abbrev Chain (g : Guards) (i : ℕ) : World → World → Prop :=
  Relation.ReflTransGen (Effect verify g i)

end CChat.Server.Effects
