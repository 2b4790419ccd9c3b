import CChat.Library.Runs
import CChat.Server.Handlers

namespace CChat.Server.Loop

open CChat.Library CChat.Library.Circular CChat.Protocol.Types State Network Users Queue Handlers

variable (verify : Signature → Challenge → Key → Bool)

def authenticatedOnly (w : World) (i : ℕ) (handle : World → ℤ × World) : World :=
  if !(w.server.clients i).authenticated then
    (sendError w (w.server.clients i).socketFd .authFailed "Not authenticated").2
  else (handle w).2

def dispatch (w : World) (i : ℕ) (type : UInt8) (payload : Bytes) : World :=
  if type = MessageType.registerUser.code then (handleRegisterUser w i payload).2
  else if type = MessageType.loginUser.code then (handleLoginUser verify w i payload).2
  else if type = MessageType.getPublicKey.code then
    authenticatedOnly w i (fun w ↦ handleGetPublicKey w i payload)
  else if type = MessageType.sendMessage.code then
    authenticatedOnly w i (fun w ↦ handleSendMessage w i payload)
  else if type = MessageType.getMessages.code then
    authenticatedOnly w i (fun w ↦ handleGetMessages w i)
  else if type = MessageType.setStatus.code then
    authenticatedOnly w i (fun w ↦ handleSetStatus w i payload)
  else if type = MessageType.listUsers.code then
    authenticatedOnly w i (fun w ↦ handleListUsers w i)
  else if type = MessageType.logout.code then (handleLogout w i).2
  else (sendError w (w.server.clients i).socketFd .invalidFormat "Unknown message type").2

/-- The top of the loop body: one frame received and let through the rate
limit, or no frame when the loop is left. The accepted request is noted in the
history. -/
def takeRequest (w : World) (i : ℕ) (stream : Bytes) : Option (UInt8 × Bytes) × World :=
  let received := receiveNetworkMessage w stream
  match received.1 with
  | .disconnected => (none, received.2)
  | .failed => (none, received.2)
  | .message type payload =>
    let allowed := checkRateLimit received.2 i
    if !allowed.1 then
      (none, (sendError allowed.2 (allowed.2.server.clients i).socketFd .rateLimit
        "Rate limit exceeded").2)
    else
      let counted := updateRateLimit allowed.2 i
      match (counted.server.clients i).socketFd with
      | none => (some (type, payload), counted)
      | some fd => (some (type, payload), counted.emit (.request fd type payload))

def goOffline (w : World) (i : ℕ) : World :=
  let c := w.server.clients i
  if c.authenticated && decide (c.username.bytes.length > 0) then
    match findUser w.server c.username with
    | none => w
    | some k =>
      broadcastStatusUpdate (w.modifyUser k (fun u ↦ { u with status := .offline }))
        c.username .offline
  else w

def closeSocket (w : World) (i : ℕ) : World :=
  match (w.server.clients i).socketFd with
  | none => w
  | some fd => w.emit (.closed fd)

def terminate (w : World) (i : ℕ) : World :=
  (closeSocket (goOffline w i) i).modifyClient i (fun c ↦ { c with
    socketFd := none, connected := false, authenticated := false, username := Username.empty
    queue := reset c.queue })

/-- One turn of the loop of `client_handler` on the bytes its `recv` calls get,
with the loop test behind it and the closing block when the loop ends. -/
def clientHandler (w : World) (i : ℕ) (stream : Bytes) : World :=
  let admitted := takeRequest w i stream
  match admitted.1 with
  | none => terminate admitted.2 i
  | some (type, payload) =>
    let handled := dispatch verify admitted.2 i type payload
    if (handled.server.clients i).connected && handled.server.running then handled
    else terminate handled i

def freeSlot (s : ServerState) : Option ℕ :=
  (List.range maxClients).find? (fun i ↦ !(s.clients i).connected)

def freshClient (fd : Fd) (challenge : Challenge) : ClientConnection :=
  { ClientConnection.zero with
    socketFd := some fd, connected := true, status := .online, challenge := challenge }

/-- One `accept` of the loop in `main`; `created` is whether `pthread_create`
succeeds. -/
def acceptClient (w : World) (challenge : Challenge) (created : Bool) : World :=
  let fd := w.nextFd
  let w₁ := { w with nextFd := fd + 1 }
  match freeSlot w.server with
  | none => w₁.emit (.closed fd)
  | some i =>
    let w₂ := w₁.modifyClient i (fun _ ↦ freshClient fd challenge)
    let w₃ := { w₂ with server := { w₂.server with
      clientCount := if i ≥ w₂.server.clientCount then i + 1 else w₂.server.clientCount } }
    if created then w₃
    else (w₃.emit (.closed fd)).modifyClient i (fun c ↦ { c with connected := false })

/-- What reaches the server, one at a time: a new connection, or the bytes that
unblock the handler of a slot, in the environment it then finds. -/
inductive Input
  | accept (challenge : Challenge) (created : Bool)
  | receive (i : ℕ) (stream : Bytes) (env : Env)

def step (w : World) : Input → World
  | .accept challenge created => acceptClient w challenge created
  | .receive i stream env =>
    if (w.server.clients i).connected then clientHandler verify { w with env := env } i stream
    else w

def reach (xs : List Input) : World := Runs.run (step verify) World.initial xs

end CChat.Server.Loop
