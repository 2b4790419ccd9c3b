import CChat.Protocol.Wire

namespace CChat.Client.Network

open CChat.Library CChat.Protocol.Types CChat.Protocol.Wire

inductive CchatError
  | success | invalidArgs | network | crypto | auth | userNotFound | memory | fileIo
  | keyGeneration | encryption | decryption | keyDerivation | permissionDenied
deriving DecidableEq

/-- What one `send` gives back: a count of bytes, or `-1`, with `EPIPE` or
`ECONNRESET` in `errno` or another error. -/
inductive Sent
  | taken (n : ℕ)
  | failed (broken : Bool)
deriving DecidableEq

/-- A connection as the client's kernel sees it: what its far end has sent by
the time it has received some bytes, what it was sent so far and how much of
its answer was read. -/
structure Channel where
  peer : Bytes → Bytes
  written : Bytes
  consumed : ℕ

def Channel.incoming (ch : Channel) : Bytes := (ch.peer ch.written).drop ch.consumed

/-- What the rest of the world decides during the client's calls: whether each
`malloc` and each `socket` succeeds, whom each `connect` reaches if anyone, and
what each `send` gives back. Beyond its end a list means success, or no one to
connect to. -/
structure Env where
  mallocs : List Bool
  sockets : List Bool
  connects : List (Option (Bytes → Bytes))
  sends : List Sent

/-- `server_socket` (`none` for `-1`) and `connected_to_server`, with the
descriptors the process holds and the connection behind the last one. -/
structure ClientState where
  serverSocket : Option ℕ
  connectedToServer : Bool
  openSockets : List ℕ
  nextSocket : ℕ
  channel : Channel
  env : Env

def ClientState.initial (env : Env) : ClientState := ⟨none, false, [], 0, ⟨fun _ ↦ [], [], 0⟩, env⟩

def malloc (c : ClientState) : Bool × ClientState :=
  match c.env.mallocs with
  | [] => (true, c)
  | ok :: rest => (ok, { c with env := { c.env with mallocs := rest } })

def socket (c : ClientState) : Option ℕ × ClientState :=
  let opened := { c with openSockets := c.nextSocket :: c.openSockets, nextSocket := c.nextSocket + 1 }
  match c.env.sockets with
  | [] => (some c.nextSocket, opened)
  | true :: rest => (some c.nextSocket, { opened with env := { c.env with sockets := rest } })
  | false :: rest => (none, { c with env := { c.env with sockets := rest } })

def connect (c : ClientState) : Bool × ClientState :=
  match c.env.connects with
  | [] => (false, c)
  | none :: rest => (false, { c with env := { c.env with connects := rest } })
  | some peer :: rest =>
    (true, { c with channel := ⟨peer, [], 0⟩, env := { c.env with connects := rest } })

def close (c : ClientState) (s : ℕ) : ClientState := { c with openSockets := c.openSockets.erase s }

def write (c : ClientState) (bytes : Bytes) : ClientState :=
  { c with channel := { c.channel with written := c.channel.written ++ bytes } }

def send (c : ClientState) (bytes : Bytes) : Sent × ClientState :=
  match c.env.sends with
  | [] => (.taken bytes.length, write c bytes)
  | .taken n :: rest =>
    (.taken (n.min bytes.length), write { c with env := { c.env with sends := rest } } (bytes.take n))
  | .failed broken :: rest => (.failed broken, { c with env := { c.env with sends := rest } })

/-- `recv` with `MSG_WAITALL`: fewer bytes come only at the end of the stream. -/
def recv (c : ClientState) (n : ℕ) : Bytes × ClientState :=
  (c.channel.incoming.take n,
    { c with channel := { c.channel with
      consumed := c.channel.consumed + (c.channel.incoming.take n).length } })

/-- A `send` that must take all bytes; a broken connection is noted. -/
def sendAll (c : ClientState) (bytes : Bytes) : Bool × ClientState :=
  let sent := send c bytes
  match sent.1 with
  | .taken n => (decide (n = bytes.length), sent.2)
  | .failed broken =>
    (false, if broken then { sent.2 with connectedToServer := false } else sent.2)

def sendNetworkMessage (c : ClientState) (type : UInt8) (payload : Bytes) : ℤ × ClientState :=
  if c.serverSocket.isNone || !c.connectedToServer then (-1, c)
  else
    let header := sendAll c (frameHeader type payload.length)
    if !header.1 then (-1, header.2)
    else if payload.length > 0 then
      let body := sendAll header.2 payload
      if !body.1 then (-1, body.2) else (0, body.2)
    else (0, header.2)

def receiveNetworkMessage (c : ClientState) : Option Frame × ClientState :=
  match c.serverSocket with
  | none => (none, c)
  | some _ =>
    let header := recv c 5
    if header.1.length ≠ 5 then (none, header.2)
    else
      let type := (readHeader header.1).1
      let length := (readHeader header.1).2
      if length > 0 then
        let allocated := malloc header.2
        if !allocated.1 then (none, allocated.2)
        else
          let payload := recv allocated.2 length
          if payload.1.length ≠ length then (none, payload.2)
          else (some (type, payload.1), payload.2)
      else (some (type, []), header.2)

def connectToServer (c : ClientState) : CchatError × ClientState :=
  if c.connectedToServer then (.success, c)
  else
    let opened := socket c
    match opened.1 with
    | none => (.network, { opened.2 with serverSocket := none })
    | some s =>
      let reached := connect { opened.2 with serverSocket := some s }
      if !reached.1 then (.network, { close reached.2 s with serverSocket := none })
      else (.success, { reached.2 with connectedToServer := true })

def disconnectFromServer (c : ClientState) : CchatError × ClientState :=
  match c.serverSocket with
  | none => (.success, c)
  | some s =>
    let said := if c.connectedToServer then (sendNetworkMessage c 0x08 []).2 else c
    (.success, { close said s with serverSocket := none, connectedToServer := false })

/-- The middle that the three requests share: the payload is allocated, sent
and freed, and the next frame is taken for its response. -/
def request (c : ClientState) (type : UInt8) (payload : Bytes) : Except CchatError Frame × ClientState :=
  let allocated := malloc c
  if !allocated.1 then (.error .memory, allocated.2)
  else
    let sent := sendNetworkMessage allocated.2 type payload
    if sent.1 < 0 then (.error .network, sent.2)
    else
      let received := receiveNetworkMessage sent.2
      match received.1 with
      | none => (.error .network, received.2)
      | some response => (.ok response, received.2)

def readRegisterResponse (response : Frame) : CchatError :=
  if response.1 ≠ 0x81 ∨ response.2.length < 2 then .network
  else if response.2.getD 0 0 = 1 then .success
  else if response.2.getD 1 0 = 0x02 then .auth
  else if response.2.getD 1 0 = 0x01 then .invalidArgs
  else .network

def readPublicKeyResponse (response : Frame) : CchatError × Option Key :=
  if response.1 ≠ 0x83 then (.network, none)
  else if response.2.length < 1 ∨ response.2.getD 0 0 = 0 then (.userNotFound, none)
  else if response.2.length < 1 + publicKeySize then (.network, none)
  else (.success, some (Block.read publicKeySize (response.2.drop 1)))

def readMessageAck (response : Frame) : CchatError :=
  if response.1 ≠ 0x84 ∨ response.2.length < 5 then .network
  else if response.2.getD 4 0 = 0 then .network
  else .success

/-- A `const char *` is given as the bytes `strlen` counts. -/
def registerUserWithServer (c : ClientState) (username : Bytes) (publicKey : Key) :
    CchatError × ClientState :=
  if !c.connectedToServer then (.network, c)
  else if username.length ≥ maxUsernameLen then (.invalidArgs, c)
  else
    let answered := request c 0x01 (nameField username ++ publicKey.toList)
    match answered.1 with
    | .error e => (e, answered.2)
    | .ok response => (readRegisterResponse response, answered.2)

def getUserPublicKey (c : ClientState) (username : Bytes) : (CchatError × Option Key) × ClientState :=
  if !c.connectedToServer then ((.network, none), c)
  else if username.length ≥ maxUsernameLen then ((.invalidArgs, none), c)
  else
    let answered := request c 0x03 (nameField username)
    match answered.1 with
    | .error e => ((e, none), answered.2)
    | .ok response => (readPublicKeyResponse response, answered.2)

def sendMessageToServer (c : ClientState) (recipient encryptedMessage : Bytes) : CchatError × ClientState :=
  if encryptedMessage.length = 0 || !c.connectedToServer then (.network, c)
  else if recipient.length ≥ maxUsernameLen ∨ encryptedMessage.length > maxMessageLen + 100 then
    (.invalidArgs, c)
  else
    let answered := request c 0x04 (nameField recipient ++
      (BigEndian.bytes 2 encryptedMessage.length ++ encryptedMessage))
    match answered.1 with
    | .error e => (e, answered.2)
    | .ok response => (readMessageAck response, answered.2)

theorem malloc_result (c : ClientState) : (malloc c).1 = c.env.mallocs.headD true := by
  unfold malloc
  split
  next h => rw [h]; rfl
  next h => rw [h]; rfl

theorem malloc_channel (c : ClientState) : (malloc c).2.channel = c.channel := by
  unfold malloc
  split <;> rfl

theorem malloc_sockets (c : ClientState) :
    (malloc c).2.serverSocket = c.serverSocket ∧
      (malloc c).2.connectedToServer = c.connectedToServer := by
  unfold malloc
  split <;> exact ⟨rfl, rfl⟩

@[simp] theorem recv_incoming (c : ClientState) (n : ℕ) :
    (recv c n).2.channel.incoming = c.channel.incoming.drop n := by
  have hdrop : ∀ l : Bytes, l.drop (l.take n).length = l.drop n := by
    intro l
    rw [List.length_take]
    obtain h | h := Nat.le_total n l.length
    · rw [Nat.min_eq_left h]
    · rw [Nat.min_eq_right h, List.drop_length, List.drop_eq_nil_of_le h]
  rw [← hdrop, Channel.incoming, Channel.incoming, List.drop_drop]
  rfl

inductive Received (c : ClientState) : Option Frame × ClientState → Prop
  | frame (f : Frame) (rest : Bytes) (c' : ClientState)
      (hd : Framing.decodeOne codec c.channel.incoming = some (f, rest))
      (hroom : f.2 = [] ∨ (malloc c).1 = true) (hin : c'.channel.incoming = rest) :
      Received c (some f, c')
  | ended (c' : ClientState) (hd : Framing.decodeOne codec c.channel.incoming = none) :
      Received c (none, c')
  | noRoom (f : Frame) (rest : Bytes) (c' : ClientState)
      (hd : Framing.decodeOne codec c.channel.incoming = some (f, rest)) (hf : f.2 ≠ [])
      (hroom : (malloc c).1 = false) : Received c (none, c')

theorem receiveNetworkMessage_received {c : ClientState} {s : ℕ} (hs : c.serverSocket = some s) :
    Received c (receiveNetworkMessage c) := by
  have hroom : (malloc (recv c 5).2).1 = (malloc c).1 := by
    rw [malloc_result, malloc_result]
    rfl
  have hbehind : (malloc (recv c 5).2).2.channel.incoming = c.channel.incoming.drop 5 := by
    rw [malloc_channel, recv_incoming]
  unfold receiveNetworkMessage
  rw [hs]
  dsimp only
  by_cases hfive : (recv c 5).1.length = 5
  · have hlong : 5 ≤ c.channel.incoming.length := by
      rw [recv, List.length_take] at hfive
      omega
    rw [if_neg (not_not.mpr hfive), hroom]
    by_cases hbody : (readHeader (recv c 5).1).2 ≤ (c.channel.incoming.drop 5).length
    · have hd := (Framing.decodeOne_some codec).mpr ⟨hlong, hbody, rfl, rfl⟩
      have hfull : ((c.channel.incoming.drop 5).take (readHeader (recv c 5).1).2).length =
          (readHeader (recv c 5).1).2 := by
        rw [List.length_take]
        omega
      by_cases hpos : (readHeader (recv c 5).1).2 > 0
      · rw [if_pos hpos]
        cases hok : (malloc c).1 with
        | false =>
          refine .noRoom _ _ _ hd ?_ hok
          intro hnil
          rw [List.eq_nil_iff_length_eq_zero] at hnil
          exact absurd (hfull.symm.trans hnil) (Nat.ne_of_gt hpos)
        | true =>
          have htaken : (recv (malloc (recv c 5).2).2 (readHeader (recv c 5).1).2).1 =
              (c.channel.incoming.drop 5).take (readHeader (recv c 5).1).2 := by
            rw [recv, hbehind]
          rw [if_neg (by decide), htaken, if_neg (not_not.mpr hfull)]
          exact .frame _ _ _ hd (.inr hok) (by rw [recv_incoming, hbehind]; rfl)
      · have hzero : (codec.read (c.channel.incoming.take codec.width)).2 = 0 :=
          Nat.eq_zero_of_not_pos hpos
        rw [if_neg hpos]
        refine .frame _ _ _ ((Framing.decodeOne_some codec).mpr ⟨hlong, hbody, ?_, ?_⟩) (.inl rfl)
          (recv_incoming c 5)
        · exact Prod.ext rfl (by rw [hzero, List.take_zero])
        · rw [hzero, List.drop_zero]
          rfl
    · have hnone : Framing.decodeOne codec c.channel.incoming = none :=
        (Framing.decodeOne_none codec).mpr (.inr (Nat.lt_of_not_le hbody))
      have hpos : (readHeader (recv c 5).1).2 > 0 := by omega
      rw [if_pos hpos]
      split
      · exact .ended _ hnone
      · rw [if_pos]
        · exact .ended _ hnone
        · rw [recv, hbehind, List.length_take]
          omega
  · rw [if_pos hfive]
    refine .ended _ ((Framing.decodeOne_none codec).mpr (.inl ?_))
    rw [recv, List.length_take] at hfive
    show c.channel.incoming.length < 5
    omega

theorem receiveNetworkMessage_keeps (c : ClientState) :
    (receiveNetworkMessage c).2.serverSocket = c.serverSocket ∧
      (receiveNetworkMessage c).2.connectedToServer = c.connectedToServer ∧
      (receiveNetworkMessage c).2.channel.peer = c.channel.peer := by
  have hmalloc := malloc_sockets (recv c 5).2
  have hpeer := congrArg Channel.peer (malloc_channel (recv c 5).2)
  unfold receiveNetworkMessage
  dsimp only
  split
  · exact ⟨rfl, rfl, rfl⟩
  · split_ifs
    · exact ⟨rfl, rfl, rfl⟩
    · exact ⟨hmalloc.1, hmalloc.2, hpeer⟩
    · exact ⟨hmalloc.1, hmalloc.2, hpeer⟩
    · exact ⟨hmalloc.1, hmalloc.2, hpeer⟩
    · exact ⟨rfl, rfl, rfl⟩

theorem sendAll_whole {c : ClientState} {bytes : Bytes} (h : (sendAll c bytes).1 = true) :
    (sendAll c bytes).2.channel = (write c bytes).channel ∧
      (sendAll c bytes).2.serverSocket = c.serverSocket := by
  unfold sendAll send at h ⊢
  cases hsends : c.env.sends with
  | nil => exact ⟨rfl, rfl⟩
  | cons sent rest =>
    rw [hsends] at h
    cases sent with
    | taken n =>
      have hn : bytes.length ≤ n := by
        have hmin : min n bytes.length = bytes.length := of_decide_eq_true h
        omega
      dsimp only
      rw [List.take_of_length_le hn]
      exact ⟨rfl, rfl⟩
    | failed broken => cases h

theorem sendNetworkMessage_whole {c : ClientState} {type : UInt8} {payload : Bytes}
    (h : ¬ (sendNetworkMessage c type payload).1 < 0) :
    (sendNetworkMessage c type payload).2.channel = (write c (packet type payload)).channel ∧
      (sendNetworkMessage c type payload).2.serverSocket = c.serverSocket := by
  have hneg : (-1 : ℤ) < 0 := by decide
  unfold sendNetworkMessage at h ⊢
  dsimp only at h ⊢
  by_cases hdown : (c.serverSocket.isNone || !c.connectedToServer) = true
  · rw [if_pos hdown] at h
    exact absurd hneg h
  rw [if_neg hdown] at h ⊢
  cases hheader : (sendAll c (frameHeader type payload.length)).1 with
  | false =>
    rw [hheader] at h
    exact absurd hneg h
  | true =>
    obtain ⟨hchannel, hsocket⟩ := sendAll_whole hheader
    rw [hheader, if_neg (by decide)] at h
    rw [if_neg (by decide)]
    by_cases hpos : payload.length > 0
    · rw [if_pos hpos] at h ⊢
      cases hbody : (sendAll (sendAll c (frameHeader type payload.length)).2 payload).1 with
      | false =>
        rw [hbody] at h
        exact absurd hneg h
      | true =>
        obtain ⟨hchannel', hsocket'⟩ := sendAll_whole hbody
        rw [if_neg (by decide)]
        refine ⟨?_, hsocket'.trans hsocket⟩
        dsimp only
        rw [hchannel', write, hchannel]
        simp only [write, packet, List.append_assoc]
    · have hnil : payload = [] := by
        rw [List.eq_nil_iff_length_eq_zero]
        omega
      rw [if_neg hpos]
      subst hnil
      exact ⟨by rw [hchannel, packet, List.append_nil], hsocket⟩

theorem sendNetworkMessage_quiet {c : ClientState} {s : ℕ} (hs : c.serverSocket = some s)
    (hconnected : c.connectedToServer = true) (hsends : c.env.sends = []) (type : UInt8)
    (payload : Bytes) :
    sendNetworkMessage c type payload = (0, write c (packet type payload)) := by
  have hall : ∀ (d : ClientState) (bytes : Bytes), d.env.sends = [] →
      sendAll d bytes = (true, write d bytes) := by
    intro d bytes hd
    simp [sendAll, send, hd]
  have hdown : ¬ (c.serverSocket.isNone || !c.connectedToServer) = true := by
    rw [hs, hconnected]
    exact Bool.false_ne_true
  unfold sendNetworkMessage
  rw [if_neg hdown, hall c _ hsends]
  dsimp only
  rw [if_neg (by decide), hall (write c (frameHeader type payload.length)) _ hsends]
  split
  · simp [write, packet]
  next hpos =>
    have hnil : payload = [] := by
      rw [List.eq_nil_iff_length_eq_zero]
      omega
    rw [hnil, packet, List.append_nil]

theorem request_ok {c : ClientState} {s : ℕ} {type : UInt8} {payload : Bytes} {response : Frame}
    (hs : c.serverSocket = some s) (h : (request c type payload).1 = .ok response) :
    ∃ rest, Framing.decodeOne codec
      ((c.channel.peer (c.channel.written ++ packet type payload)).drop c.channel.consumed) =
        some (response, rest) := by
  unfold request at h
  dsimp only at h
  cases hroom : (malloc c).1 with
  | false =>
    rw [hroom] at h
    cases h
  | true =>
    rw [hroom, if_neg (by decide)] at h
    split at h
    · cases h
    next hsent =>
      obtain ⟨hchannel, hsocket⟩ := sendNetworkMessage_whole hsent
      have hs' : (sendNetworkMessage (malloc c).2 type payload).2.serverSocket = some s := by
        rw [hsocket, (malloc_sockets c).1, hs]
      have hreceived := receiveNetworkMessage_received hs'
      generalize receiveNetworkMessage (sendNetworkMessage (malloc c).2 type payload).2 = received
        at hreceived h
      cases hreceived with
      | frame f rest c' hd =>
        cases h
        rw [hchannel, write, malloc_channel] at hd
        exact ⟨rest, hd⟩
      | ended => cases h
      | noRoom => cases h

theorem request_error {c : ClientState} {type : UInt8} {payload : Bytes} {e : CchatError}
    (h : (request c type payload).1 = .error e) : e = .memory ∨ e = .network := by
  unfold request at h
  dsimp only at h
  split at h
  · cases h
    exact .inl rfl
  · split at h
    · cases h
      exact .inr rfl
    · split at h
      · cases h
        exact .inr rfl
      · cases h

/-- A first `connect_to_server` that succeeds leaves a connection to whom it
reached, nothing sent and nothing read. -/
theorem connectToServer_first {env : Env} {peer : Bytes → Bytes} {rest : List (Option (Bytes → Bytes))}
    (henv : env.connects = some peer :: rest)
    (h : (connectToServer (ClientState.initial env)).1 = .success) :
    ∃ s, (connectToServer (ClientState.initial env)).2.serverSocket = some s ∧
      (connectToServer (ClientState.initial env)).2.channel = ⟨peer, [], 0⟩ := by
  unfold connectToServer socket connect ClientState.initial at h ⊢
  dsimp only at h ⊢
  cases hsockets : env.sockets with
  | nil => exact ⟨0, by simp [henv]⟩
  | cons ok more =>
    cases ok with
    | true => exact ⟨0, by simp [henv]⟩
    | false => simp [hsockets] at h

end CChat.Client.Network
