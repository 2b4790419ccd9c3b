import CChat.Server.State

namespace CChat.Server.Network

open CChat.Library CChat.Protocol.Types CChat.Protocol.Wire State

/-- `send_network_message`: header and payload go out in two `send` calls, and
the second is made only when the first took all five bytes. `entry` is
history: the stored message the frame carries, when there is one. -/
def sendNetworkMessage (w : World) (fd : Option Fd) (type : MessageType) (payload : Bytes)
    (entry : Option StoredMessage) : ℤ × World :=
  let header := frameHeader type.code payload.length
  let sent := send w fd header.length
  if sent.1 ≠ header.length then (-1, tornOff sent.2 fd (header.take sent.1))
  else if payload.length > 0 then
    let sent' := send sent.2 fd payload.length
    if sent'.1 ≠ payload.length then (-1, tornOff sent'.2 fd (header ++ payload.take sent'.1))
    else (0, whole sent'.2 fd type payload entry)
  else (0, whole sent.2 fd type payload entry)
where
  tornOff (w : World) (fd : Option Fd) (bytes : Bytes) : World :=
    match fd with
    | none => w
    | some fd => w.emit (.torn fd bytes)
  whole (w : World) (fd : Option Fd) (type : MessageType) (payload : Bytes)
      (entry : Option StoredMessage) : World :=
    match fd with
    | none => w
    | some fd => w.emit (.frame fd type payload entry)

/-- The results of `receive_network_message`: `-2`, `-1` or a message. The
payload pointer is null exactly when the payload is empty. -/
inductive Received
  | disconnected
  | failed
  | message (type : UInt8) (payload : Bytes)
deriving DecidableEq

/-- `receive_network_message` on the bytes the peer sends before it closes. -/
def receiveNetworkMessage (w : World) (stream : Bytes) : Received × World :=
  let header := stream.take 5
  if header.length = 0 then (.disconnected, w)
  else if header.length ≠ 5 then (.failed, w)
  else
    let type := (readHeader header).1
    let length := (readHeader header).2
    let body := stream.drop 5
    if length > maxMessageLen * 2 then (.failed, w)
    else if length > 0 then
      let allocated := malloc w
      if !allocated.1 then (.failed, allocated.2)
      else if (body.take length).length ≠ length then (.failed, allocated.2)
      else (.message type (body.take length), allocated.2)
    else (.message type [], w)

def errorPayload (code : ErrorCode) (message : Bytes) : Bytes :=
  code.code :: BigEndian.bytes 2 message.length ++ message

def sendError (w : World) (fd : Option Fd) (code : ErrorCode) (message : String) : ℤ × World :=
  let allocated := malloc w
  if !allocated.1 then (-1, allocated.2)
  else sendNetworkMessage allocated.2 fd .error (errorPayload code (text message)) none

def isNameByte (c : UInt8) : Bool :=
  (0x61 ≤ c && c ≤ 0x7A) || (0x41 ≤ c && c ≤ 0x5A) || (0x30 ≤ c && c ≤ 0x39) || c == 0x5F

def validateUsernameServer (username : Bytes) : ℤ :=
  if username.length = 0 ∨ username.length ≥ maxUsernameLen then -1
  else if username.all isNameByte then 0 else -1

def checkRateLimit (w : World) (i : ℕ) : Bool × World :=
  let now := time w
  let limit := (now.2.server.clients i).rateLimit
  if now.1 - limit.windowStart ≥ rateLimitWindow then
    (decide (0 < rateLimitMaxRequests),
      now.2.modifyClient i (fun c ↦ { c with rateLimit := ⟨now.1, 0⟩ }))
  else (decide (limit.requestCount < rateLimitMaxRequests), now.2)

def updateRateLimit (w : World) (i : ℕ) : World :=
  w.modifyClient i (fun c ↦
    { c with rateLimit := { c.rateLimit with requestCount := c.rateLimit.requestCount + 1 } })

inductive Written (w : World) (fd : Option Fd) (type : MessageType) (payload : Bytes)
    (entry : Option StoredMessage) (result : ℤ) (w' : World) : Prop
  | whole (n : Fd) (hfd : fd = some n) (hr : result = 0) (hs : w'.server = w.server)
      (hn : w'.nextFd = w.nextFd) (ho : w'.out = w.out ++ [.frame n type payload entry])
  | torn (n : Fd) (bytes : Bytes) (hfd : fd = some n) (hr : result = -1)
      (hs : w'.server = w.server) (hn : w'.nextFd = w.nextFd)
      (ho : w'.out = w.out ++ [.torn n bytes])
  | dead (hfd : fd = none) (hr : result = -1) (h : Silent w w')

theorem sendNetworkMessage_written (w : World) (fd : Option Fd) (type : MessageType)
    (payload : Bytes) (entry : Option StoredMessage) :
    Written w fd type payload entry (sendNetworkMessage w fd type payload entry).1
      (sendNetworkMessage w fd type payload entry).2 := by
  cases fd with
  | none =>
    have hne : (0 : ℕ) ≠ (frameHeader type.code payload.length).length := by simp [frameHeader]
    have hsend : send w none (frameHeader type.code payload.length).length = (0, w) := rfl
    have h : sendNetworkMessage w none type payload entry = (-1, w) := by
      unfold sendNetworkMessage
      dsimp only
      rw [hsend, if_pos hne, sendNetworkMessage.tornOff]
    rw [h]
    exact .dead rfl rfl (Silent.refl w)
  | some fd =>
    have h₁ := send_silent w (some fd) (frameHeader type.code payload.length).length
    have h₂ := h₁.trans (send_silent (send w (some fd)
      (frameHeader type.code payload.length).length).2 (some fd) payload.length)
    unfold sendNetworkMessage
    dsimp only
    split
    · exact .torn fd _ rfl rfl h₁.server h₁.nextFd
        (by rw [sendNetworkMessage.tornOff, emit_out, h₁.out])
    · split
      · split
        · exact .torn fd _ rfl rfl h₂.server h₂.nextFd
            (by rw [sendNetworkMessage.tornOff, emit_out, h₂.out])
        · exact .whole fd rfl rfl h₂.server h₂.nextFd
            (by rw [sendNetworkMessage.whole, emit_out, h₂.out])
      · exact .whole fd rfl rfl h₁.server h₁.nextFd
          (by rw [sendNetworkMessage.whole, emit_out, h₁.out])

@[simp] theorem sendNetworkMessage_server (w : World) (fd : Option Fd) (type : MessageType)
    (payload : Bytes) (entry : Option StoredMessage) :
    (sendNetworkMessage w fd type payload entry).2.server = w.server := by
  cases sendNetworkMessage_written w fd type payload entry with
  | whole _ _ _ hs => exact hs
  | torn _ _ _ _ hs => exact hs
  | dead _ _ h => exact h.server

theorem sendNetworkMessage_mallocs (w : World) (fd : Option Fd) (type : MessageType)
    (payload : Bytes) (entry : Option StoredMessage) :
    (sendNetworkMessage w fd type payload entry).2.env.mallocs = w.env.mallocs := by
  have htorn : ∀ v bytes, (sendNetworkMessage.tornOff v fd bytes).env.mallocs = v.env.mallocs := by
    intro v bytes
    cases fd <;> rfl
  have hwhole : ∀ v, (sendNetworkMessage.whole v fd type payload entry).env.mallocs =
      v.env.mallocs := by
    intro v
    cases fd <;> rfl
  unfold sendNetworkMessage
  dsimp only
  split
  · rw [htorn, send_mallocs]
  · split
    · split
      · rw [htorn, send_mallocs, send_mallocs]
      · rw [hwhole, send_mallocs, send_mallocs]
    · rw [hwhole, send_mallocs]

theorem sendNetworkMessage_takes (w : World) (fd : Fd) (type : MessageType) (payload : Bytes)
    (entry : Option StoredMessage) (hpos : 0 < payload.length) :
    (sendNetworkMessage w (some fd) type payload entry).1 = 0 ↔
      (Env.takes w.env 0 5 && Env.takes w.env 1 payload.length) = true := by
  have hlen : (frameHeader type.code payload.length).length = 5 := by simp [frameHeader]
  have hfirst := send_takes w fd 5
  have hsecond := send_takes (send w (some fd) 5).2 fd payload.length
  rw [send_takes_next] at hsecond
  rw [Bool.and_eq_true, ← hfirst, ← hsecond]
  unfold sendNetworkMessage
  simp only [hlen]
  split
  next h => simp [h]
  next h =>
    have h' : (send w (some fd) 5).1 = 5 := by simpa using h
    split
    next hne => simp [hne]
    next heq => simpa [h'] using heq

theorem sendNetworkMessage_faultless {w : World} (h : w.env.Faultless) (fd : Option Fd)
    (type : MessageType) (payload : Bytes) (entry : Option StoredMessage) :
    (sendNetworkMessage w fd type payload entry).2.env.Faultless ∧
      (fd.isSome → (sendNetworkMessage w fd type payload entry).1 = 0) := by
  obtain ⟨h₁, hall₁⟩ := send_faultless h fd (frameHeader type.code payload.length).length
  obtain ⟨h₂, hall₂⟩ := send_faultless h₁ fd payload.length
  have htorn : ∀ v bytes, v.env.Faultless →
      (sendNetworkMessage.tornOff v fd bytes).env.Faultless := by
    intro v bytes hv
    cases fd <;> exact hv
  have hwhole : ∀ v, v.env.Faultless →
      (sendNetworkMessage.whole v fd type payload entry).env.Faultless := by
    intro v hv
    cases fd <;> exact hv
  unfold sendNetworkMessage
  dsimp only
  split
  next hne => exact ⟨htorn _ _ h₁, fun hfd ↦ absurd (hall₁ hfd) hne⟩
  · split
    · split
      next hne => exact ⟨htorn _ _ h₂, fun hfd ↦ absurd (hall₂ hfd) hne⟩
      · exact ⟨hwhole _ h₂, fun _ ↦ rfl⟩
    · exact ⟨hwhole _ h₁, fun _ ↦ rfl⟩

def Event.sent (fd : Fd) : Event → Bytes
  | .frame fd' type payload _ => if fd' = fd then packet type.code payload else []
  | .torn fd' bytes => if fd' = fd then bytes else []
  | _ => []

def wire (fd : Fd) (out : List Event) : Bytes := out.flatMap (Event.sent fd)

@[simp] theorem wire_append (fd : Fd) (out es : List Event) :
    wire fd (out ++ es) = wire fd out ++ wire fd es := List.flatMap_append

theorem sendNetworkMessage_wire (w : World) (fd : Fd) (type : MessageType) (payload : Bytes)
    (entry : Option StoredMessage) :
    ∃ n, wire fd (sendNetworkMessage w (some fd) type payload entry).2.out =
      wire fd w.out ++ (packet type.code payload).take n := by
  have hemit : ∀ (v : World) (e : Event), v.out = w.out →
      (∃ n, Event.sent fd e = (packet type.code payload).take n) →
      ∃ n, wire fd (v.emit e).out = wire fd w.out ++ (packet type.code payload).take n := by
    rintro v e hv ⟨n, he⟩
    refine ⟨n, ?_⟩
    rw [emit_out, wire_append, hv, ← he]
    simp [wire]
  have htorn : ∀ bytes, Event.sent fd (.torn fd bytes) = bytes := fun _ ↦ if_pos rfl
  have hwhole : ∀ v : World, v.out = w.out →
      ∃ n, wire fd (sendNetworkMessage.whole v (some fd) type payload entry).out =
        wire fd w.out ++ (packet type.code payload).take n := by
    intro v hv
    refine hemit v _ hv ⟨(packet type.code payload).length, ?_⟩
    rw [List.take_length]
    exact if_pos rfl
  unfold sendNetworkMessage
  dsimp only
  split
  · refine hemit _ _ (send_out _ _ _)
      ⟨(send w (some fd) (frameHeader type.code payload.length).length).1, ?_⟩
    rw [htorn, packet, List.take_append_of_le_length (send_le _ _ _)]
  · split
    · split
      · refine hemit _ _ (by rw [send_out, send_out])
          ⟨(frameHeader type.code payload.length).length + (send (send w (some fd)
            (frameHeader type.code payload.length).length).2 (some fd) payload.length).1, ?_⟩
        rw [htorn, packet, List.take_length_add_append]
      · exact hwhole _ (by rw [send_out, send_out])
    · exact hwhole _ (send_out _ _ _)

@[simp] theorem sendError_server (w : World) (fd : Option Fd) (code : ErrorCode)
    (message : String) : (sendError w fd code message).2.server = w.server := by
  unfold sendError
  dsimp only
  split
  · exact malloc_server w
  · rw [sendNetworkMessage_server, malloc_server]

theorem receiveNetworkMessage_silent (w : World) (stream : Bytes) :
    Silent w (receiveNetworkMessage w stream).2 := by
  have h := malloc_silent w
  unfold receiveNetworkMessage
  dsimp only
  repeat' split
  all_goals first | exact Silent.refl w | exact h

end CChat.Server.Network
