import CChat.Client.Network

namespace CChat.Client.Pairing

open CChat.Library CChat.Protocol.Types CChat.Protocol.Wire CChat.Client.Network

inductive Call
  | registerUser (username : Bytes) (publicKey : Key)
  | getPublicKey (username : Bytes)
  | sendMessage (recipient encryptedMessage : Bytes)

def Call.Sends : Call → Prop
  | .registerUser username _ => username.length < maxUsernameLen
  | .getPublicKey username => username.length < maxUsernameLen
  | .sendMessage recipient encryptedMessage =>
    recipient.length < maxUsernameLen ∧ 0 < encryptedMessage.length ∧
      encryptedMessage.length ≤ maxMessageLen + 100

instance : (call : Call) → Decidable call.Sends
  | .registerUser username _ => inferInstanceAs (Decidable (username.length < maxUsernameLen))
  | .getPublicKey username => inferInstanceAs (Decidable (username.length < maxUsernameLen))
  | .sendMessage recipient encryptedMessage =>
    inferInstanceAs (Decidable (recipient.length < maxUsernameLen ∧ 0 < encryptedMessage.length ∧
      encryptedMessage.length ≤ maxMessageLen + 100))

abbrev Result := CchatError × Option Key

def Call.perform (c : ClientState) : Call → Result × ClientState
  | .registerUser username publicKey =>
    let done := registerUserWithServer c username publicKey
    ((done.1, none), done.2)
  | .getPublicKey username => getUserPublicKey c username
  | .sendMessage recipient encryptedMessage =>
    let done := sendMessageToServer c recipient encryptedMessage
    ((done.1, none), done.2)

def Call.read : Call → Frame → Result
  | .registerUser _ _, response => (readRegisterResponse response, none)
  | .getPublicKey _, response => readPublicKeyResponse response
  | .sendMessage _ _, response => (readMessageAck response, none)

def isPush (f : Frame) : Bool :=
  f.1 == MessageType.incomingMessage.code || f.1 == MessageType.statusUpdate.code

def isIncoming (f : Frame) : Bool := f.1 == MessageType.incomingMessage.code

structure Push where
  frame : Frame
  pushed : isPush frame = true
  fits : frame.2.length < 2 ^ 32

structure Response where
  frame : Frame
  unpushed : isPush frame = false
  fits : frame.2.length < 2 ^ 32

/-- One request of the client, the frames that are pushed before its response,
and whether a payload can be allocated when it reads. -/
structure Exchange where
  call : Call
  sends : call.Sends
  pushes : List Push
  room : Bool

def Exchange.env (x : Exchange) : Env := ⟨[true, x.room], [], [], []⟩

def converse (c : ClientState) : List Exchange → List Result × ClientState
  | [] => ([], c)
  | x :: xs =>
    let done := x.call.perform { c with env := x.env }
    let rest := converse done.2 xs
    (done.1 :: rest.1, rest.2)

/-- What the server sends: every response behind the frames pushed before it,
and some more pushed frames behind the last. -/
def frames : List Exchange → List Response → List Push → List Frame
  | [], _, after => after.map Push.frame
  | _ :: _, [], after => after.map Push.frame
  | x :: xs, r :: rs, after => x.pushes.map Push.frame ++ r.frame :: frames xs rs after

def stream (fs : List Frame) : Bytes := fs.flatMap (Framing.encode codec)

def listening (incoming : Bytes) : ClientState :=
  ⟨some 0, true, [0], 1, ⟨fun _ ↦ incoming, [], 0⟩, ⟨[], [], [], []⟩⟩

def conversation (xs : List Exchange) (rs : List Response) (after : List Push) :
    List Result × ClientState :=
  converse (listening (stream (frames xs rs after))) xs

/-- Whatever the responses are, every call returns what its own response says,
and every pushed message is still there to be read. -/
def Paired (xs : List Exchange) (after : List Push) : Prop :=
  ∀ rs : List Response, rs.length = xs.length →
    (conversation xs rs after).1 = List.zipWith (fun x r ↦ x.call.read r.frame) xs rs ∧
      (Framing.decode codec (conversation xs rs after).2.channel.incoming).1.filter isIncoming =
        (frames xs rs after).filter isIncoming

structure Hears (incoming : Bytes) (c : ClientState) : Prop where
  socket : ∃ s, c.serverSocket = some s
  connected : c.connectedToServer = true
  fixed : ∀ written written', c.channel.peer written = c.channel.peer written'
  incoming : c.channel.incoming = incoming

theorem request_hears {c : ClientState} {f : Frame} {rest incoming : Bytes} {room : Bool}
    (h : Hears incoming c) (hsends : c.env.sends = []) (hmallocs : c.env.mallocs = [true, room])
    (hd : Framing.decodeOne codec incoming = some (f, rest)) (type : UInt8) (payload : Bytes) :
    (request c type payload).1 = .ok f ∧ Hears rest (request c type payload).2 ∧
        (f.2 = [] ∨ room = true) ∨
      (request c type payload).1 = .error .network ∧ f.2 ≠ [] ∧ room = false := by
  obtain ⟨s, hs⟩ := h.socket
  have halloc : malloc c = (true, { c with env := { c.env with mallocs := [room] } }) := by
    rw [malloc, hmallocs]
  generalize hd₁ : ({ c with env := { c.env with mallocs := [room] } } : ClientState) = c₁ at halloc
  have h₁ : c₁.serverSocket = some s ∧ c₁.connectedToServer = true ∧ c₁.env.sends = [] ∧
      c₁.channel = c.channel ∧ (malloc (write c₁ (packet type payload))).1 = room := by
    subst hd₁
    exact ⟨hs, h.connected, hsends, rfl, rfl⟩
  have hincoming : (write c₁ (packet type payload)).channel.incoming = incoming := by
    rw [← h.incoming, write, h₁.2.2.2.1]
    exact congrArg (List.drop c.channel.consumed) (h.fixed _ _)
  have hreceived := @receiveNetworkMessage_received (write c₁ (packet type payload)) s h₁.1
  have hkeeps := receiveNetworkMessage_keeps (write c₁ (packet type payload))
  unfold request
  rw [halloc]
  dsimp only
  rw [if_neg (by decide), sendNetworkMessage_quiet h₁.1 h₁.2.1 h₁.2.2.1]
  dsimp only
  rw [if_neg (by decide)]
  generalize receiveNetworkMessage (write c₁ (packet type payload)) = received at hreceived hkeeps ⊢
  cases hreceived with
  | frame f' rest' c' hd' hroom hin =>
    rw [hincoming, hd] at hd'
    obtain ⟨rfl, rfl⟩ := Prod.mk.inj (Option.some.inj hd')
    refine .inl ⟨rfl, ⟨⟨s, hkeeps.1.trans h₁.1⟩, hkeeps.2.1.trans h₁.2.1, ?_, hin⟩,
      hroom.imp_right h₁.2.2.2.2.symm.trans⟩
    intro a b
    have hpeer : c'.channel.peer = c.channel.peer := by
      rw [← h₁.2.2.2.1]
      exact hkeeps.2.2
    rw [hpeer]
    exact h.fixed a b
  | ended c' hd' =>
    rw [hincoming, hd] at hd'
    cases hd'
  | noRoom f' rest' c' hd' hf hroom =>
    rw [hincoming, hd] at hd'
    obtain ⟨rfl, _⟩ := Prod.mk.inj (Option.some.inj hd')
    exact .inr ⟨rfl, hf, h₁.2.2.2.2.symm.trans hroom⟩

theorem Exchange.perform_hears (x : Exchange) {c : ClientState} {f : Frame} {rest incoming : Bytes}
    (h : Hears incoming c) (hd : Framing.decodeOne codec incoming = some (f, rest)) :
    (x.call.perform { c with env := x.env }).1 = x.call.read f ∧
        Hears rest (x.call.perform { c with env := x.env }).2 ∧ (f.2 = [] ∨ x.room = true) ∨
      (x.call.perform { c with env := x.env }).1 = (.network, none) ∧ f.2 ≠ [] ∧ x.room = false := by
  have hc : Hears incoming { c with env := x.env } := ⟨h.socket, h.connected, h.fixed, h.incoming⟩
  have hanswer := @request_hears { c with env := x.env } f rest incoming x.room hc rfl rfl hd
  have hconnected : ({ c with env := x.env } : ClientState).connectedToServer = true := h.connected
  have hsends := x.sends
  generalize ({ c with env := x.env } : ClientState) = d at hanswer hconnected ⊢
  cases hcall : x.call with
  | registerUser username publicKey =>
    rw [hcall] at hsends
    simp only [Call.perform, registerUserWithServer, hconnected]
    rw [if_neg (by decide), if_neg (Nat.not_le.mpr hsends)]
    obtain ⟨hok, hrest⟩ | ⟨herror, hf⟩ := hanswer 0x01 (nameField username ++ publicKey.toList)
    · rw [hok]
      exact .inl ⟨rfl, hrest⟩
    · rw [herror]
      exact .inr ⟨rfl, hf⟩
  | getPublicKey username =>
    rw [hcall] at hsends
    simp only [Call.perform, getUserPublicKey, hconnected]
    rw [if_neg (by decide), if_neg (Nat.not_le.mpr hsends)]
    obtain ⟨hok, hrest⟩ | ⟨herror, hf⟩ := hanswer 0x03 (nameField username)
    · rw [hok]
      exact .inl ⟨rfl, hrest⟩
    · rw [herror]
      exact .inr ⟨rfl, hf⟩
  | sendMessage recipient encryptedMessage =>
    rw [hcall] at hsends
    obtain ⟨hname, hpos, hlong⟩ := hsends
    have hargs : ¬ (encryptedMessage.length = 0 || !d.connectedToServer) = true := by
      simp [hconnected, Nat.ne_of_gt hpos]
    have hsizes : ¬ (recipient.length ≥ maxUsernameLen ∨
        encryptedMessage.length > maxMessageLen + 100) := by
      omega
    simp only [Call.perform, sendMessageToServer]
    rw [if_neg hargs, if_neg hsizes]
    obtain ⟨hok, hrest⟩ | ⟨herror, hf⟩ := hanswer 0x04 (nameField recipient ++
      (BigEndian.bytes 2 encryptedMessage.length ++ encryptedMessage))
    · rw [hok]
      exact .inl ⟨rfl, hrest⟩
    · rw [herror]
      exact .inr ⟨rfl, hf⟩

/-- Without pushed frames in between and with room, every call reads its own
response, and what is pushed behind the last stays unread. -/
theorem converse_aligned {xs : List Exchange} (hxs : ∀ x ∈ xs, x.pushes = [] ∧ x.room = true)
    {rs : List Response} (hlen : rs.length = xs.length) (after : List Push) {c : ClientState}
    (h : Hears (stream (frames xs rs after)) c) :
    (converse c xs).1 = List.zipWith (fun x r ↦ x.call.read r.frame) xs rs ∧
      Hears (stream (after.map Push.frame)) (converse c xs).2 := by
  induction xs generalizing rs c with
  | nil =>
    rw [frames] at h
    exact ⟨by simp [converse], h⟩
  | cons x xs ih =>
    cases rs with
    | nil => cases hlen
    | cons r rs =>
      obtain ⟨hpushes, hroom⟩ := hxs x List.mem_cons_self
      have hd : Framing.decodeOne codec (stream (frames (x :: xs) (r :: rs) after)) =
          some (r.frame, stream (frames xs rs after)) := by
        rw [frames, hpushes]
        exact Framing.decodeOne_encode codec r.frame r.fits _
      obtain ⟨hread, hrest, _⟩ | ⟨_, _, hnone⟩ := x.perform_hears h hd
      · obtain ⟨htail, hend⟩ := ih (fun y hy ↦ hxs y (List.mem_cons_of_mem _ hy))
          (Nat.succ.inj hlen) hrest
        refine ⟨?_, hend⟩
        rw [converse, List.zipWith_cons_cons, ← hread, ← htail]
      · rw [hroom] at hnone
        cases hnone

def Call.granted : Call → Response
  | .registerUser _ _ => ⟨(0x81, [1, 0]), by decide, by decide⟩
  | .getPublicKey _ => ⟨(0x83, 1 :: List.replicate 32 0), by decide, by decide⟩
  | .sendMessage _ _ => ⟨(0x84, [0, 0, 0, 1, 1]), by decide, by decide⟩

theorem Call.read_granted (call : Call) : (call.read call.granted.frame).1 = .success := by
  cases call <;> rfl

theorem Call.read_push (call : Call) {f : Frame} (hf : isPush f = true) :
    (call.read f).1 = .network := by
  have htype : f.1 = 0x85 ∨ f.1 = 0x87 := by
    simpa [isPush, MessageType.code] using hf
  have hother : f.1 ≠ 0x81 ∧ f.1 ≠ 0x83 ∧ f.1 ≠ 0x84 := by
    obtain h | h := htype
    · rw [h]
      decide
    · rw [h]
      decide
  cases call with
  | registerUser => rw [Call.read, readRegisterResponse, if_pos (.inl hother.1)]
  | getPublicKey => rw [Call.read, readPublicKeyResponse, if_pos hother.2.1]
  | sendMessage => rw [Call.read, readMessageAck, if_pos (.inl hother.2.2)]

theorem Call.granted_payload (call : Call) : call.granted.frame.2 ≠ [] := by
  cases call <;> exact List.cons_ne_nil _ _

/-- When every response grants its request and every call succeeds, nothing was
pushed in between and there was room. -/
theorem aligned_of_granted {xs : List Exchange} (after : List Push) {c : ClientState}
    (h : Hears (stream (frames xs (xs.map (fun x ↦ x.call.granted)) after)) c)
    (hall : (converse c xs).1 =
      List.zipWith (fun x r ↦ x.call.read r.frame) xs (xs.map (fun x ↦ x.call.granted))) :
    ∀ x ∈ xs, x.pushes = [] ∧ x.room = true := by
  induction xs generalizing c with
  | nil => simp
  | cons x xs ih =>
    rw [converse, List.map_cons, List.zipWith_cons_cons] at hall
    obtain ⟨hhead, htail⟩ := List.cons.inj hall
    have hgranted := x.call.read_granted
    cases hpushes : x.pushes with
    | nil =>
      have hd : Framing.decodeOne codec
          (stream (frames (x :: xs) ((x :: xs).map (fun x ↦ x.call.granted)) after)) =
          some (x.call.granted.frame, stream (frames xs (xs.map (fun x ↦ x.call.granted)) after)) := by
        rw [List.map_cons, frames, hpushes]
        exact Framing.decodeOne_encode codec _ x.call.granted.fits _
      obtain ⟨_, hrest, hroom⟩ | ⟨hread, _⟩ := x.perform_hears h hd
      · have hx : x.pushes = [] ∧ x.room = true :=
          ⟨hpushes, hroom.resolve_left x.call.granted_payload⟩
        exact List.forall_mem_cons.mpr ⟨hx, ih hrest htail⟩
      · rw [← hhead, hread] at hgranted
        cases hgranted
    | cons p ps =>
      obtain ⟨rest, hd⟩ : ∃ rest, Framing.decodeOne codec
          (stream (frames (x :: xs) ((x :: xs).map (fun x ↦ x.call.granted)) after)) =
          some (p.frame, rest) := by
        rw [List.map_cons, frames, hpushes]
        exact ⟨_, Framing.decodeOne_encode codec p.frame p.fits _⟩
      obtain ⟨hread, _⟩ | ⟨hread, _⟩ := x.perform_hears h hd
      · rw [← hhead, hread, x.call.read_push p.pushed] at hgranted
        cases hgranted
      · rw [← hhead, hread] at hgranted
        cases hgranted

theorem listening_hears (incoming : Bytes) : Hears incoming (listening incoming) :=
  ⟨⟨0, rfl⟩, rfl, fun _ _ ↦ rfl, rfl⟩

theorem frames_aligned {xs : List Exchange} (hxs : ∀ x ∈ xs, x.pushes = []) {rs : List Response}
    (hlen : rs.length = xs.length) (after : List Push) :
    frames xs rs after = rs.map Response.frame ++ after.map Push.frame := by
  induction xs generalizing rs with
  | nil =>
    obtain rfl := List.eq_nil_of_length_eq_zero hlen
    rfl
  | cons x xs ih =>
    cases rs with
    | nil => cases hlen
    | cons r rs =>
      rw [frames, hxs x List.mem_cons_self, ih (fun y hy ↦ hxs y (List.mem_cons_of_mem _ hy))
        (Nat.succ.inj hlen)]
      rfl

theorem Response.not_incoming (r : Response) : isIncoming r.frame = false := by
  have h := r.unpushed
  rw [isPush, Bool.or_eq_false_iff] at h
  exact h.1

/-- The calls are paired with their responses exactly when nothing is pushed
before the last response and every response's payload can be allocated. -/
theorem paired_iff (xs : List Exchange) (after : List Push) :
    Paired xs after ↔ ∀ x ∈ xs, x.pushes = [] ∧ x.room = true := by
  refine ⟨fun h ↦ ?_, fun hxs rs hlen ↦ ?_⟩
  · have hgranted := (h (xs.map (fun x ↦ x.call.granted)) (List.length_map _)).1
    exact aligned_of_granted after (listening_hears _) hgranted
  · obtain ⟨hresults, hend⟩ := converse_aligned hxs hlen after (listening_hears _)
    refine ⟨hresults, ?_⟩
    have hdecode : (Framing.decode codec (stream (after.map Push.frame))).1 =
        after.map Push.frame := by
      have hfits : ∀ f ∈ after.map Push.frame, f.2.length < codec.limit := by
        intro f hf
        obtain ⟨p, _, rfl⟩ := List.mem_map.mp hf
        exact p.fits
      have hstream := Framing.decode_stream codec (after.map Push.frame) hfits []
      rw [List.append_nil, Framing.decode_nil, List.append_nil] at hstream
      exact congrArg Prod.fst hstream
    have hquiet : (rs.map Response.frame).filter isIncoming = [] := by
      rw [List.filter_eq_nil_iff]
      intro f hf
      obtain ⟨r, _, rfl⟩ := List.mem_map.mp hf
      rw [r.not_incoming]
      exact Bool.false_ne_true
    rw [conversation, hend.incoming, hdecode, frames_aligned (fun x hx ↦ (hxs x hx).1) hlen,
      List.filter_append, hquiet, List.nil_append]

def interrupted : List Exchange :=
  [⟨.sendMessage (text "bob") [1, 2], by decide, [⟨(0x85, [9]), by decide, by decide⟩], true⟩,
    ⟨.getPublicKey (text "bob"), by decide, [], true⟩]

theorem interrupted_unpaired : ¬ Paired interrupted [] := by
  intro h
  have hresults := (h (interrupted.map (fun x ↦ x.call.granted)) (List.length_map _)).1
  have hfailed : (conversation interrupted (interrupted.map (fun x ↦ x.call.granted)) []).1 =
      [(.network, none), (.network, none)] := by
    decide +kernel
  rw [hfailed] at hresults
  exact absurd (congrArg List.head? hresults) (by decide)

end CChat.Client.Pairing
