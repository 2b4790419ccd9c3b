import CChat.Server.History

namespace CChat.Server.Refusals

open CChat.Library CChat.Protocol.Types CChat.Protocol.Wire State Network Users Handlers Loop Effects
  HandlerEffects Views Steps Invariants History

variable {verify : Signature → Challenge → Key → Bool} {g : Guards} {i : ℕ} {fd : Fd} {w w' : World}

theorem Event.sent_other {e : Event} (h : Event.fd e ≠ some fd) : Event.sent fd e = [] := by
  cases e with
  | frame fd' => exact if_neg (fun hfd ↦ h (congrArg some hfd))
  | torn fd' => exact if_neg (fun hfd ↦ h (congrArg some hfd))
  | _ => rfl

theorem wire_other {es : List Event} (h : ∀ e ∈ es, Event.fd e ≠ some fd) : wire fd es = [] := by
  rw [wire, List.flatMap_eq_nil_iff]
  exact fun e he ↦ Event.sent_other (h e he)

/-- An `ERROR` frame from its start up to some point. -/
def Refused (bytes : Bytes) : Prop :=
  ∃ n payload, bytes = (packet MessageType.error.code payload).take n

theorem refused_nil : Refused [] := ⟨0, [], rfl⟩

theorem sendError_wire (w : World) (fd : Fd) (code : ErrorCode) (message : String) :
    ∃ bytes, Refused bytes ∧
      wire fd (sendError w (some fd) code message).2.out = wire fd w.out ++ bytes := by
  unfold sendError
  dsimp only
  split
  · exact ⟨[], refused_nil, by rw [malloc_out, List.append_nil]⟩
  · obtain ⟨n, hn⟩ := sendNetworkMessage_wire (malloc w).2 fd .error
      (errorPayload code (text message)) none
    exact ⟨_, ⟨n, _, rfl⟩, by rw [hn, malloc_out]⟩

structure Fresh (w : World) (i : ℕ) (fd : Fd) : Prop where
  connected : (w.server.clients i).connected = true
  socket : (w.server.clients i).socketFd = some fd
  anonymous : (w.server.clients i).authenticated = false
  unwritten : wire fd w.out = []

def Input.slot : Input → Option ℕ
  | .accept _ _ => none
  | .receive i _ _ => some i

theorem acceptClient_fresh (hw : Steady w) (challenge : Challenge)
    (hslot : freeSlot w.server = some i) :
    Fresh (acceptClient w challenge true) i w.nextFd := by
  have hunwritten : wire w.nextFd w.out = [] := by
    refine wire_other (fun e he hfd ↦ ?_)
    exact absurd (hw.linked.given e he w.nextFd hfd) (Nat.lt_irrefl _)
  unfold acceptClient
  rw [hslot]
  dsimp only
  rw [if_pos rfl]
  have hself : ∀ v : World, (v.modifyClient i (fun _ ↦ freshClient w.nextFd challenge)).server.clients i =
      freshClient w.nextFd challenge := fun v ↦ modifyClient_self v i _
  refine ⟨?_, ?_, ?_, hunwritten⟩
  · dsimp only
    rw [hself]
    rfl
  · dsimp only
    rw [hself]
    rfl
  · dsimp only
    rw [hself]
    rfl

theorem Effect.fresh {k : ℕ} (hk : k ≠ i) (h : Effect verify g k w w') (hw : Consistent w)
    (hf : Fresh w i fd) : Fresh w' i fd := by
  have hsame := Chain.others (Relation.ReflTransGen.single h) i hk.symm
  refine ⟨hsame.connected.trans hf.connected, hsame.socketFd.trans hf.socket,
    hsame.authenticated.trans hf.anonymous, ?_⟩
  obtain ho | ⟨e, ho, hcause⟩ := Effect.cause h
  · rw [ho, hf.unwritten]
  · rw [ho, wire_append, hf.unwritten, List.nil_append]
    refine wire_other (fun e' he' ↦ ?_)
    rw [List.mem_singleton.mp he']
    intro hfd
    obtain ⟨j, hj, hown⟩ := Cause.socket hcause hfd
    obtain rfl := hw.sockets.distinct j i fd hj hf.socket
    obtain hown | hauth := hown
    · exact hk hown.symm
    · rw [hf.anonymous] at hauth
      cases hauth

theorem step_fresh {x : Input} (hw : Steady w) (hf : Fresh w i fd) (hx : Input.slot x ≠ some i) :
    Fresh (step verify w x) i fd := by
  cases @step_turn verify w hw.sound x with
  | accept challenge created _ h =>
    cases h with
    | full hs _ ho =>
      refine ⟨hs ▸ hf.connected, hs ▸ hf.socket, hs ▸ hf.anonymous, ?_⟩
      rw [ho, wire_append, hf.unwritten]
      rfl
    | slot k es _ hfree _ hother _ _ _ _ ho hes =>
      have hki : i ≠ k := by
        rintro rfl
        rw [hf.connected] at hfree
        cases hfree
      have hself := hother i hki
      refine ⟨hself ▸ hf.connected, hself ▸ hf.socket, hself ▸ hf.anonymous, ?_⟩
      rw [ho, wire_append, hf.unwritten]
      obtain rfl | rfl := hes
      · rfl
      · rfl
  | idle _ _ _ _ _ h =>
    rw [h]
    exact hf
  | handled k _ _ _ hin _ _ hchain _ =>
    have hk : k ≠ i := by
      rintro rfl
      exact hx (by rw [hin]; rfl)
    exact (Chain.carry (P := fun v ↦ Fresh v i fd) (fun _ _ he hv hfv ↦ Effect.fresh hk he hv hfv)
      hchain hw.consistent hf).2

theorem terminate_wire (hanon : (w.server.clients i).authenticated = false) :
    wire fd (terminate w i).out = wire fd w.out := by
  have hgone : goOffline w i = w := by
    unfold goOffline
    dsimp only
    rw [hanon]
    rfl
  unfold terminate
  rw [hgone, modifyClient_out]
  unfold closeSocket
  split
  · rfl
  · rw [emit_out, wire_append]
    exact List.append_nil _

/-- Before a login every request but a registration or a login is refused. -/
theorem dispatch_refused {type : UInt8} {payload : Bytes}
    (hfd : (w.server.clients i).socketFd = some fd)
    (hanon : (w.server.clients i).authenticated = false)
    (hregister : type ≠ MessageType.registerUser.code)
    (hlogin : type ≠ MessageType.loginUser.code) :
    (((dispatch verify w i type payload).server.clients i).authenticated = false) ∧
      ∃ bytes, Refused bytes ∧
        wire fd (dispatch verify w i type payload).out = wire fd w.out ++ bytes := by
  have herror : ∀ code message, ((sendError w (some fd) code message).2.server.clients i).authenticated = false ∧
      ∃ bytes, Refused bytes ∧
        wire fd (sendError w (some fd) code message).2.out = wire fd w.out ++ bytes :=
    fun code message ↦ ⟨by rw [sendError_server, hanon], sendError_wire w fd code message⟩
  have honly : ∀ handle, authenticatedOnly w i handle =
      (sendError w (some fd) .authFailed "Not authenticated").2 := by
    intro handle
    rw [authenticatedOnly, hanon, hfd]
    rfl
  unfold dispatch
  rw [if_neg hregister, if_neg hlogin]
  simp only [honly]
  split_ifs
  · exact herror _ _
  · exact herror _ _
  · exact herror _ _
  · exact herror _ _
  · exact herror _ _
  · refine ⟨?_, [], refused_nil, ?_⟩
    · rw [handleLogout, modifyClient_self, hanon]
    · rw [handleLogout, modifyClient_out, List.append_nil]
  · rw [hfd]
    exact herror _ _

theorem receiveNetworkMessage_type {stream : Bytes} {type : UInt8} {payload : Bytes}
    (h : (receiveNetworkMessage w stream).1 = .message type payload) :
    type = (readHeader (stream.take 5)).1 := by
  unfold receiveNetworkMessage at h
  dsimp only at h
  split_ifs at h <;> cases h <;> rfl

theorem takeRequest_wire (hfd : (w.server.clients i).socketFd = some fd) (stream : Bytes) :
    ((takeRequest w i stream).1 = none ∧ ∃ bytes, Refused bytes ∧
        wire fd (takeRequest w i stream).2.out = wire fd w.out ++ bytes) ∨
      ∃ payload, (takeRequest w i stream).1 = some ((readHeader (stream.take 5)).1, payload) ∧
        wire fd (takeRequest w i stream).2.out = wire fd w.out := by
  have hr := receiveNetworkMessage_silent w stream
  unfold takeRequest
  dsimp only
  split
  · exact .inl ⟨rfl, [], refused_nil, by rw [hr.out, List.append_nil]⟩
  · exact .inl ⟨rfl, [], refused_nil, by rw [hr.out, List.append_nil]⟩
  next type payload hmessage =>
    have htype := receiveNetworkMessage_type hmessage
    generalize (receiveNetworkMessage w stream).2 = v at hr ⊢
    obtain ⟨r, hcs, hco, _⟩ := checkRateLimit_server v i
    generalize checkRateLimit v i = allowed at hcs hco ⊢
    have hout : allowed.2.out = w.out := hco.trans hr.out
    have hself : (allowed.2.server.clients i).socketFd = some fd := by
      rw [hcs, modifyClient_self, hr.server]
      exact hfd
    split
    · rw [hself]
      obtain ⟨bytes, hbytes, hwire⟩ := sendError_wire allowed.2 fd .rateLimit "Rate limit exceeded"
      exact .inl ⟨rfl, bytes, hbytes, by rw [hwire, hout]⟩
    · obtain ⟨_, hus, huo, _⟩ := updateRateLimit_server allowed.2 i
      generalize updateRateLimit allowed.2 i = counted at hus huo ⊢
      have hself' : (counted.server.clients i).socketFd = some fd := by
        rw [hus, modifyClient_self]
        exact hself
      rw [hself']
      refine .inr ⟨payload, by rw [← htype], ?_⟩
      rw [emit_out, wire_append, huo, hout]
      exact List.append_nil _

/-- Whatever a connection without a login asks for first, short of registering
or logging in, the bytes it gets back are of an `ERROR` frame. -/
theorem Fresh.refused {stream : Bytes} {env : Env} (hf : Fresh w i fd)
    (hregister : (readHeader (stream.take 5)).1 ≠ MessageType.registerUser.code)
    (hlogin : (readHeader (stream.take 5)).1 ≠ MessageType.loginUser.code) :
    Refused (wire fd (step verify w (.receive i stream env)).out) := by
  rw [step_receive stream env hf.connected]
  have hfd : (({ w with env := env } : World).server.clients i).socketFd = some fd := hf.socket
  have hnone : wire fd ({ w with env := env } : World).out = [] := hf.unwritten
  have hanon : (({ w with env := env } : World).server.clients i).authenticated = false :=
    hf.anonymous
  generalize ({ w with env := env } : World) = v at hfd hnone hanon ⊢
  obtain ⟨_, hsame, _⟩ := @takeRequest_chain verify .any i v fd stream hfd
  have hidentity := (hsame.identity i).1
  have hwire := takeRequest_wire hfd stream
  unfold clientHandler
  generalize takeRequest v i stream = admitted at hidentity hwire ⊢
  dsimp only
  have hanon' : (admitted.2.server.clients i).authenticated = false :=
    hidentity.authenticated.trans hanon
  obtain ⟨hend, bytes, hbytes, ho⟩ | ⟨payload, hreq, ho⟩ := hwire
  · rw [hend]
    dsimp only
    rw [terminate_wire hanon', ho, hnone]
    exact hbytes
  · rw [hreq]
    dsimp only
    obtain ⟨hanon'', bytes, hbytes, hsent⟩ := @dispatch_refused verify i fd admitted.2 _ payload
      (hidentity.socketFd.trans hfd) hanon' hregister hlogin
    have hall : wire fd (dispatch verify admitted.2 i (readHeader (stream.take 5)).1 payload).out =
        bytes := by
      rw [hsent, ho, hnone, List.nil_append]
    split
    · rw [hall]
      exact hbytes
    · rw [terminate_wire hanon'', hall]
      exact hbytes

end CChat.Server.Refusals
