import CChat.Server.Delivery

namespace CChat.Server.Answers

open CChat.Library CChat.Library.Circular CChat.Protocol.Types CChat.Protocol.Wire State Network
  Users Queue Handlers Loop Effects Pushes HandlerEffects Views Steps Invariants History Delivery

variable {verify : Signature → Challenge → Key → Bool} {g : Guards} {i : ℕ} {fd : Fd}
  {u v w w' : World}

/-- A frame that answers a request, as opposed to one that is pushed. -/
def Event.isAnswer : Event → Bool
  | .frame _ type _ _ => decide (type ≠ .incomingMessage ∧ type ≠ .statusUpdate)
  | _ => false

structure Pushed (w w' : World) : Prop where
  events : ∃ es, w'.out = w.out ++ es ∧ ∀ e ∈ es, Event.isAnswer e = false
  faultless : w.env.Faultless → w'.env.Faultless

theorem Pushed.refl (w : World) : Pushed w w :=
  ⟨⟨[], (List.append_nil _).symm, fun _ he ↦ absurd he List.not_mem_nil⟩, id⟩

theorem Pushed.trans (h : Pushed u v) (h' : Pushed v w) : Pushed u w := by
  obtain ⟨es, ho, hes⟩ := h.events
  obtain ⟨es', ho', hes'⟩ := h'.events
  refine ⟨⟨es ++ es', by rw [ho', ho, List.append_assoc], fun e he ↦ ?_⟩,
    fun hf ↦ h'.faultless (h.faultless hf)⟩
  exact (List.mem_append.mp he).elim (hes e) (hes' e)

theorem Pushed.quiet (ho : w'.out = w.out) (hf : w.env.Faultless → w'.env.Faultless) :
    Pushed w w' :=
  ⟨⟨[], by rw [ho, List.append_nil], fun _ he ↦ absurd he List.not_mem_nil⟩, hf⟩

theorem Pushed.event {e : Event} (ho : w'.out = w.out ++ [e]) (he : Event.isAnswer e = false)
    (hf : w.env.Faultless → w'.env.Faultless) : Pushed w w' :=
  ⟨⟨[e], ho, fun _ he' ↦ List.mem_singleton.mp he' ▸ he⟩, hf⟩

theorem malloc_pushed (w : World) : Pushed w (malloc w).2 :=
  .quiet (malloc_out w) (fun hf ↦ (malloc_faultless hf).2)

theorem time_pushed (w : World) : Pushed w (time w).2 := .quiet (time_out w) time_faultless

theorem modifyClient_pushed (w : World) (i : ℕ) (f : ClientConnection → ClientConnection) :
    Pushed w (w.modifyClient i f) := .quiet rfl id

theorem push_pushed (w : World) (fd : Option Fd) {type : MessageType} (payload : Bytes)
    (entry : Option StoredMessage) (htype : type = .incomingMessage ∨ type = .statusUpdate) :
    Pushed w (sendNetworkMessage w fd type payload entry).2 := by
  have hf : w.env.Faultless → _ := fun h ↦ (sendNetworkMessage_faultless h fd type payload entry).1
  cases sendNetworkMessage_written w fd type payload entry with
  | whole n _ _ _ _ ho =>
    refine .event ho ?_ hf
    obtain rfl | rfl := htype
    · rfl
    · rfl
  | torn n bytes _ _ _ _ ho => exact .event ho rfl hf
  | dead _ _ h => exact .quiet h.out hf

theorem pushed_neutral : Neutral Pushed :=
  ⟨.refl, .trans, malloc_pushed, time_pushed, fun _ ↦ .quiet rfl id,
    fun w fd _ payload entry htype ↦ push_pushed w fd payload entry htype,
    fun w j _ ↦ modifyClient_pushed w j _, fun _ _ ↦ .event rfl rfl id⟩

theorem broadcastLoop_server (username : Username) (payload : Bytes) (is : List ℕ) (w : World) :
    (broadcastLoop username payload is w).server = w.server := by
  induction is generalizing w with
  | nil => rfl
  | cons j is ih =>
    rw [broadcastLoop]
    split
    · rw [ih, sendNetworkMessage_server]
    · exact ih w

theorem broadcast_server (w : World) (username : Username) (status : UserStatus) :
    (broadcastStatusUpdate w username status).server = w.server := by
  unfold broadcastStatusUpdate
  dsimp only
  split
  · exact malloc_server w
  · rw [broadcastLoop_server, malloc_server]

theorem authenticateUser_pushed (w : World) (i : ℕ) (username : Username) (signature : Signature) :
    Pushed w (authenticateUser verify w i username signature).2 := by
  unfold authenticateUser
  split
  · exact .refl w
  · dsimp only
    split
    · exact .refl w
    · refine Pushed.trans ?_ (pushed_neutral.broadcast _ _ _)
      split
      · exact .quiet rfl id
      · exact .event rfl rfl id

/-- An `ERROR` that is not the one of the rate limit, or a failure response. -/
def isRefusal : MessageType → Bytes → Bool
  | .error, payload => payload.headD 0 != ErrorCode.rateLimit.code
  | .registerResponse, payload => payload.headD 1 == 0
  | .loginResponse, payload => payload.headD 1 == 0
  | .publicKeyResponse, payload => payload.headD 1 == 0
  | _, _ => false

/-- The response a request is owed, which an `ERROR` may stand in for, given
whether its connection has logged in. -/
def owed (loggedIn : Bool) (type : UInt8) (payload : Bytes) : Option MessageType :=
  if type = MessageType.registerUser.code then some .registerResponse
  else if type = MessageType.loginUser.code then some .loginResponse
  else if type = MessageType.getPublicKey.code then some .publicKeyResponse
  else if type = MessageType.sendMessage.code then some .messageAck
  else if type = MessageType.getMessages.code then if loggedIn then none else some .error
  else if type = MessageType.setStatus.code then
    if loggedIn ∧ payload ≠ [] ∧ (payload.headD 0).toNat ≤ 2 then none else some .error
  else if type = MessageType.listUsers.code then some .userListResponse
  else if type = MessageType.logout.code then none
  else some .error

/-- How a request is dealt with: not answered at all, or with one frame behind
all pushed ones; a refusal comes before anything else has happened. -/
inductive Handled (w : World) (i : ℕ) (debt : Option MessageType) (w' : World) : Prop
  | unanswered (h : Pushed w w')
      (hdebt : w.env.Faultless → (w.server.clients i).socketFd.isSome → debt = none)
  | answered (v : World) (fd : Fd) (t type : MessageType) (payload : Bytes) (h : Pushed w v)
      (hfd : (w.server.clients i).socketFd = some fd)
      (ho : w'.out = v.out ++ [.frame fd type payload none]) (hdebt : debt = some t)
      (htype : type = t ∨ type = .error)
      (hpush : type ≠ .incomingMessage ∧ type ≠ .statusUpdate)
      (hrefusal : isRefusal type payload = true → v.out = w.out ∧ w'.server = w.server)

theorem reply_handled {t type : MessageType} {payload : Bytes} (h : Pushed w v)
    (hsocket : (v.server.clients i).socketFd = (w.server.clients i).socketFd)
    (htype : type = t ∨ type = .error) (hpush : type ≠ .incomingMessage ∧ type ≠ .statusUpdate)
    (hrefusal : isRefusal type payload = true → v.out = w.out ∧ v.server = w.server) :
    Handled w i (some t) (reply v i type payload).2 := by
  have hf : v.env.Faultless → _ := fun hv ↦
    sendNetworkMessage_faultless hv (v.server.clients i).socketFd type payload none
  unfold reply
  cases sendNetworkMessage_written v (v.server.clients i).socketFd type payload none with
  | whole n hfd hr hs _ ho =>
    refine .answered v n t type payload h (hsocket.symm.trans hfd) ho rfl htype hpush (fun hrefused ↦ ?_)
    exact ⟨(hrefusal hrefused).1, hs.trans (hrefusal hrefused).2⟩
  | torn n bytes hfd hr _ _ ho =>
    refine .unanswered (h.trans (.event ho rfl (fun hv ↦ (hf hv).1))) (fun hw hsome ↦ ?_)
    have hzero := (hf (h.faultless hw)).2 (hsocket ▸ hsome)
    omega
  | dead hfd hr hsilent =>
    refine .unanswered (h.trans (.quiet hsilent.out (fun hv ↦ (hf hv).1))) (fun hw hsome ↦ ?_)
    rw [← hsocket, hfd] at hsome
    cases hsome

theorem sendError_handled {t : MessageType} (h : Pushed w v) (hout : v.out = w.out)
    (hserver : v.server = w.server) (code : ErrorCode) (message : String) :
    Handled w i (some t) (sendError v (v.server.clients i).socketFd code message).2 := by
  have hroom := malloc_pushed v
  have hsame := malloc_server v
  unfold sendError
  dsimp only
  split
  next hfull =>
    refine .unanswered (h.trans hroom) (fun hw ↦ ?_)
    have hok := (malloc_faultless (h.faultless hw)).1
    rw [hok] at hfull
    cases hfull
  next =>
    have hreply := @reply_handled i (malloc v).2 w t .error (errorPayload code (text message))
      (h.trans hroom) (by rw [hsame, hserver]) (.inr rfl) ⟨by decide, by decide⟩
      (fun _ ↦ ⟨(malloc_out v).trans hout, hsame.trans hserver⟩)
    rw [reply, hsame] at hreply
    exact hreply

theorem refuse_handled {t : MessageType} (h : Pushed w v) (hout : v.out = w.out)
    (hserver : v.server = w.server) (e : Refusal) : Handled w i (some t) (refuse v i e).2 :=
  sendError_handled h hout hserver e.code e.message

theorem addUser_pushed (w : World) (username : Username) (key : Key) :
    Pushed w (addUser w username key).2 := by
  unfold addUser
  split_ifs
  · exact .refl w
  · exact .refl w
  · exact .refl w
  · exact .quiet rfl id

theorem addUser_clients (w : World) (username : Username) (key : Key) :
    (addUser w username key).2.server.clients = w.server.clients := by
  unfold addUser
  split_ifs <;> rfl

theorem handleRegisterUser_handled (w : World) (payload : Bytes) :
    Handled w i (some .registerResponse) (handleRegisterUser w i payload).2 := by
  unfold handleRegisterUser
  split
  · exact refuse_handled (.refl w) rfl rfl _
  next username key _ =>
    have hadded := addUser_pushed w username key
    have hsocket : ((addUser w username key).2.server.clients i).socketFd =
        (w.server.clients i).socketFd := by rw [addUser_clients]
    have hfails : (addUser w username key).1 ≠ 0 → (addUser w username key).2.out = w.out ∧
        (addUser w username key).2.server = w.server := by
      intro hne
      rw [addUser_fails hne]
      exact ⟨rfl, rfl⟩
    have hpush : MessageType.registerResponse ≠ .incomingMessage ∧
        MessageType.registerResponse ≠ .statusUpdate := ⟨by decide, by decide⟩
    dsimp only
    split
    · exact reply_handled hadded hsocket (.inl rfl) hpush (fun h ↦ by cases h)
    next hne =>
      split
      · exact reply_handled hadded hsocket (.inl rfl) hpush (fun _ ↦ hfails hne)
      · exact reply_handled hadded hsocket (.inl rfl) hpush (fun _ ↦ hfails hne)

theorem authenticateUser_identity (w : World) (i : ℕ) (username : Username)
    (signature : Signature) :
    ((authenticateUser verify w i username signature).2.server.clients i).socketFd =
      (w.server.clients i).socketFd := by
  unfold authenticateUser
  split
  · rfl
  · dsimp only
    split
    · rfl
    · rw [broadcast_server, modifyUser_clients]
      split
      · rw [modifyClient_self]
      · rw [emit_server, modifyClient_self]

theorem handleLoginUser_handled (w : World) (payload : Bytes) :
    Handled w i (some .loginResponse) (handleLoginUser verify w i payload).2 := by
  have hpush : MessageType.loginResponse ≠ .incomingMessage ∧
      MessageType.loginResponse ≠ .statusUpdate := ⟨by decide, by decide⟩
  unfold handleLoginUser
  split
  · exact refuse_handled (.refl w) rfl rfl _
  next username signature _ =>
    dsimp only
    split
    · refine reply_handled ((authenticateUser_pushed w i username signature).trans
        (pushed_neutral.deliverQueuedMessages _ i)) ?_ (.inl rfl) hpush (fun h ↦ by cases h)
      rw [(identity_neutral.deliverQueuedMessages _ i i).socketFd, authenticateUser_identity]
    next hne =>
      rw [authenticateUser_rejects hne]
      exact reply_handled (.refl w) rfl (.inl rfl) hpush (fun _ ↦ ⟨rfl, rfl⟩)

theorem handleGetPublicKey_handled (w : World) (payload : Bytes) :
    Handled w i (some .publicKeyResponse) (handleGetPublicKey w i payload).2 := by
  have hpush : MessageType.publicKeyResponse ≠ .incomingMessage ∧
      MessageType.publicKeyResponse ≠ .statusUpdate := ⟨by decide, by decide⟩
  unfold handleGetPublicKey
  split
  · exact refuse_handled (.refl w) rfl rfl _
  · split
    · exact reply_handled (.refl w) rfl (.inl rfl) hpush (fun _ ↦ ⟨rfl, rfl⟩)
    · exact reply_handled (.refl w) rfl (.inl rfl) hpush (fun _ ↦ ⟨rfl, rfl⟩)

theorem handleSendMessage_handled (w : World) (payload : Bytes) :
    Handled w i (some .messageAck) (handleSendMessage w i payload).2 := by
  unfold handleSendMessage
  split
  · exact refuse_handled (.refl w) rfl rfl _
  next recipient data _ =>
    split
    · exact refuse_handled (.refl w) rfl rfl _
    · have hdrawn : Pushed w (drawMessageId w).2 := .quiet rfl id
      have hrelayed := hdrawn.trans
        (pushed_neutral.relay (drawMessageId w).2 i (drawMessageId w).1 recipient data)
      have hanswer : Handled w i (some .messageAck) (reply (relay (drawMessageId w).2 i
          (drawMessageId w).1 recipient data).2 i .messageAck (ackPayload (drawMessageId w).1
            (relay (drawMessageId w).2 i (drawMessageId w).1 recipient data).1)).2 := by
        refine reply_handled hrelayed ?_ (.inl rfl) ⟨by decide, by decide⟩ (fun h ↦ by cases h)
        rw [(identity_neutral.relay _ i _ _ _ i).socketFd]
        rfl
      dsimp only
      split <;> exact hanswer

theorem handleListUsers_handled (w : World) :
    Handled w i (some .userListResponse) (handleListUsers w i).2 := by
  have hroom := malloc_pushed w
  unfold handleListUsers
  dsimp only
  split
  · exact refuse_handled hroom (malloc_out w) (malloc_server w) _
  · exact reply_handled hroom (by rw [malloc_server]) (.inl rfl) ⟨by decide, by decide⟩
      (fun h ↦ by cases h)

theorem ofByte_some (b : UInt8) : (UserStatus.ofByte b).isSome ↔ b.toNat ≤ 2 := by
  have hzero : b = 0 ↔ b.toNat = 0 := UInt8.toNat_inj.symm
  have hone : b = 1 ↔ b.toNat = 1 := UInt8.toNat_inj.symm
  have htwo : b = 2 ↔ b.toNat = 2 := UInt8.toNat_inj.symm
  unfold UserStatus.ofByte
  simp only [hzero, hone, htwo]
  split_ifs with h₀ h₁ h₂
  · exact ⟨fun _ ↦ h₀.trans_le (by decide), fun _ ↦ rfl⟩
  · exact ⟨fun _ ↦ h₁.trans_le (by decide), fun _ ↦ rfl⟩
  · exact ⟨fun _ ↦ h₂.trans_le (by decide), fun _ ↦ rfl⟩
  · refine ⟨fun h ↦ absurd h Bool.false_ne_true, fun h ↦ ?_⟩
    omega

theorem parseSetStatus_ok (payload : Bytes) :
    (∃ status, parseSetStatus payload = .ok status) ↔
      payload ≠ [] ∧ (payload.headD 0).toNat ≤ 2 := by
  have hstatus := ofByte_some (payload.headD 0)
  unfold parseSetStatus
  split
  next hshort =>
    have hnil : payload = [] := List.eq_nil_of_length_eq_zero (by omega)
    refine ⟨?_, fun h ↦ absurd hnil h.1⟩
    rintro ⟨status, h⟩
    cases h
  next hlong =>
    have hne : payload ≠ [] := by
      rintro rfl
      exact hlong (by decide)
    cases hb : UserStatus.ofByte (payload.headD 0) with
    | none =>
      rw [hb] at hstatus
      refine ⟨?_, fun h ↦ absurd (hstatus.mpr h.2) Bool.false_ne_true⟩
      rintro ⟨status, h⟩
      cases h
    | some status =>
      rw [hb] at hstatus
      exact ⟨fun _ ↦ ⟨hne, hstatus.mp rfl⟩, fun _ ↦ ⟨status, rfl⟩⟩

theorem handleSetStatus_handled (w : World) (payload : Bytes) :
    Handled w i (if payload ≠ [] ∧ (payload.headD 0).toNat ≤ 2 then none else some .error)
      (handleSetStatus w i payload).2 := by
  have hvalid := parseSetStatus_ok payload
  unfold handleSetStatus
  cases hparse : parseSetStatus payload with
  | error e =>
    rw [hparse] at hvalid
    have hinvalid : ¬ (payload ≠ [] ∧ (payload.headD 0).toNat ≤ 2) := by
      intro h
      obtain ⟨status, hok⟩ := hvalid.mpr h
      cases hok
    rw [if_neg hinvalid]
    exact refuse_handled (.refl w) rfl rfl e
  | ok status =>
    rw [if_pos (hvalid.mp ⟨status, hparse⟩)]
    dsimp only
    split
    · exact .unanswered (.refl w) (fun _ _ ↦ rfl)
    next k _ =>
      have hset : Pushed w ((w.modifyUser k (fun u ↦ { u with status := status })).modifyClient i
          (fun c ↦ { c with status := status })) := .quiet rfl id
      exact .unanswered (hset.trans (pushed_neutral.broadcast _ _ _)) (fun _ _ ↦ rfl)

theorem authenticatedOnly_handled {debt : Option MessageType} {handle : World → ℤ × World}
    (hin : (w.server.clients i).authenticated = true → Handled w i debt (handle w).2)
    (hout : (w.server.clients i).authenticated = false → ∃ t, debt = some t) :
    Handled w i debt (authenticatedOnly w i handle) := by
  unfold authenticatedOnly
  cases hauth : (w.server.clients i).authenticated with
  | false =>
    obtain ⟨t, rfl⟩ := hout hauth
    exact sendError_handled (.refl w) rfl rfl _ _
  | true => exact hin hauth

theorem dispatch_handled (w : World) (type : UInt8) (payload : Bytes) :
    Handled w i (owed (w.server.clients i).authenticated type payload)
      (dispatch verify w i type payload) := by
  unfold dispatch owed
  split
  · exact handleRegisterUser_handled w payload
  split
  · exact handleLoginUser_handled w payload
  split
  · exact authenticatedOnly_handled (fun _ ↦ handleGetPublicKey_handled w payload)
      (fun _ ↦ ⟨_, rfl⟩)
  split
  · exact authenticatedOnly_handled (fun _ ↦ handleSendMessage_handled w payload)
      (fun _ ↦ ⟨_, rfl⟩)
  split
  · refine authenticatedOnly_handled (fun hauth ↦ ?_) (fun hauth ↦ ?_)
    · rw [hauth]
      exact .unanswered (pushed_neutral.deliverQueuedMessages w i) (fun _ _ ↦ rfl)
    · rw [hauth]
      exact ⟨_, rfl⟩
  split
  · refine authenticatedOnly_handled (fun hauth ↦ ?_) (fun hauth ↦ ?_)
    · simp only [hauth, true_and]
      exact handleSetStatus_handled w payload
    · simp only [hauth, Bool.false_eq_true, false_and, if_false]
      exact ⟨_, rfl⟩
  split
  · exact authenticatedOnly_handled (fun _ ↦ handleListUsers_handled w) (fun _ ↦ ⟨_, rfl⟩)
  split
  · exact .unanswered (.quiet rfl id) (fun _ _ ↦ rfl)
  · exact sendError_handled (.refl w) rfl rfl _ _

def Event.refuses : Event → Bool
  | .frame _ type payload _ => isRefusal type payload
  | _ => false

def Unrefused (w w' : World) : Prop :=
  ∃ es, w'.out = w.out ++ es ∧ ∀ e ∈ es, Event.refuses e = false

theorem Unrefused.trans (h : Unrefused u v) (h' : Unrefused v w) : Unrefused u w := by
  obtain ⟨es, ho, hes⟩ := h
  obtain ⟨es', ho', hes'⟩ := h'
  refine ⟨es ++ es', by rw [ho', ho, List.append_assoc], fun e he ↦ ?_⟩
  exact (List.mem_append.mp he).elim (hes e) (hes' e)

theorem Unrefused.event {e : Event} (ho : w'.out = w.out ++ [e]) (he : Event.refuses e = false) :
    Unrefused w w' := ⟨[e], ho, fun _ he' ↦ List.mem_singleton.mp he' ▸ he⟩

theorem Event.refuses_of_not_answer {e : Event} (h : Event.isAnswer e = false) :
    Event.refuses e = false := by
  cases e with
  | frame fd type payload entry =>
    cases type with
    | incomingMessage => rfl
    | statusUpdate => rfl
    | _ => cases h
  | _ => rfl

theorem Pushed.unrefused (h : Pushed w w') : Unrefused w w' := by
  obtain ⟨es, ho, hes⟩ := h.events
  exact ⟨es, ho, fun e he ↦ Event.refuses_of_not_answer (hes e he)⟩

theorem checkRateLimit_out (w : World) (i : ℕ) : (checkRateLimit w i).2.out = w.out := by
  obtain ⟨_, _, ho, _⟩ := checkRateLimit_server w i
  exact ho

/-- The error of the rate limit is not counted as a refusal. -/
theorem takeRequest_unrefused (w : World) (i : ℕ) (stream : Bytes) :
    Unrefused w (takeRequest w i stream).2 := by
  have hr : Unrefused w (receiveNetworkMessage w stream).2 :=
    ⟨[], by rw [(receiveNetworkMessage_silent w stream).out, List.append_nil], by simp⟩
  have hlimit : Unrefused w (checkRateLimit (receiveNetworkMessage w stream).2 i).2 :=
    hr.trans ⟨[], by rw [checkRateLimit_out, List.append_nil], by simp⟩
  unfold takeRequest
  dsimp only
  split
  · exact hr
  · exact hr
  · split
    · refine hlimit.trans ?_
      generalize (checkRateLimit (receiveNetworkMessage w stream).2 i).2 = v
      unfold sendError
      dsimp only
      split
      · exact (malloc_pushed v).unrefused
      · refine (malloc_pushed v).unrefused.trans ?_
        cases sendNetworkMessage_written (malloc v).2 (v.server.clients i).socketFd .error
          (errorPayload .rateLimit (text "Rate limit exceeded")) none with
        | whole _ _ _ _ _ ho => exact .event ho rfl
        | torn _ _ _ _ _ _ ho => exact .event ho rfl
        | dead _ _ h => exact ⟨[], by rw [h.out, List.append_nil], by simp⟩
    · have hcounted : Unrefused w (updateRateLimit
          (checkRateLimit (receiveNetworkMessage w stream).2 i).2 i) := hlimit
      split
      · exact hcounted
      · exact hcounted.trans (.event rfl rfl)

theorem goOffline_pushed (w : World) (i : ℕ) : Pushed w (goOffline w i) := by
  unfold goOffline
  dsimp only
  split
  · split
    · exact .refl w
    next k _ =>
      have hset : Pushed w (w.modifyUser k (fun u ↦ { u with status := .offline })) := .quiet rfl id
      exact hset.trans (pushed_neutral.broadcast _ _ _)
  · exact .refl w

theorem terminate_pushed (w : World) (i : ℕ) : Pushed w (terminate w i) := by
  have hclosed : Pushed (goOffline w i) (closeSocket (goOffline w i) i) := by
    unfold closeSocket
    split
    · exact .refl _
    · exact .event rfl rfl id
  exact (goOffline_pushed w i).trans (hclosed.trans (modifyClient_pushed _ i _))

structure Unmarked (w w' : World) (fd : Fd) : Prop where
  users : w'.server.users = w.server.users
  userCount : w'.server.userCount = w.server.userCount
  nextMessageId : w'.server.nextMessageId = w.server.nextMessageId
  authenticated : ∀ j, (w'.server.clients j).authenticated = (w.server.clients j).authenticated
  username : ∀ j, (w'.server.clients j).username = (w.server.clients j).username
  status : ∀ j, (w'.server.clients j).status = (w.server.clients j).status
  challenge : ∀ j, (w'.server.clients j).challenge = (w.server.clients j).challenge
  queue : ∀ j, (w'.server.clients j).queue = (w.server.clients j).queue
  written : ∀ e ∈ w'.out.drop w.out.length, ∀ fd' ∈ Event.fd e, fd' = fd

theorem unmarked_of_server {r : RateLimit} {es : List Event}
    (hs : w'.server = (w.modifyClient i (fun c ↦ { c with rateLimit := r })).server)
    (ho : w'.out = w.out ++ es) (hes : ∀ e ∈ es, ∀ fd' ∈ Event.fd e, fd' = fd) :
    Unmarked w w' fd := by
  have hclients : ∀ j, w'.server.clients j = w.server.clients j ∨
      w'.server.clients j = { w.server.clients j with rateLimit := r } := by
    intro j
    rw [hs]
    by_cases hj : j = i
    · subst hj
      exact .inr (modifyClient_self _ _ _)
    · exact .inl (modifyClient_other _ _ hj)
  refine ⟨by rw [hs]; rfl, by rw [hs]; rfl, by rw [hs]; rfl, fun j ↦ ?_, fun j ↦ ?_, fun j ↦ ?_,
    fun j ↦ ?_, fun j ↦ ?_, ?_⟩
  · obtain h | h := hclients j <;> rw [h]
  · obtain h | h := hclients j <;> rw [h]
  · obtain h | h := hclients j <;> rw [h]
  · obtain h | h := hclients j <;> rw [h]
  · obtain h | h := hclients j <;> rw [h]
  · rw [ho, List.drop_left]
    exact hes

/-- An admitted request is noted, and nothing else but the rate limit changes. -/
theorem takeRequest_some {stream : Bytes} {type : UInt8} {payload : Bytes}
    (hfd : (w.server.clients i).socketFd = some fd)
    (hreq : (takeRequest w i stream).1 = some (type, payload)) :
    (takeRequest w i stream).2.out = w.out ++ [.request fd type payload] ∧
      ∃ r, (takeRequest w i stream).2.server =
        (w.modifyClient i (fun c ↦ { c with rateLimit := r })).server := by
  have hr := receiveNetworkMessage_silent w stream
  obtain ⟨r, hlimit, hout, _⟩ := checkRateLimit_server (receiveNetworkMessage w stream).2 i
  obtain ⟨r', hcounted, hout', _⟩ :=
    updateRateLimit_server (checkRateLimit (receiveNetworkMessage w stream).2 i).2 i
  have hserver : (updateRateLimit (checkRateLimit (receiveNetworkMessage w stream).2 i).2 i).server =
      (w.modifyClient i (fun c ↦ { c with rateLimit := r' })).server := by
    rw [hcounted]
    simp only [World.modifyClient, hlimit, hr.server, Function.update_self, Function.update_idem]
  have hsocket : ((updateRateLimit (checkRateLimit (receiveNetworkMessage w stream).2
      i).2 i).server.clients i).socketFd = some fd := by
    rw [hserver, modifyClient_self]
    exact hfd
  unfold takeRequest at hreq ⊢
  dsimp only at hreq ⊢
  split at hreq
  · cases hreq
  · cases hreq
  next =>
    split at hreq
    · cases hreq
    next hallowed =>
      rw [hsocket] at hreq
      cases hreq
      rw [if_neg hallowed, hsocket]
      exact ⟨by rw [emit_out, hout', hout, hr.out], r', hserver⟩

/-- A request that is refused leaves no trace: the users, the connections and the
message ids are as before it, and no other connection hears of it. -/
theorem refused_unmarked (xs : List Input) {stream : Bytes} {env : Env}
    (hconn : ((reach verify xs).server.clients i).connected = true)
    (hfd : ((reach verify xs).server.clients i).socketFd = some fd)
    (hrefused : ∃ e ∈ (step verify (reach verify xs) (.receive i stream env)).out.drop
      (reach verify xs).out.length, Event.refuses e = true) :
    Unmarked (reach verify xs) (step verify (reach verify xs) (.receive i stream env)) fd := by
  have hsteady := @reach_steady verify xs
  generalize reach verify xs = w at hsteady hconn hfd hrefused ⊢
  have hnone : ¬ Unrefused w (step verify w (.receive i stream env)) := by
    rintro ⟨es, ho, hes⟩
    obtain ⟨e, he, hrefuses⟩ := hrefused
    rw [ho, List.drop_left] at he
    rw [hes e he] at hrefuses
    cases hrefuses
  rw [step_receive stream env hconn] at hnone ⊢
  have htaken : Unrefused w (takeRequest { w with env := env } i stream).2 :=
    takeRequest_unrefused { w with env := env } i stream
  unfold clientHandler at hnone ⊢
  dsimp only at hnone ⊢
  cases hreq : (takeRequest { w with env := env } i stream).1 with
  | none =>
    rw [hreq] at hnone
    exact absurd (htaken.trans (terminate_pushed _ i).unrefused) hnone
  | some request =>
    obtain ⟨type, payload⟩ := request
    obtain ⟨hnoted, r, hserver⟩ := @takeRequest_some i fd { w with env := env } stream type payload
      hfd hreq
    have hhandled := @dispatch_handled verify i (takeRequest { w with env := env } i stream).2 type
      payload
    rw [hreq] at hnone
    dsimp only at hnone ⊢
    generalize (takeRequest { w with env := env } i stream).2 = v
      at htaken hnoted hserver hhandled hnone ⊢
    have hquiet : ¬ Unrefused v (dispatch verify v i type payload) := by
      intro h
      refine hnone ?_
      split
      · exact htaken.trans h
      · exact (htaken.trans h).trans (terminate_pushed _ i).unrefused
    cases hhandled with
    | unanswered h => exact absurd h.unrefused hquiet
    | answered v' n t kind answer h hsocket ho _ _ _ hrefusal =>
      have hkind : isRefusal kind answer = true := by
        by_contra hkind
        refine hquiet (h.unrefused.trans (.event ho ?_))
        exact Bool.eq_false_iff.mpr hkind
      obtain ⟨hbefore, hafter⟩ := hrefusal hkind
      have hstays : ((dispatch verify v i type payload).server.clients i).connected = true ∧
          (dispatch verify v i type payload).server.running = true := by
        rw [hafter, hserver, modifyClient_self]
        exact ⟨hconn, hsteady.sound.sockets.running⟩
      rw [if_pos (by rw [hstays.1, hstays.2]; rfl)]
      have hown : (v.server.clients i).socketFd = some fd := by
        rw [hserver, modifyClient_self]
        exact hfd
      refine unmarked_of_server (hafter.trans hserver)
        (by rw [ho, hbefore, hnoted, List.append_assoc]) (fun e he fd' hfd' ↦ ?_)
      rw [hown] at hsocket
      obtain rfl | he := List.mem_cons.mp he
      · exact (Option.some.inj hfd').symm
      · rw [List.mem_singleton.mp he] at hfd'
        exact (Option.some.inj hfd').symm.trans (Option.some.inj hsocket).symm

def strangerLogin : Bytes := loginPacket (text "eve") (List.replicate signatureSize 0)

theorem refused_unmarked_login :
    Unmarked (reach (fun _ _ _ ↦ true) [.accept (Block.zero _) true])
      (step (fun _ _ _ ↦ true) (reach (fun _ _ _ ↦ true) [.accept (Block.zero _) true])
        (.receive 0 strangerLogin Env.quiet)) 0 :=
  refused_unmarked [.accept (Block.zero _) true] (by decide +kernel) (by decide +kernel)
    ⟨.frame 0 .loginResponse [0] none, by decide +kernel, rfl⟩

end CChat.Server.Answers
