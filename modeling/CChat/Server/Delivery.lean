import CChat.Server.History

namespace CChat.Server.Delivery

open CChat.Library CChat.Library.Circular CChat.Protocol.Types State Network Users Queue Handlers
  Loop Effects Pushes HandlerEffects Views Steps Invariants History

variable {verify : Signature → Challenge → Key → Bool} {g : Guards} {i : ℕ} {w w' : World}

def handover (fd : Fd) (m : StoredMessage) : Event :=
  .frame fd .incomingMessage (queuedPayload m) (some m)

theorem pending_length (c : ClientConnection) : (pending c).length = c.queue.count :=
  window_length c.queue

theorem deliverLoop_grows (n : ℕ) (delivered : ℤ) (w : World)
    (hi : (w.server.clients i).authenticated = true) :
    ∃ es, (deliverLoop i n delivered w).2.out = w.out ++ es :=
  Chain.grows (@deliverLoop_chain (fun _ _ _ ↦ true) .any i n delivered w hi)

theorem sent_pending {v : World} {m : StoredMessage} (hq : Queues w)
    (hcount : 0 < (w.server.clients i).queue.count)
    (hm : m = (w.server.clients i).queue.cells (w.server.clients i).queue.head)
    (hs : v.server = (w.modifyClient i (fun c ↦ { c with
      queue := advanceHead messageQueueSize (writeHead c.queue (StoredMessage.spent m)) })).server) :
    pending (w.server.clients i) = m :: pending (v.server.clients i) := by
  rw [pending, pending, modifyClient_at hs, window_cons (hq.ring i) hcount,
    writeHead_advance_window (hq.ring i) hcount, hm]

theorem deliverLoop_drains {fd : Fd} (n : ℕ) (delivered : ℤ) (w : World) (hw : Consistent w)
    (hi : (w.server.clients i).authenticated = true)
    (hfd : (w.server.clients i).socketFd = some fd) (henv : w.env.Faultless)
    (hn : (w.server.clients i).queue.count ≤ n) :
    pending ((deliverLoop i n delivered w).2.server.clients i) = [] ∧
      (deliverLoop i n delivered w).2.out =
        w.out ++ (pending (w.server.clients i)).map (handover fd) := by
  induction n generalizing delivered w with
  | zero =>
    have hnil : pending (w.server.clients i) = [] := by
      rw [← List.length_eq_zero_iff, pending_length]
      omega
    rw [deliverLoop, hnil]
    exact ⟨rfl, (List.append_nil _).symm⟩
  | succ n ih =>
    cases deliverLoop_turn (i := i) n delivered w with
    | done hcount h =>
      have hnil : pending (w.server.clients i) = [] := by
        rw [← List.length_eq_zero_iff, pending_length, hcount]
      rw [h, hnil]
      exact ⟨rfl, (List.append_nil _).symm⟩
    | skip hcount hold _ =>
      rw [(hw.queues.head_waiting hcount).delivered] at hold
      cases hold
    | stuck v _ _ hfault _ => exact absurd henv (hfault (by rw [hfd]; rfl))
    | sent v fd' m hcount hm hfresh hfd' hs hnext ho hkeep h =>
      obtain rfl := Option.some.inj (hfd.symm.trans hfd')
      have he : Effect (fun _ _ _ ↦ true) .any i w v :=
        .deliver fd m hi hcount hm hfresh hfd hs hnext ho
      have hpend := sent_pending hw.queues hcount hm hs
      have hslot := modifyClient_at hs
      have hrest := ih (delivered + 1) v (Effect.consistent he hw) (by rw [hslot]; exact hi)
        (by rw [hslot]; exact hfd) (hkeep henv) (by
          rw [← pending_length] at hn ⊢
          rw [hpend, List.length_cons] at hn
          omega)
      rw [h, hpend, List.map_cons]
      refine ⟨hrest.1, ?_⟩
      rw [hrest.2, ho, List.append_assoc]
      rfl

theorem deliverLoop_head {fd : Fd} {m : StoredMessage} {rest : List StoredMessage} (n : ℕ)
    (delivered : ℤ) (hq : Queues w) (hi : (w.server.clients i).authenticated = true)
    (hfd : (w.server.clients i).socketFd = some fd)
    (hm : pending (w.server.clients i) = m :: rest) :
    pending ((deliverLoop i n delivered w).2.server.clients i) = m :: rest ∨
      ∃ post, (deliverLoop i n delivered w).2.out = w.out ++ handover fd m :: post := by
  cases n with
  | zero => exact .inl hm
  | succ n =>
    cases deliverLoop_turn (i := i) n delivered w with
    | done _ h =>
      rw [h]
      exact .inl hm
    | skip hcount hold _ =>
      rw [(hq.head_waiting hcount).delivered] at hold
      cases hold
    | stuck v hs _ _ h =>
      rw [h, hs]
      exact .inl hm
    | sent v fd' m' hcount hm' _ hfd' hs _ ho _ h =>
      obtain rfl := Option.some.inj (hfd.symm.trans hfd')
      have hpend := sent_pending hq hcount hm' hs
      obtain ⟨rfl, _⟩ := List.cons.inj (hm.symm.trans hpend)
      obtain ⟨es, hes⟩ := deliverLoop_grows (i := i) n (delivered + 1) v
        (by rw [modifyClient_at hs]; exact hi)
      refine .inr ⟨es, ?_⟩
      rw [h, hes, ho, List.append_assoc]
      rfl

theorem deliverQueuedMessages_drains {fd : Fd} (hw : Consistent w)
    (hi : (w.server.clients i).authenticated = true)
    (hfd : (w.server.clients i).socketFd = some fd) (henv : w.env.Faultless) :
    pending ((deliverQueuedMessages w i).2.server.clients i) = [] ∧
      (deliverQueuedMessages w i).2.out =
        w.out ++ (pending (w.server.clients i)).map (handover fd) := by
  simp only [deliverQueuedMessages, hi, Bool.not_true, Bool.false_eq_true, ↓reduceIte]
  exact deliverLoop_drains _ 0 w hw hi hfd henv (Nat.le_refl _)

theorem faultless_neutral :
    Neutral (fun w w' ↦ w.env.Faultless → w'.env.Faultless) :=
  ⟨fun _ h ↦ h, fun h h' hf ↦ h' (h hf), fun _ h ↦ (malloc_faultless h).2,
    fun _ h ↦ time_faultless h, fun _ h ↦ h,
    fun _ fd type payload entry _ h ↦ (sendNetworkMessage_faultless h fd type payload entry).1,
    fun _ _ _ h ↦ h, fun _ _ h ↦ h⟩

theorem receiveNetworkMessage_faultless (stream : Bytes) (h : w.env.Faultless) :
    (receiveNetworkMessage w stream).2.env.Faultless := by
  have hm := (malloc_faultless h).2
  unfold receiveNetworkMessage
  dsimp only
  repeat' split
  all_goals first | exact h | exact hm

theorem takeRequest_faultless {stream : Bytes} {request : UInt8 × Bytes} (h : w.env.Faultless)
    (hreq : (takeRequest w i stream).1 = some request) :
    (takeRequest w i stream).2.env.Faultless := by
  have hr := receiveNetworkMessage_faultless stream h
  have hlimit : (checkRateLimit (receiveNetworkMessage w stream).2 i).2.env.Faultless := by
    have ht := time_faultless hr
    unfold checkRateLimit
    dsimp only
    split <;> exact ht
  unfold takeRequest at hreq ⊢
  dsimp only at hreq ⊢
  split
  · exact hr
  · exact hr
  · split
    next hmsg hrefused => simp [hmsg, hrefused] at hreq
    · split <;> exact hlimit

/-- The turn in which a login is accepted: behind `authenticate_user` the slot
carries the new name and the queue it had, which is then delivered. -/
theorem login_turn {fd : Fd} {stream : Bytes} {env : Env} {username : Username}
    (hfd : (w.server.clients i).socketFd = some fd)
    (hconn : (w.server.clients i).connected = true) (hrun : w.server.running = true)
    (h : AcceptsLogin verify w i stream env username) :
    ∃ v response, clientHandler verify { w with env := env } i stream =
        (reply (deliverQueuedMessages v i).2 i .loginResponse response).2 ∧
      Chain verify (turnGuards verify w i stream env) i w v ∧
      (v.server.clients i).socketFd = some fd ∧ (v.server.clients i).authenticated = true ∧
      (v.server.clients i).username = username ∧
      (v.server.clients i).queue = (w.server.clients i).queue ∧
      (env.Faultless → v.env.Faultless) := by
  have hstart : Chain verify (turnGuards verify w i stream env) i w { w with env := env } :=
    Chain.of_silent ⟨rfl, rfl, rfl⟩
  obtain ⟨payload, signature, k, hreq, hparse, hk, hv⟩ := id h
  obtain ⟨hhandler, _, _⟩ := @clientHandler_dispatch verify i w fd stream env _ payload hfd hconn
    hrun hreq (by decide)
  obtain ⟨htake, hsame, _⟩ := @takeRequest_chain verify (turnGuards verify w i stream env) i
    { w with env := env } fd stream hfd
  have henv : env.Faultless → (takeRequest { w with env := env } i stream).2.env.Faultless :=
    fun hf ↦ takeRequest_faultless (w := { w with env := env }) hf hreq
  generalize (takeRequest { w with env := env } i stream).2 = v at htake hsame henv hhandler
  have hidentity := hsame.identity i
  have husers := hsame.users
  have hfd' : (v.server.clients i).socketFd = some fd := hidentity.1.socketFd.trans hfd
  have hk' : findUser v.server username = some k := by
    rw [findUser_congr husers.1 husers.2]
    exact hk
  have hv' : verify signature (v.server.clients i).challenge (v.server.users k).publicKey =
      true := by
    rw [hidentity.1.challenge, husers.1]
    exact hv
  have hg : (turnGuards verify w i stream env).login v username :=
    ⟨h, ⟨hidentity.1, hidentity.2, husers.1, husers.2⟩⟩
  obtain ⟨hauth, hserver⟩ := authenticateUser_chain (g := turnGuards verify w i stream env)
    hfd' hk' hv' hg
  have hslot : ((authenticateUser verify v i username signature).2.server.clients i) =
      { v.server.clients i with authenticated := true, username := username } := by
    rw [hserver, loggedIn_self]
  refine ⟨(authenticateUser verify v i username signature).2, 1 ::
    ((authenticateUser verify v i username signature).2.server.clients i).challenge.toList, ?_,
    (hstart.trans htake).trans hauth, ?_, ?_, ?_, ?_, fun hf ↦ ?_⟩
  · rw [hhandler]
    have hresult : (authenticateUser verify v i username signature).1 = 0 := by
      rw [authenticateUser_accepts hfd' hk' hv']
    simp only [dispatch, handleLoginUser, hparse, hresult, ↓reduceIte]
    rfl
  · rw [hslot, hfd']
  · rw [hslot]
  · rw [hslot]
  · rw [hslot]
    exact hidentity.2
  · rw [authenticateUser_accepts hfd' hk' hv']
    exact faultless_neutral.broadcast _ _ _ (henv hf)

end CChat.Server.Delivery
