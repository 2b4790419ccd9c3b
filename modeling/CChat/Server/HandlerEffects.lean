import CChat.Server.Effects
import CChat.Server.Pushes

namespace CChat.Server.HandlerEffects

open CChat.Library CChat.Library.Circular CChat.Protocol.Types State Network Users Queue Handlers
  Loop Effects Pushes

variable {verify : Signature → Challenge → Key → Bool} {g : Guards} {i : ℕ}

theorem Chain.of_silent {w w' : World} (h : Silent w w') : Chain verify g i w w' :=
  .single (.silent h)

theorem Effect.mono {g' : Guards} (hle : g.Implies g') {w w' : World}
    (h : Effect verify g i w w') : Effect verify g' i w w' := by
  cases h with
  | silent h => exact .silent h
  | emit e he hs hn ho => exact .emit e he hs hn ho
  | tune c hc hq hown hs hn ho => exact .tune c hc hq hown hs hn ho
  | setStatus k st hi hk hs hn ho => exact .setStatus k st hi hk hs hn ho
  | register u key hg hu hr hnew hs hn ho =>
    exact .register u key (hle.register _ hg) hu hr hnew hs hn ho
  | login u s fd k hg hk hv hfd hs hn ho =>
    exact .login u s fd k (hle.login _ _ hg) hk hv hfd hs hn ho
  | nextId hi hs hn ho => exact .nextId hi hs hn ho
  | enqueue j m d hi hj ha hsnd hd hlen hp hf hr hs hn ho =>
    exact .enqueue j m d hi hj ha hsnd hd hlen hp hf hr hs hn ho
  | spoil j m hi hr hs hn ho => exact .spoil j m hi hr hs hn ho
  | deliver fd m hi hc hm hf hfd hs hn ho => exact .deliver fd m hi hc hm hf hfd hs hn ho
  | skip hi hc hold hs hn ho => exact .skip hi hc hold hs hn ho
  | logout hg hs hn ho => exact .logout (hle.logout hg) hs hn ho
  | close hg hs hn ho => exact .close (hle.close _ hg) hs hn ho

theorem Chain.mono {g' : Guards} (hle : g.Implies g') {w w' : World}
    (h : Chain verify g i w w') : Chain verify g' i w w' :=
  Relation.ReflTransGen.mono (fun _ _ ↦ Effect.mono hle) _ _ h

/-- A frame without an entry is one effect, whole, torn or lost. -/
theorem written_chain {w w' : World} {fd : Option Fd} {type : MessageType} {payload : Bytes}
    {result : ℤ} (h : Written w fd type payload none result w')
    (hframe : ∀ n, fd = some n → Emission w i (.frame n type payload none))
    (htorn : ∀ n bytes, fd = some n → Emission w i (.torn n bytes)) :
    Chain verify g i w w' := by
  cases h with
  | whole n hfd _ hs hn ho => exact .single (.emit _ (hframe n hfd) hs hn ho)
  | torn n bytes hfd _ hs hn ho => exact .single (.emit _ (htorn n bytes hfd) hs hn ho)
  | dead _ _ h => exact Chain.of_silent h

theorem reply_chain (w : World) (type : MessageType) (payload : Bytes)
    (htype : type ≠ .incomingMessage ∧ type ≠ .statusUpdate)
    (hshort : (w.server.clients i).authenticated = true ∨ payload.length < challengeSize) :
    Chain verify g i w (reply w i type payload).2 :=
  written_chain (sendNetworkMessage_written w _ type payload none)
    (fun n hfd ↦ .reply n type payload hfd htype hshort) (fun n bytes hfd ↦ .torn i n bytes hfd (.inl rfl))

def Refusal.short (e : Refusal) : Prop := (errorPayload e.code (text e.message)).length < challengeSize

theorem sendError_chain (w : World) (code : ErrorCode) (message : String)
    (hshort : (w.server.clients i).authenticated = true ∨ Refusal.short ⟨code, message⟩) :
    Chain verify g i w (sendError w (w.server.clients i).socketFd code message).2 := by
  have hm : Chain verify g i w (malloc w).2 := Chain.of_silent (malloc_silent w)
  unfold sendError
  dsimp only
  split
  · exact hm
  · refine hm.trans (written_chain (sendNetworkMessage_written _ _ _ _ _) (fun n hfd ↦ ?_)
      (fun n bytes hfd ↦ ?_))
    · exact .reply n _ _ (by rw [malloc_server]; exact hfd) ⟨by decide, by decide⟩
        (by rw [malloc_server]; exact hshort)
    · exact .torn i n bytes (by rw [malloc_server]; exact hfd) (.inl rfl)

theorem refuse_chain (w : World) (e : Refusal)
    (hshort : (w.server.clients i).authenticated = true ∨ Refusal.short e) :
    Chain verify g i w (refuse w i e).2 := sendError_chain w e.code e.message hshort

theorem readName_error {least extra : ℕ} {tooShort badLength : String} {payload : Bytes}
    {e : Refusal} (h : readName least extra tooShort badLength payload = .error e) :
    e = ⟨.invalidFormat, tooShort⟩ ∨ e = ⟨.invalidFormat, badLength⟩ := by
  unfold readName at h
  split at h
  · exact .inl (Except.error.inj h).symm
  · dsimp only at h
    split at h
    · exact .inr (Except.error.inj h).symm
    · cases h

theorem parseRegister_error {payload : Bytes} {e : Refusal} (h : parseRegister payload = .error e) :
    Refusal.short e := by
  unfold parseRegister at h
  split at h
  next e' he =>
    cases h
    obtain rfl | rfl := readName_error he <;> unfold Refusal.short <;> decide
  next =>
    split at h
    · cases h
      unfold Refusal.short
      decide
    · cases h

theorem parseLogin_error {payload : Bytes} {e : Refusal} (h : parseLogin payload = .error e) :
    Refusal.short e := by
  unfold parseLogin at h
  split at h
  next e' he =>
    cases h
    obtain rfl | rfl := readName_error he <;> unfold Refusal.short <;> decide
  next => cases h

theorem broadcastLoop_chain (payload : Bytes) (status : UserStatus) (is : List ℕ) (w : World)
    (hi : (w.server.clients i).authenticated = true)
    (hp : payload = statusPayload (w.server.clients i).username status) :
    Chain verify g i w (broadcastLoop (w.server.clients i).username payload is w) ∧
      (broadcastLoop (w.server.clients i).username payload is w).server = w.server := by
  induction is generalizing w with
  | nil => exact ⟨.refl, rfl⟩
  | cons j is ih =>
    simp only [broadcastLoop]
    split
    next hc =>
      have hserver := sendNetworkMessage_server w (w.server.clients j).socketFd .statusUpdate
        payload none
      have hone : Chain verify g i w
          (sendNetworkMessage w (w.server.clients j).socketFd .statusUpdate payload none).2 := by
        simp only [Bool.and_eq_true, decide_eq_true_eq] at hc
        refine written_chain (sendNetworkMessage_written _ _ _ _ _) (fun n hfd ↦ ?_)
          (fun n bytes hfd ↦ .torn j n bytes hfd (.inr ⟨hi, hc.1.2⟩))
        rw [hp]
        exact .status j n status hi ⟨hc.1.1, hc.1.2, hc.2⟩ hfd
      have hrest := ih (sendNetworkMessage w (w.server.clients j).socketFd .statusUpdate
        payload none).2 (by rw [hserver]; exact hi) (by rw [hserver]; exact hp)
      rw [hserver] at hrest
      exact ⟨hone.trans hrest.1, hrest.2⟩
    next => exact ih w hi hp

theorem broadcast_chain (w : World) (status : UserStatus)
    (hi : (w.server.clients i).authenticated = true) :
    Chain verify g i w (broadcastStatusUpdate w (w.server.clients i).username status) ∧
      (broadcastStatusUpdate w (w.server.clients i).username status).server = w.server := by
  have hm : Chain verify g i w (malloc w).2 := Chain.of_silent (malloc_silent w)
  have hserver := malloc_server w
  unfold broadcastStatusUpdate
  dsimp only
  split
  · exact ⟨hm, hserver⟩
  · have h := @broadcastLoop_chain verify g i
      (statusPayload (w.server.clients i).username status) status
      (List.range (malloc w).2.server.clientCount) (malloc w).2 (by rw [hserver]; exact hi)
      (by rw [hserver])
    rw [hserver] at h ⊢
    exact ⟨hm.trans h.1, h.2⟩

def loggedIn (w : World) (i : ℕ) (username : Username) (signature : Signature) (fd : Fd) (k : ℕ) :
    World :=
  ((w.modifyClient i (fun c ↦ { c with authenticated := true, username := username })).emit
    (.login fd username signature (w.server.clients i).challenge (w.server.users k).publicKey)).modifyUser
      k (fun u ↦ { u with status := .online })

theorem authenticateUser_accepts {w : World} {username : Username} {signature : Signature} {fd : Fd}
    {k : ℕ} (hfd : (w.server.clients i).socketFd = some fd)
    (hk : findUser w.server username = some k)
    (hv : verify signature (w.server.clients i).challenge (w.server.users k).publicKey = true) :
    authenticateUser verify w i username signature =
      (0, broadcastStatusUpdate (loggedIn w i username signature fd k) username .online) := by
  simp only [authenticateUser, hk, hv, Bool.not_true, Bool.false_eq_true, ↓reduceIte, hfd, loggedIn]

theorem loggedIn_chain {w : World} {username : Username} {signature : Signature} {fd : Fd} {k : ℕ}
    (hfd : (w.server.clients i).socketFd = some fd) (hk : findUser w.server username = some k)
    (hv : verify signature (w.server.clients i).challenge (w.server.users k).publicKey = true)
    (hg : g.login w username) :
    Chain verify g i w (loggedIn w i username signature fd k) := by
  have hlogin : Effect verify g i w
      ((w.modifyClient i (fun c ↦ { c with authenticated := true, username := username })).emit
        (.login fd username signature (w.server.clients i).challenge
          (w.server.users k).publicKey)) :=
    .login username signature fd k hg hk hv hfd rfl rfl rfl
  refine (Relation.ReflTransGen.single hlogin).tail ?_
  refine .setStatus k .online ?_ ?_ rfl rfl rfl
  · simp
  · rw [emit_server, modifyClient_self, findUser_congr (modifyClient_users w _ _) rfl]
    exact hk

@[simp] theorem loggedIn_self (w : World) (i : ℕ) (username : Username) (signature : Signature)
    (fd : Fd) (k : ℕ) : (loggedIn w i username signature fd k).server.clients i =
      { w.server.clients i with authenticated := true, username := username } := by
  simp [loggedIn]

theorem authenticateUser_chain {w : World} {username : Username} {signature : Signature} {fd : Fd}
    {k : ℕ} (hfd : (w.server.clients i).socketFd = some fd)
    (hk : findUser w.server username = some k)
    (hv : verify signature (w.server.clients i).challenge (w.server.users k).publicKey = true)
    (hg : g.login w username) :
    Chain verify g i w (authenticateUser verify w i username signature).2 ∧
      (authenticateUser verify w i username signature).2.server =
        (loggedIn w i username signature fd k).server := by
  have hb := @broadcast_chain verify g i
    (loggedIn w i username signature fd k) .online (by simp)
  rw [loggedIn_self] at hb
  rw [authenticateUser_accepts hfd hk hv]
  exact ⟨(loggedIn_chain hfd hk hv hg).trans hb.1, hb.2⟩

theorem authenticateUser_rejects {w : World} {username : Username} {signature : Signature}
    (h : (authenticateUser verify w i username signature).1 ≠ 0) :
    (authenticateUser verify w i username signature).2 = w := by
  unfold authenticateUser at h ⊢
  split
  next => rfl
  next k hk =>
    simp only [hk] at h
    dsimp only at h ⊢
    split
    next => rfl
    next hv => simp [hv] at h

theorem authenticateUser_zero {w : World} {username : Username} {signature : Signature}
    (h : (authenticateUser verify w i username signature).1 = 0) :
    ∃ k, findUser w.server username = some k ∧
      verify signature (w.server.clients i).challenge (w.server.users k).publicKey = true := by
  unfold authenticateUser at h
  split at h
  next => cases h
  next k hk =>
    refine ⟨k, hk, ?_⟩
    dsimp only at h
    split at h
    next => cases h
    next hv => simpa using hv

inductive DeliverTurn (i n : ℕ) (delivered : ℤ) (w : World) : Prop
  | done (hcount : (w.server.clients i).queue.count = 0)
      (h : deliverLoop i (n + 1) delivered w = (delivered, w))
  | skip (hcount : 0 < (w.server.clients i).queue.count)
      (hold : ((w.server.clients i).queue.cells (w.server.clients i).queue.head).delivered = true)
      (h : deliverLoop i (n + 1) delivered w = deliverLoop i n delivered (w.modifyClient i
        (fun c ↦ { c with queue := advanceHead messageQueueSize c.queue })))
  | stuck (v : World) (hs : v.server = w.server) (hchain : ∀ verify g, Chain verify g i w v)
      (hfault : (w.server.clients i).socketFd.isSome → ¬ w.env.Faultless)
      (h : deliverLoop i (n + 1) delivered w = (delivered, v))
  | sent (v : World) (fd : Fd) (m : StoredMessage) (hcount : 0 < (w.server.clients i).queue.count)
      (hm : m = (w.server.clients i).queue.cells (w.server.clients i).queue.head)
      (hfresh : m.delivered = false) (hfd : (w.server.clients i).socketFd = some fd)
      (hs : v.server = (w.modifyClient i (fun c ↦ { c with
        queue := advanceHead messageQueueSize (writeHead c.queue (StoredMessage.spent m)) })).server)
      (hn : v.nextFd = w.nextFd)
      (ho : v.out = w.out ++ [.frame fd .incomingMessage (queuedPayload m) (some m)])
      (henv : w.env.Faultless → v.env.Faultless)
      (h : deliverLoop i (n + 1) delivered w = deliverLoop i n (delivered + 1) v)

theorem deliverLoop_turn (n : ℕ) (delivered : ℤ) (w : World) : DeliverTurn i n delivered w := by
  by_cases hcount : (w.server.clients i).queue.count > 0
  · cases hold : ((w.server.clients i).queue.cells (w.server.clients i).queue.head).delivered with
    | true =>
      refine .skip hcount hold ?_
      simp only [deliverLoop, hcount, hold, ↓reduceIte]
    | false =>
      have hsilent := malloc_silent w
      have hserver := hsilent.server
      cases halloc : (malloc w).1 with
      | false =>
        refine .stuck (malloc w).2 hserver (fun _ _ ↦ Chain.of_silent hsilent)
          (fun _ hf ↦ ?_) ?_
        · rw [(malloc_faultless hf).1] at halloc
          cases halloc
        · simp [deliverLoop, hcount, hold, halloc]
      | true =>
        have hw := sendNetworkMessage_written (malloc w).2 (w.server.clients i).socketFd
          .incomingMessage
          (queuedPayload ((w.server.clients i).queue.cells (w.server.clients i).queue.head))
          (some ((w.server.clients i).queue.cells (w.server.clients i).queue.head))
        have hf : w.env.Faultless → _ := fun h ↦
          sendNetworkMessage_faultless (malloc_faultless h).2 (w.server.clients i).socketFd
            .incomingMessage
            (queuedPayload ((w.server.clients i).queue.cells (w.server.clients i).queue.head))
            (some ((w.server.clients i).queue.cells (w.server.clients i).queue.head))
        have hloop : deliverLoop i (n + 1) delivered w =
            (let sent := sendNetworkMessage (malloc w).2 (w.server.clients i).socketFd
              .incomingMessage
              (queuedPayload ((w.server.clients i).queue.cells (w.server.clients i).queue.head))
              (some ((w.server.clients i).queue.cells (w.server.clients i).queue.head))
            if sent.1 = 0 then deliverLoop i n (delivered + 1) (sent.2.modifyClient i (fun c ↦
              { c with queue := advanceHead messageQueueSize (writeHead c.queue
                (StoredMessage.spent
                  ((w.server.clients i).queue.cells (w.server.clients i).queue.head))) }))
            else (delivered, sent.2)) := by
          simp [deliverLoop, hcount, hold, halloc]
        generalize sendNetworkMessage (malloc w).2 (w.server.clients i).socketFd .incomingMessage
          (queuedPayload ((w.server.clients i).queue.cells (w.server.clients i).queue.head))
          (some ((w.server.clients i).queue.cells (w.server.clients i).queue.head)) = sent
          at hw hf hloop
        dsimp only at hloop
        cases hw with
        | whole fd hfd hr hs hn ho =>
          rw [if_pos hr] at hloop
          generalize hv : sent.2.modifyClient i _ = v at hloop
          refine .sent v fd _ hcount rfl hold hfd ?_ ?_ ?_ ?_ hloop
          · rw [← hv]
            simp only [World.modifyClient, hs, hserver]
          · exact hv ▸ hn.trans hsilent.nextFd
          · exact hv ▸ ho.trans (by rw [hsilent.out])
          · exact hv ▸ fun h ↦ (hf h).1
        | torn fd bytes hfd hr hs hn ho =>
          rw [if_neg (by rw [hr]; decide)] at hloop
          refine .stuck sent.2 (hs.trans hserver) (fun _ _ ↦ ?_) (fun hsome h ↦ ?_) hloop
          · refine (Chain.of_silent hsilent).tail (.emit _ (.torn i fd bytes ?_ (.inl rfl)) hs hn ho)
            rw [hserver, hfd]
          · have hzero := (hf h).2 hsome
            omega
        | dead hfd hr h =>
          rw [if_neg (by rw [hr]; decide)] at hloop
          refine .stuck sent.2 (h.server.trans hserver)
            (fun _ _ ↦ Chain.of_silent (hsilent.trans h)) (fun hsome _ ↦ ?_) hloop
          rw [hfd] at hsome
          cases hsome
  · refine .done (by omega) ?_
    simp only [deliverLoop, hcount, ↓reduceIte]

theorem deliverLoop_chain (n : ℕ) (delivered : ℤ) (w : World)
    (hi : (w.server.clients i).authenticated = true) :
    Chain verify g i w (deliverLoop i n delivered w).2 := by
  induction n generalizing delivered w with
  | zero => exact .refl
  | succ n ih =>
    cases deliverLoop_turn (i := i) n delivered w with
    | done _ h => rw [h]
    | skip hcount hold h =>
      rw [h]
      exact .head (.skip hi hcount hold rfl rfl rfl) (ih _ _ (by simpa using hi))
    | stuck v _ hchain _ h =>
      rw [h]
      exact hchain verify g
    | sent v fd m hcount hm hfresh hfd hs hn ho _ h =>
      rw [h]
      refine .head (.deliver fd m hi hcount hm hfresh hfd hs hn ho) (ih _ _ ?_)
      rw [hs, modifyClient_self]
      exact hi

theorem deliverQueuedMessages_chain (w : World)
    (hi : (w.server.clients i).authenticated = true) :
    Chain verify g i w (deliverQueuedMessages w i).2 := by
  unfold deliverQueuedMessages
  simp only [hi, Bool.not_true, Bool.false_eq_true, ↓reduceIte]
  exact deliverLoop_chain _ _ _ hi

theorem identity_neutral : Neutral (fun w w' ↦
    ∀ j, SameIdentity (w.server.clients j) (w'.server.clients j)) := by
  have hsame : ∀ {w w' : World}, w'.server.clients = w.server.clients →
      ∀ j, SameIdentity (w.server.clients j) (w'.server.clients j) := by
    intro w w' h j
    rw [h]
    exact .refl _
  refine ⟨fun w ↦ hsame rfl, fun h h' j ↦ (h j).trans (h' j), fun w ↦ hsame (by simp),
    fun w ↦ hsame (by simp), fun w ↦ hsame rfl, fun w fd type payload entry _ ↦ hsame (by simp),
    fun w j q k ↦ ?_, fun w m ↦ hsame rfl⟩
  by_cases hk : k = j
  · subst hk
    rw [modifyClient_self]
    exact ⟨rfl, rfl, rfl, rfl, rfl⟩
  · rw [modifyClient_other _ _ hk]
    exact .refl _

theorem Asked.now {w : World} {fd : Fd} {pre : List Event} {payload : Bytes}
    {recipient : Username} {data : Bytes} (hfd : (w.server.clients i).socketFd = some fd)
    (hout : w.out = pre ++ [.request fd MessageType.sendMessage.code payload])
    (hparse : parseSendMessage payload = .ok (recipient, data)) : Asked w i recipient data :=
  ⟨fd, pre, payload, [], hfd, hout, by simp, hparse⟩

theorem Asked.later {w w' : World} {recipient : Username} {data : Bytes} (es : List Event)
    (h : Asked w i recipient data)
    (hfd : (w'.server.clients i).socketFd = (w.server.clients i).socketFd)
    (ho : w'.out = w.out ++ es) (hes : ∀ e ∈ es, Event.isLogin e = false) :
    Asked w' i recipient data := by
  obtain ⟨fd, pre, payload, post, hw, hout, hpost, hparse⟩ := h
  refine ⟨fd, pre, payload, post ++ es, hfd.trans hw, ?_, ?_, hparse⟩
  · rw [ho, hout, List.append_assoc, List.cons_append]
  · intro e he
    exact (List.mem_append.mp he).elim (hpost e) (hes e)

theorem drawMessageId_effect (w : World) (hi : (w.server.clients i).authenticated = true) :
    Effect verify g i w (drawMessageId w).2 := .nextId hi rfl rfl rfl

theorem queueMessage_chain {w : World} {recipient : Username} {data : Bytes}
    (hi : (w.server.clients i).authenticated = true) (ha : Asked w i recipient data) :
    Chain verify g i w (queueMessage w recipient (w.server.clients i).username data).2 := by
  unfold queueMessage
  split
  · exact .refl
  next hdata =>
    split
    · exact .refl
    next j hj =>
      split
      · exact .refl
      next hcount =>
        obtain ⟨_, hconn, hauth, hname⟩ := findClient_some hj
        have hholds : holds (w.server.clients j) recipient = true := by
          simp [holds, hconn, hauth, hname]
        have hdraw : Effect verify g i w (drawMessageId w).2 := drawMessageId_effect w hi
        have htime := time_silent (drawMessageId w).2
        have hmalloc := htime.trans (malloc_silent (time (drawMessageId w).2).2)
        have hstart : Chain verify g i w (malloc (time (drawMessageId w).2).2).2 :=
          .head hdraw (Chain.of_silent hmalloc)
        have hclients : (malloc (time (drawMessageId w).2).2).2.server.clients =
            w.server.clients := by
          rw [hmalloc.server]
          rfl
        dsimp only
        split
        · refine hstart.tail (.spoil j _ ?_ ?_ rfl rfl rfl)
          · exact (congrFun hclients i) ▸ hi
          · exact (congrFun hclients j) ▸ Nat.not_le.mp hcount
        · refine hstart.tail (.enqueue j _ data ?_ ?_ ?_ ?_ rfl rfl (by omega) rfl ?_ rfl rfl rfl)
          · exact (congrFun hclients i) ▸ hi
          · exact (congrFun hclients j) ▸ hholds
          · exact Asked.later [] ha (by rw [hclients])
              (by rw [hmalloc.out, List.append_nil]; rfl) (by simp)
          · exact (congrArg ClientConnection.username (congrFun hclients i)).symm
          · exact (congrFun hclients j) ▸ Nat.not_le.mp hcount

theorem relay_chain {w : World} {id : UInt32} {recipient : Username} {data : Bytes}
    (hi : (w.server.clients i).authenticated = true) (ha : Asked w i recipient data) :
    Chain verify g i w (relay w i id recipient data).2 := by
  unfold relay
  dsimp only
  split
  next j hj =>
    obtain ⟨_, hconn, hauth, hname⟩ := findClient_some hj
    have hholds : holds (w.server.clients j) recipient = true := by
      simp [holds, hconn, hauth, hname]
    have hmalloc := (time_silent w).trans (malloc_silent (time w).2)
    have hstart : Chain verify g i w (malloc (time w).2).2 := Chain.of_silent hmalloc
    have ha' : Asked (malloc (time w).2).2 i recipient data :=
      Asked.later [] ha (by rw [hmalloc.server]) (by rw [hmalloc.out, List.append_nil])
        (by simp)
    have hserver := hmalloc.server
    split
    · exact hstart
    · refine hstart.trans ?_
      rw [← hserver] at hi hholds hauth ⊢
      generalize (malloc (time w).2).2 = v at hi hholds hauth ha' ⊢
      have hw := sendNetworkMessage_written v (v.server.clients j).socketFd .incomingMessage
        (directPayload id (v.server.clients i).username (time w).1 data) none
      have hsent : Chain verify g i v (sendNetworkMessage v (v.server.clients j).socketFd
          .incomingMessage (directPayload id (v.server.clients i).username (time w).1 data) none).2 :=
        written_chain hw (fun n hfd ↦ .direct j n recipient data id _ hi hholds hfd ha')
          (fun n bytes hfd ↦ .torn j n bytes hfd (.inr ⟨hi, hauth⟩))
      generalize sendNetworkMessage v (v.server.clients j).socketFd .incomingMessage
        (directPayload id (v.server.clients i).username (time w).1 data) none = sent at hw hsent ⊢
      cases hw with
      | whole fd hfd hr hs hn ho =>
        rw [if_pos hr]
        exact hsent
      | torn fd bytes hfd hr hs hn ho =>
        rw [if_neg (by rw [hr]; decide), ← hs]
        refine hsent.trans (queueMessage_chain (by rw [hs]; exact hi) ?_)
        exact Asked.later _ ha' (by rw [hs]) ho (by simp [Event.isLogin])
      | dead hfd hr h =>
        rw [if_neg (by rw [hr]; decide), ← h.server]
        refine hsent.trans (queueMessage_chain (by rw [h.server]; exact hi) ?_)
        exact Asked.later [] ha' (by rw [h.server]) (by rw [h.out, List.append_nil])
          (by simp)
  next => exact queueMessage_chain hi ha

theorem handleRegisterUser_chain (w : World) (payload : Bytes) (hg : g.register w) :
    Chain verify g i w (handleRegisterUser w i payload).2 := by
  unfold handleRegisterUser
  split
  next e he => exact refuse_chain w e (.inr (parseRegister_error he))
  next username key hparse =>
    have hadd : Chain verify g i w (addUser w username key).2 := by
      unfold addUser
      split
      · exact .refl
      next hname =>
        split
        · exact .refl
        next hroom =>
          split
          · exact .refl
          next hnew =>
            exact .single (.register username key hg hname (Nat.not_le.mp hroom)
              (Option.not_isSome_iff_eq_none.mp hnew) rfl rfl rfl)
    have hanswer : ∀ b c : UInt8, Chain verify g i w (reply (addUser w username key).2 i
        .registerResponse [b, c]).2 := fun b c ↦
      hadd.trans (reply_chain _ _ _ ⟨by decide, by decide⟩ (.inr (by decide : 2 < 32)))
    dsimp only
    split
    · exact hanswer 1 0
    · split
      · exact hanswer 0 _
      · exact hanswer 0 _

theorem handleLoginUser_chain {w : World} {payload : Bytes} {fd : Fd}
    (hfd : (w.server.clients i).socketFd = some fd)
    (hlogin : ∀ username signature k, parseLogin payload = .ok (username, signature) →
      findUser w.server username = some k →
      verify signature (w.server.clients i).challenge (w.server.users k).publicKey = true →
      g.login w username) :
    Chain verify g i w (handleLoginUser verify w i payload).2 := by
  unfold handleLoginUser
  split
  next e he => exact refuse_chain w e (.inr (parseLogin_error he))
  next username signature hparse =>
    dsimp only
    split
    next hzero =>
      obtain ⟨k, hk, hv⟩ := authenticateUser_zero hzero
      obtain ⟨hchain, hserver⟩ :=
        authenticateUser_chain hfd hk hv (hlogin username signature k hparse hk hv)
      have hauth : ((authenticateUser verify w i username signature).2.server.clients
          i).authenticated = true := by
        rw [hserver, loggedIn_self]
      have hdeliver := @deliverQueuedMessages_chain verify g i _ hauth
      refine (hchain.trans hdeliver).trans (reply_chain _ _ _ ⟨by decide, by decide⟩ (.inl ?_))
      rw [(identity_neutral.deliverQueuedMessages _ i i).authenticated]
      exact hauth
    next hne =>
      rw [authenticateUser_rejects hne]
      exact reply_chain w _ _ ⟨by decide, by decide⟩ (.inr (by decide : 1 < 32))

theorem handleGetPublicKey_chain {w : World} {payload : Bytes}
    (hi : (w.server.clients i).authenticated = true) :
    Chain verify g i w (handleGetPublicKey w i payload).2 := by
  unfold handleGetPublicKey
  split
  · exact refuse_chain w _ (.inl hi)
  · split
    · exact reply_chain w _ _ ⟨by decide, by decide⟩ (.inl hi)
    · exact reply_chain w _ _ ⟨by decide, by decide⟩ (.inl hi)

theorem handleSendMessage_chain {w : World} {payload : Bytes} {fd : Fd} {pre : List Event}
    (hi : (w.server.clients i).authenticated = true)
    (hfd : (w.server.clients i).socketFd = some fd)
    (hout : w.out = pre ++ [.request fd MessageType.sendMessage.code payload]) :
    Chain verify g i w (handleSendMessage w i payload).2 := by
  unfold handleSendMessage
  split
  · exact refuse_chain w _ (.inl hi)
  next recipient data hparse =>
    split
    · exact refuse_chain w _ (.inl hi)
    · have ha : Asked (drawMessageId w).2 i recipient data := Asked.now hfd hout hparse
      have hdraw : Effect verify g i w (drawMessageId w).2 := drawMessageId_effect w hi
      have hrelay := @relay_chain verify g i (drawMessageId w).2 (drawMessageId w).1 _ _ hi ha
      have hauth : ((relay (drawMessageId w).2 i (drawMessageId w).1 recipient
          data).2.server.clients i).authenticated = true := by
        rw [(identity_neutral.relay (drawMessageId w).2 i _ _ _ i).authenticated]
        exact hi
      have hanswer := (Relation.ReflTransGen.head hdraw hrelay).trans
        (reply_chain _ .messageAck (ackPayload (drawMessageId w).1
          (relay (drawMessageId w).2 i (drawMessageId w).1 recipient data).1)
          ⟨by decide, by decide⟩ (.inl hauth))
      dsimp only
      split <;> exact hanswer

theorem handleSetStatus_chain {w : World} {payload : Bytes}
    (hi : (w.server.clients i).authenticated = true) :
    Chain verify g i w (handleSetStatus w i payload).2 := by
  unfold handleSetStatus
  split
  · exact refuse_chain w _ (.inl hi)
  next status _ =>
    dsimp only
    split
    · exact .refl
    next k hk =>
      have hset : Effect verify g i w
          (w.modifyUser k (fun u ↦ { u with status := status })) :=
        .setStatus k status hi hk rfl rfl rfl
      have htune : Effect verify g i (w.modifyUser k (fun u ↦ { u with status := status }))
          ((w.modifyUser k (fun u ↦ { u with status := status })).modifyClient i
            (fun c ↦ { c with status := status })) :=
        .tune { w.server.clients i with status := status } ⟨rfl, rfl, rfl, rfl, rfl⟩ rfl (.inl hi) rfl
          rfl rfl
      have hb := @broadcast_chain verify g i
        ((w.modifyUser k (fun u ↦ { u with status := status })).modifyClient i
          (fun c ↦ { c with status := status })) status (by simpa using hi)
      rw [modifyClient_self] at hb
      exact .head hset (.head htune hb.1)

theorem handleListUsers_chain {w : World}
    (hi : (w.server.clients i).authenticated = true) :
    Chain verify g i w (handleListUsers w i).2 := by
  have hm : Chain verify g i w (malloc w).2 := Chain.of_silent (malloc_silent w)
  have hi' : ((malloc w).2.server.clients i).authenticated = true := by
    rw [malloc_server]
    exact hi
  unfold handleListUsers
  dsimp only
  split
  · exact hm.trans (refuse_chain _ _ (.inl hi'))
  · exact hm.trans (reply_chain _ _ _ ⟨by decide, by decide⟩ (.inl hi'))

theorem authenticatedOnly_chain {w : World} {handle : World → ℤ × World}
    (h : (w.server.clients i).authenticated = true → Chain verify g i w (handle w).2) :
    Chain verify g i w (authenticatedOnly w i handle) := by
  unfold authenticatedOnly
  split
  · exact sendError_chain w _ _ (.inr (by unfold Refusal.short; decide))
  next hauth => exact h (by simpa using hauth)

/-- Whatever the request, its handler is a chain of effects of its own slot. -/
theorem dispatch_chain {w : World} {type : UInt8} {payload : Bytes} {fd : Fd} {pre : List Event}
    (hfd : (w.server.clients i).socketFd = some fd)
    (hout : w.out = pre ++ [.request fd type payload])
    (hlogin : type = MessageType.loginUser.code → ∀ username signature k,
      parseLogin payload = .ok (username, signature) → findUser w.server username = some k →
      verify signature (w.server.clients i).challenge (w.server.users k).publicKey = true →
      g.login w username)
    (hregister : g.register w) (hlogout : type = MessageType.logout.code → g.logout) :
    Chain verify g i w (dispatch verify w i type payload) := by
  unfold dispatch
  split
  · exact handleRegisterUser_chain w payload hregister
  split
  next htype => exact handleLoginUser_chain hfd (hlogin htype)
  split
  · exact authenticatedOnly_chain handleGetPublicKey_chain
  split
  next htype =>
    rw [htype] at hout
    exact authenticatedOnly_chain (fun hi ↦ handleSendMessage_chain hi hfd hout)
  split
  · exact authenticatedOnly_chain (deliverQueuedMessages_chain w)
  split
  · exact authenticatedOnly_chain handleSetStatus_chain
  split
  · exact authenticatedOnly_chain handleListUsers_chain
  split
  next htype => exact .single (.logout (hlogout htype) rfl rfl rfl)
  · exact sendError_chain w _ _ (.inr (by unfold Refusal.short; decide))

end CChat.Server.HandlerEffects
