import CChat.Threads.Crew

namespace CChat.Threads.Sequential

open CChat.Library CChat.Library.Circular CChat.Protocol.Types CChat.Server.State
  CChat.Server.Network CChat.Server.Users CChat.Server.Queue CChat.Server.Handlers
  CChat.Server.Pushes CChat.Server.Steps Machine Sections Messages Crew
open CChat.Server.Loop hiding Input step reach
open CChat.Server.Invariants hiding Turn step_turn

variable (verify : Signature → Challenge → Key → Bool)

def Goes (i : ℕ) : World × Control → World × Control → Prop :=
  Relation.ReflTransGen (fun a b ↦ b = proceed verify a.1 i a.2)

variable {verify} {w : World} {i : ℕ} {a b d : World × Control}

theorem Goes.trans (h : Goes verify i a b) (h' : Goes verify i b d) : Goes verify i a d :=
  Relation.ReflTransGen.trans h h'

theorem goes_one (h : proceed verify a.1 i a.2 = b) : Goes verify i a b := .single h.symm

theorem goes_from (h : proceed verify a.1 i a.2 = b) (h' : Goes verify i b d) :
    Goes verify i a d := (goes_one h).trans h'

theorem goes_refuse (w : World) (i : ℕ) (e : Refusal) :
    Goes verify i (w, .refusing e) ((refuse w i e).2, .testing) := goes_one rfl

theorem goes_reply (w : World) (i : ℕ) (type : MessageType) (payload : Bytes) :
    Goes verify i (w, .replying type payload) ((reply w i type payload).2, .testing) :=
  goes_one rfl

theorem goes_sweep (username : Username) (status : UserStatus) (after : After) (n j : ℕ)
    (w : World) (hj : j + n = w.server.clientCount) :
    Goes verify i (w, .sweeping username status j after)
      (broadcastLoop username (statusPayload username status) (List.range' j n) w,
        after.control) := by
  induction n generalizing j w with
  | zero =>
    have hend : ¬ j < w.server.clientCount := by omega
    exact goes_one (by simp only [proceed, if_neg hend]; rfl)
  | succ n ih =>
    have hlt : j < w.server.clientCount := by omega
    rw [List.range'_succ, broadcastLoop]
    split
    next hc =>
      refine goes_from (b := ((sendNetworkMessage w (w.server.clients j).socketFd .statusUpdate
        (statusPayload username status) none).2, .sweeping username status (j + 1) after)) ?_
        (ih (j + 1) _ (by rw [sendNetworkMessage_server]; omega))
      simp only [proceed, if_pos hlt, if_pos hc]
    next hc =>
      refine goes_from (b := (w, .sweeping username status (j + 1) after)) ?_
        (ih (j + 1) w (by omega))
      simp only [proceed, if_pos hlt, if_neg hc]

theorem goes_broadcast (w : World) (username : Username) (status : UserStatus) (after : After) :
    Goes verify i (w, .announcing username status after)
      (broadcastStatusUpdate w username status, after.control) := by
  unfold broadcastStatusUpdate
  dsimp only
  split
  next h => exact goes_one (by simp only [proceed, if_pos h])
  next h =>
    refine goes_from (b := ((malloc w).2, .sweeping username status 0 after))
      (by simp only [proceed, if_neg h]) ?_
    rw [List.range_eq_range']
    exact goes_sweep username status after _ 0 _ (Nat.zero_add _)

theorem goes_register (w : World) (username : Username) (key : Key) (payload : Bytes)
    (h : parseRegister payload = .ok (username, key)) :
    Goes verify i (w, .registering username key) ((handleRegisterUser w i payload).2, .testing) := by
  refine goes_from (b := ((addUser w username key).2,
    .replying .registerResponse (registration (addUser w username key).1))) rfl ?_
  have hreply : (handleRegisterUser w i payload).2 =
      (reply (addUser w username key).2 i .registerResponse
        (registration (addUser w username key).1)).2 := by
    unfold handleRegisterUser registration
    rw [h]
    dsimp only
    split_ifs <;> rfl
  rw [hreply]
  exact goes_reply _ _ _ _

theorem goes_online (w : World) (k : ℕ) (username : Username) :
    Goes verify i (w, .onlining k username)
      (broadcastStatusUpdate (w.modifyUser k (fun u ↦ { u with status := .online }))
        username .online, .delivering) :=
  goes_from (b := (w.modifyUser k (fun u ↦ { u with status := .online }),
    .announcing username .online .loggedIn)) rfl (goes_broadcast _ _ _ _)

/-- The check of a login takes its handler to the delivery of what waits, or to
the answer that refuses it. -/
theorem goes_authenticate (w : World) (username : Username) (signature : Signature) :
    (authenticateUser verify w i username signature).1 = 0 ∧
        Goes verify i (w, .identifying username signature)
          ((authenticateUser verify w i username signature).2, .delivering) ∨
      (authenticateUser verify w i username signature).1 ≠ 0 ∧
        Goes verify i (w, .identifying username signature)
          ((authenticateUser verify w i username signature).2, .replying .loginResponse [0]) := by
  have hfails : (-1 : ℤ) ≠ 0 := by decide
  unfold authenticateUser
  cases hk : findUser w.server username with
  | none => exact .inr ⟨hfails, goes_one (by simp only [proceed, hk])⟩
  | some k =>
    have hfound : Goes verify i (w, .identifying username signature)
        (w, .accrediting k username signature) := goes_one (by simp only [proceed, hk])
    dsimp only
    split
    next hv => exact .inr ⟨hfails, hfound.trans (goes_one (by simp only [proceed, if_pos hv]))⟩
    next hv =>
      refine .inl ⟨rfl, hfound.trans ?_⟩
      split
      next hfd =>
        exact goes_from (by simp only [proceed, if_neg hv, hfd]) (goes_online _ k username)
      next fd hfd =>
        exact goes_from (by simp only [proceed, if_neg hv, hfd]) (goes_online _ k username)

theorem goes_login (w : World) (username : Username) (signature : Signature) (payload : Bytes)
    (h : parseLogin payload = .ok (username, signature)) :
    Goes verify i (w, .identifying username signature)
      ((handleLoginUser verify w i payload).2, .testing) := by
  unfold handleLoginUser
  rw [h]
  dsimp only
  obtain ⟨hr, hgoes⟩ | ⟨hr, hgoes⟩ := @goes_authenticate verify i w username signature
  · rw [if_pos hr]
    refine hgoes.trans (goes_from (b := (_, .replying .loginResponse _)) rfl ?_)
    exact goes_reply _ _ _ _
  · rw [if_neg hr]
    exact hgoes.trans (goes_reply _ _ _ _)

theorem goes_lookup (w : World) (username : Username) (payload : Bytes)
    (h : parseGetPublicKey payload = .ok username) :
    Goes verify i (w, .seekingKey username) ((handleGetPublicKey w i payload).2, .testing) := by
  unfold handleGetPublicKey
  rw [h]
  dsimp only
  cases hk : findUser w.server username with
  | none =>
    exact goes_from (b := (w, .replying .publicKeyResponse [0])) (by simp only [proceed, hk])
      (goes_reply _ _ _ _)
  | some k =>
    refine goes_from (b := (w, .copyingKey k username)) (by simp only [proceed, hk]) ?_
    exact goes_from (b := (w, .replying .publicKeyResponse _)) rfl (goes_reply _ _ _ _)

theorem goes_queue (w : World) (id : UInt32) (recipient : Username) (data : Bytes) :
    Goes verify i (w, .queueing id recipient data)
      ((queueMessage w recipient (w.server.clients i).username data).2,
        .replying .messageAck (ackPayload id 2)) := by
  rw [queueMessage_sections]
  split
  next hdata => exact goes_one (by simp only [proceed, if_pos hdata])
  next hdata =>
    cases hj : findClientByUsername w.server recipient with
    | none => exact goes_one (by simp only [proceed, if_neg hdata, hj])
    | some j =>
      refine goes_from (b := (w, .storing id recipient data j))
        (by simp only [proceed, if_neg hdata, hj]) ?_
      exact goes_one rfl

theorem goes_relay (w : World) (id : UInt32) (recipient : Username) (data : Bytes) :
    Goes verify i (w, .locating id recipient data)
      ((relay w i id recipient data).2,
        .replying .messageAck (ackPayload id (relay w i id recipient data).1)) := by
  unfold relay
  dsimp only
  cases hj : findClientByUsername w.server recipient with
  | none =>
    exact goes_from (b := (w, .queueing id recipient data)) (by simp only [proceed, hj])
      (goes_queue w id recipient data)
  | some j =>
    refine goes_from (b := (w, .sending id recipient data j)) (by simp only [proceed, hj]) ?_
    dsimp only
    split
    next hm => exact goes_one (by simp only [proceed, if_pos hm])
    next hm =>
      have hserver : (sendNetworkMessage (malloc (time w).2).2 (w.server.clients j).socketFd
          .incomingMessage (directPayload id (w.server.clients i).username (time w).1 data)
          none).2.server = w.server := by
        rw [sendNetworkMessage_server, malloc_server, time_server]
      split
      next hs => exact goes_one (by simp only [proceed, if_neg hm, if_pos hs])
      next hs =>
        refine goes_from (b := ((sendNetworkMessage (malloc (time w).2).2
          (w.server.clients j).socketFd .incomingMessage (directPayload id
            (w.server.clients i).username (time w).1 data) none).2, .queueing id recipient data))
          (by simp only [proceed, if_neg hm, if_neg hs]) ?_
        have hq := @goes_queue verify i (sendNetworkMessage (malloc (time w).2).2
          (w.server.clients j).socketFd .incomingMessage (directPayload id
            (w.server.clients i).username (time w).1 data) none).2 id recipient data
        rwa [hserver] at hq

theorem goes_message (w : World) (recipient : Username) (data : Bytes) (payload : Bytes)
    (h : parseSendMessage payload = .ok (recipient, data)) :
    Goes verify i (w, .seekingRecipient recipient data)
      ((handleSendMessage w i payload).2, .testing) := by
  unfold handleSendMessage
  rw [h]
  dsimp only
  cases hk : findUser w.server recipient with
  | none =>
    exact goes_from (b := (w, .refusing ⟨.userNotFound, "Recipient not found"⟩))
      (by simp only [proceed, hk]) (goes_refuse _ _ _)
  | some k =>
    refine goes_from (b := (w, .drawing recipient data)) (by simp only [proceed, hk]) ?_
    refine goes_from (b := ((drawMessageId w).2, .locating (drawMessageId w).1 recipient data))
      rfl ((goes_relay _ _ _ _).trans ?_)
    dsimp only
    split <;> exact goes_reply _ _ _ _

theorem goes_status (w : World) (status : UserStatus) (payload : Bytes)
    (h : parseSetStatus payload = .ok status) :
    Goes verify i (w, .seekingSelf status) ((handleSetStatus w i payload).2, .testing) := by
  unfold handleSetStatus
  rw [h]
  dsimp only
  cases hk : findUser w.server (w.server.clients i).username with
  | none => exact goes_one (by simp only [proceed, hk])
  | some k =>
    refine goes_from (b := (w, .settingUser k status)) (by simp only [proceed, hk]) ?_
    refine goes_from (b := (w.modifyUser k (fun u ↦ { u with status := status }),
      .settingClient status)) rfl ?_
    exact goes_from (b := (_, .announcing (w.server.clients i).username status .statusSet)) rfl
      (goes_broadcast _ _ _ _)

theorem goes_snapshot (w : World) (n k : ℕ) (users : List UserRecord)
    (hk : k + n = w.server.userCount) :
    Goes verify i (w, .snapshotting k users)
      (w, .snapshotting w.server.userCount (users ++ ((List.range' k n).map w.server.users).filter
        (fun u ↦ u.isRegistered))) := by
  induction n generalizing k users with
  | zero =>
    obtain rfl : k = w.server.userCount := by omega
    rw [List.range'_zero, List.map_nil, List.filter_nil, List.append_nil]
    exact .refl
  | succ n ih =>
    have hlt : k < w.server.userCount := by omega
    refine goes_from (b := (w, .snapshotting (k + 1) (if (w.server.users k).isRegistered
      then users ++ [w.server.users k] else users))) (by simp only [proceed, if_pos hlt]) ?_
    have hrest := ih (k + 1) (if (w.server.users k).isRegistered
      then users ++ [w.server.users k] else users) (by omega)
    have hlist : (if (w.server.users k).isRegistered then users ++ [w.server.users k] else users) ++
        ((List.range' (k + 1) n).map w.server.users).filter (fun u ↦ u.isRegistered) =
        users ++ ((List.range' k (n + 1)).map w.server.users).filter (fun u ↦ u.isRegistered) := by
      rw [List.range'_succ, List.map_cons, List.filter_cons]
      split
      · rw [List.append_assoc]
        rfl
      · rfl
    rwa [hlist] at hrest

theorem goes_list (w : World) : Goes verify i (w, .listing) ((handleListUsers w i).2, .testing) := by
  unfold handleListUsers
  dsimp only
  split
  next hm =>
    exact goes_from (b := ((malloc w).2, .refusing ⟨.serverError, "Memory allocation failed"⟩))
      (by simp only [proceed, if_pos hm]) (goes_refuse _ _ _)
  next hm =>
    refine goes_from (b := ((malloc w).2, .snapshotting 0 [])) (by simp only [proceed, if_neg hm]) ?_
    refine (goes_snapshot (malloc w).2 _ 0 [] (Nat.zero_add _)).trans ?_
    have hall : [] ++ ((List.range' 0 (malloc w).2.server.userCount).map
        (malloc w).2.server.users).filter (fun u ↦ u.isRegistered) = registered w.server := by
      rw [malloc_server, ← List.range_eq_range']
      rfl
    rw [hall]
    refine goes_from (b := ((malloc w).2, .replying .userListResponse
      (BigEndian.bytes 2 (registered w.server).length ++ (registered w.server).flatMap userEntry)))
      ?_ (goes_reply _ _ _ _)
    simp only [proceed, if_neg (Nat.lt_irrefl _)]

theorem goes_parsed {α : Type} {request : Except Refusal α} {next : α → Control} {w' : World}
    (hrefuse : ∀ e, request = .error e → w' = (refuse w i e).2)
    (hnext : ∀ x, request = .ok x → Goes verify i (w, next x) (w', .testing)) :
    Goes verify i (w, parsed request next) (w', .testing) := by
  cases h : request with
  | error e =>
    rw [hrefuse e h]
    exact goes_refuse w i e
  | ok x => exact hnext x h

theorem goes_loggedInOnly {next : Control} {handle : World → ℤ × World}
    (h : Goes verify i (w, next) ((handle w).2, .testing)) :
    Goes verify i (w, loggedInOnly (w.server.clients i).authenticated next)
      (authenticatedOnly w i handle, .testing) := by
  unfold loggedInOnly authenticatedOnly
  split
  · exact goes_refuse w i ⟨.authFailed, "Not authenticated"⟩
  · exact h

/-- The handler of a request takes the steps of the functions it calls. -/
theorem goes_dispatch (w : World) (i : ℕ) (type : UInt8) (payload : Bytes) :
    Goes verify i (w, route (w.server.clients i).authenticated type payload)
      (dispatch verify w i type payload, .testing) := by
  unfold route dispatch
  split
  · refine goes_parsed (fun e he ↦ ?_) (fun r hr ↦ goes_register w r.1 r.2 payload hr)
    rw [handleRegisterUser, he]
  split
  · refine goes_parsed (fun e he ↦ ?_) (fun r hr ↦ goes_login w r.1 r.2 payload hr)
    rw [handleLoginUser, he]
  split
  · refine goes_loggedInOnly (goes_parsed (fun e he ↦ ?_) (fun r hr ↦ goes_lookup w r payload hr))
    rw [handleGetPublicKey, he]
  split
  · refine goes_loggedInOnly
      (goes_parsed (fun e he ↦ ?_) (fun r hr ↦ goes_message w r.1 r.2 payload hr))
    rw [handleSendMessage, he]
  split
  · exact @goes_loggedInOnly verify w i _ (handleGetMessages · i) (goes_one rfl)
  split
  · refine goes_loggedInOnly (goes_parsed (fun e he ↦ ?_) (fun r hr ↦ goes_status w r payload hr))
    rw [handleSetStatus, he]
  split
  · exact goes_loggedInOnly (goes_list w)
  split
  · exact goes_one rfl
  · exact goes_refuse w i ⟨.invalidFormat, "Unknown message type"⟩

theorem goes_terminate (w : World) (i : ℕ) :
    Goes verify i (w, .closing) (terminate w i, .done) := by
  have hshut : ∀ v, Goes verify i (v, .shutting)
      ((closeSocket v i).modifyClient i (fun c ↦ { c with
        socketFd := none, connected := false, authenticated := false, username := Username.empty
        queue := reset c.queue }), .done) := fun v ↦ goes_one rfl
  unfold terminate goOffline
  dsimp only
  split
  next hc =>
    cases hk : findUser w.server (w.server.clients i).username with
    | none => exact goes_from (by simp only [proceed, if_pos hc, hk]) (hshut w)
    | some k =>
      refine goes_from (b := (w, .offlining k)) (by simp only [proceed, if_pos hc, hk]) ?_
      refine goes_from (b := (_, .announcing (w.server.clients i).username .offline .closing))
        rfl ((goes_broadcast _ _ _ _).trans (hshut _))
  next hc => exact goes_from (by simp only [proceed, if_neg hc]) (hshut w)

/-- Where a handler is once it has dealt with a request: back at its `recv`, or done. -/
def rest (w : World) (i : ℕ) : Control :=
  if (w.server.clients i).connected then .reading else .done

theorem terminate_connected (w : World) (i : ℕ) :
    ((terminate w i).server.clients i).connected = false := by
  rw [terminate, modifyClient_self]

/-- A handler that alone takes its steps does one turn of the loop of `client_handler`. -/
theorem goes_handler (w : World) (i : ℕ) (stream : Bytes) :
    Goes verify i (receiveRequest w i stream)
      (clientHandler verify w i stream, rest (clientHandler verify w i stream) i) := by
  have hend : ∀ v, Goes verify i (v, .closing) (terminate v i, rest (terminate v i) i) := by
    intro v
    rw [rest, terminate_connected]
    exact goes_terminate v i
  unfold receiveRequest clientHandler
  dsimp only
  cases (takeRequest w i stream).1 with
  | none => exact hend _
  | some request =>
    obtain ⟨type, payload⟩ := request
    refine (goes_dispatch _ i type payload).trans ?_
    dsimp only
    split
    next hc =>
      refine goes_one ?_
      rw [Bool.and_eq_true] at hc
      simp only [proceed, rest, hc.1, hc.2, Bool.and_self, ↓reduceIte]
    next hc => exact goes_from (by simp only [proceed, if_neg hc]) (hend _)

theorem running_neutral : Neutral (fun u v ↦ v.server.running = u.server.running) where
  refl _ := rfl
  trans h h' := h'.trans h
  alloc w := by rw [malloc_server]
  clock w := by rw [time_server]
  draw _ := rfl
  pushed w _ _ _ _ _ := by rw [sendNetworkMessage_server]
  requeue _ _ _ := rfl
  queued _ _ := rfl

/-- What no frame changes, no change of the users and none of a slot beside its
rate limit, a step of a handler does not change. -/
theorem Neutral.proceed {R : World → World → Prop} (h : Neutral R)
    (hframe : ∀ w fd type payload, R w (sendNetworkMessage w fd type payload none).2)
    (hevent : ∀ w e, R w (w.emit e))
    (husers : ∀ w users userCount, R w { w with server := { w.server with
      users := users, userCount := userCount } })
    (hclient : ∀ w j f, (∀ c, (f c).rateLimit = c.rateLimit) → R w (w.modifyClient j f))
    (w : World) (i : ℕ) (c : Control) : R w (proceed verify w i c).1 := by
  have hlogin : ∀ username, R w (w.modifyClient i (fun c ↦
      { c with authenticated := true, username := username })) :=
    fun _ ↦ hclient w i _ (fun _ ↦ rfl)
  have hstatus : ∀ k status, R w (w.modifyUser k (fun u ↦ { u with status := status })) :=
    fun _ _ ↦ husers w _ _
  cases c with
  | refusing e =>
    simp only [Machine.proceed, refuse, sendError]
    split
    · exact h.alloc w
    · exact h.trans (h.alloc w) (hframe _ _ _ _)
  | replying type payload => exact hframe w _ type payload
  | registering username key =>
    simp only [Machine.proceed, addUser]
    split_ifs
    · exact h.refl w
    · exact h.refl w
    · exact h.refl w
    · exact husers w _ _
  | accrediting k username signature =>
    simp only [Machine.proceed]
    split
    · exact h.refl w
    · split
      · exact hlogin username
      · exact h.trans (hlogin username) (hevent _ _)
  | announcing username status after =>
    simp only [Machine.proceed]
    split <;> exact h.alloc w
  | sweeping username status j after => exact Neutral.sweeping h w i username status j after
  | delivering => exact h.deliverQueuedMessages w i
  | sending id recipient data j => exact Neutral.sending h w i id recipient data j
  | storing id recipient data j => exact Neutral.storeMessage h w j recipient _ data
  | fetching => exact h.deliverQueuedMessages w i
  | listing =>
    simp only [Machine.proceed]
    split <;> exact h.alloc w
  | shutting =>
    have hclosed : R w (closeSocket w i) := by
      unfold closeSocket
      split
      · exact h.refl w
      · exact hevent w _
    refine h.trans hclosed (hclient _ i (fun c ↦ { c with
      socketFd := none, connected := false, authenticated := false, username := Username.empty
      queue := reset c.queue }) (fun _ ↦ rfl))
  | identifying _ _ | seekingKey _ | seekingRecipient _ _ | locating _ _ _ | seekingSelf _ =>
    simp only [Machine.proceed]
    split <;> exact h.refl w
  | queueing _ _ _ =>
    simp only [Machine.proceed]
    split
    · exact h.refl w
    · split <;> exact h.refl w
  | snapshotting _ _ =>
    simp only [Machine.proceed]
    split <;> exact h.refl w
  | closing =>
    simp only [Machine.proceed]
    split
    · split <;> exact h.refl w
    · exact h.refl w
  | drawing _ _ => exact h.draw w
  | onlining k _ => exact hstatus k .online
  | settingUser k status => exact hstatus k status
  | offlining k => exact hstatus k .offline
  | settingClient status => exact hclient w i (fun c ↦ { c with status := status }) (fun _ ↦ rfl)
  | hangingUp => exact hclient w i (fun c ↦ { c with connected := false }) (fun _ ↦ rfl)
  | reading | testing | copyingKey _ _ | done => exact h.refl w

theorem proceed_running (w : World) (i : ℕ) (c : Control) :
    (proceed verify w i c).1.server.running = w.server.running :=
  Neutral.proceed running_neutral (fun w _ _ _ ↦ by rw [sendNetworkMessage_server])
    (fun _ _ ↦ rfl) (fun _ _ _ ↦ rfl) (fun _ _ _ _ ↦ rfl) w i c

theorem acceptClient_running (w : World) (challenge : Challenge) (created : Bool) :
    (acceptClient w challenge created).server.running = w.server.running := by
  unfold acceptClient
  dsimp only
  split
  · rfl
  · split <;> rfl

theorem Goes.running (h : Goes verify i a b) : b.1.server.running = a.1.server.running := by
  induction h with
  | refl => rfl
  | @tail c d _ hstep ih => rw [hstep, proceed_running, ih]

theorem Goes.others (h : Goes verify i a b) {j : ℕ} (hj : j ≠ i) :
    (b.1.server.clients j).connected = (a.1.server.clients j).connected := by
  induction h with
  | refl => rfl
  | @tail c d _ hstep ih =>
    rw [hstep, (Section.others (proceed_section c.1 i c.2) hj).connected, ih]

variable {m : Pool} {h : Fd} {c : Control}

theorem acquires_holds {client : ClientConnection} {x : Mutex} (hx : acquires client c = some x) :
    c.holds = none := by
  cases c with
  | sweeping _ _ j _ =>
    cases j with
    | zero => rfl
    | succ j => cases hx
  | snapshotting _ _ => cases hx
  | _ => rfl

theorem not_held (hfree : ∀ h handler, m.handlers h = some handler → handler.control.holds = none)
    (x : Mutex) : m.held x = false := by
  rw [Pool.held, List.any_eq_false]
  intro h _
  cases hh : m.handlers h with
  | none => simp
  | some handler => simp [hfree h handler hh]

def Alone (m : Pool) (h : Fd) : Prop :=
  ∀ h' handler, h' ≠ h → m.handlers h' = some handler → handler.control.holds = none

theorem Alone.unblocked (ha : Alone m h) (i : ℕ) (r : World × Control) :
    (m.put h i r).blocked i r.2 = false := by
  rw [Pool.blocked]
  cases hx : acquires ((m.put h i r).world.server.clients i) r.2 with
  | none => rfl
  | some x =>
    refine not_held (fun h' handler hh ↦ ?_) x
    by_cases heq : h' = h
    · subst heq
      obtain rfl : (⟨i, r.2⟩ : Handler) = handler :=
        Option.some.inj ((Function.update_self h' _ m.handlers).symm.trans hh)
      exact acquires_holds hx
    · exact ha h' handler heq ((Function.update_of_ne heq _ m.handlers).symm.trans hh)

theorem put_world (m : Pool) (h : Fd) (i : ℕ) (w : World) (c : Control) :
    (m.put h i (w, c)).world = w := rfl

theorem put_put (m : Pool) (h : Fd) (i : ℕ) (r r' : World × Control) :
    (m.put h i r).put h i r' = m.put h i r' := by
  simp only [Pool.put, Function.update_idem]

theorem put_go (ha : Alone m h) (i : ℕ) (r : World × Control) :
    step verify (m.put h i r) (.go h) = m.put h i (proceed verify r.1 i r.2) := by
  have hh : (m.put h i r).handlers h = some ⟨i, r.2⟩ := Function.update_self h _ m.handlers
  simp only [step, hh, ha.unblocked, Bool.false_eq_true, ↓reduceIte]
  exact put_put m h i r _

/-- What a handler does alone it can do in the machine, without a pause. -/
theorem Goes.steps (hg : Goes verify i a b) (ha : Alone m h) :
    ∃ n, Runs.run (step verify) (m.put h i a) (List.replicate n (.go h)) = m.put h i b := by
  induction hg using Relation.ReflTransGen.head_induction_on with
  | refl => exact ⟨0, rfl⟩
  | @head c d hstep _ ih =>
    obtain ⟨n, hn⟩ := ih
    refine ⟨n + 1, ?_⟩
    rw [List.replicate_succ, Runs.run_cons, put_go ha, ← hstep]
    exact hn

/-- Every handler waits for bytes, or is done with a connection that is gone,
and every connection has a handler that waits. -/
structure Settled (m : Pool) : Prop where
  resting : ∀ h handler, m.handlers h = some handler → handler.control = .done ∨
    handler.control = .reading ∧ (m.world.server.clients handler.slot).connected = true
  served : ∀ i, (m.world.server.clients i).connected = true →
    ∃ h, m.handlers h = some ⟨i, .reading⟩

theorem Settled.free (hs : Settled m) (handler : Handler) (hh : m.handlers h = some handler) :
    handler.control.holds = none := by
  obtain hdone | ⟨hreading, _⟩ := hs.resting h handler hh
  · rw [hdone]
    rfl
  · rw [hreading]
    rfl

theorem Settled.vacant (hs : Settled m) (challenge : Challenge) (created : Bool) :
    vacant m (.accept challenge created) = true := by
  rw [Crew.vacant, Bool.or_eq_true]
  right
  cases hslot : freeSlot m.world.server with
  | none => rfl
  | some i =>
    refine List.all_eq_true.mpr (fun h _ ↦ ?_)
    cases hh : m.handlers h with
    | none => rfl
    | some handler =>
      refine decide_eq_true (fun heq ↦ ?_)
      obtain hdone | ⟨_, hconnected⟩ := hs.resting h handler hh
      · exact hdone
      · have hfree := List.find?_some hslot
        rw [← heq, hconnected] at hfree
        cases hfree

/-- A pool stays settled when the connections stay and no handler moves. -/
theorem Settled.world (hs : Settled m)
    (hw : ∀ j, (w.server.clients j).connected = (m.world.server.clients j).connected) :
    Settled { m with world := w } := by
  refine ⟨fun h handler hh ↦ ?_, fun i hi ↦ hs.served i (hw i ▸ hi)⟩
  rw [hw handler.slot]
  exact hs.resting h handler hh

/-- A pool is settled again when one handler, the only one that waits at its
slot, has come to rest. -/
theorem Settled.put (hs : Settled m)
    (hother : ∀ j, j ≠ i → (w.server.clients j).connected = (m.world.server.clients j).connected)
    (hslot : ∀ handler, m.handlers h = some handler → handler.slot = i)
    (honly : ∀ h' handler, m.handlers h' = some handler → handler.control = .reading →
      handler.slot = i → h' = h) : Settled (m.put h i (w, rest w i)) := by
  have hself : (m.put h i (w, rest w i)).handlers h = some ⟨i, rest w i⟩ :=
    Function.update_self h _ m.handlers
  have hne : ∀ h', h' ≠ h → (m.put h i (w, rest w i)).handlers h' = m.handlers h' :=
    fun h' heq ↦ Function.update_of_ne heq _ m.handlers
  constructor
  · intro h' handler hh
    by_cases heq : h' = h
    · rw [heq, hself, Option.some.injEq] at hh
      subst hh
      unfold rest
      split
      next hc => exact .inr ⟨rfl, hc⟩
      next => exact .inl rfl
    · rw [hne h' heq] at hh
      obtain hdone | ⟨hreading, hconnected⟩ := hs.resting h' handler hh
      · exact .inl hdone
      · refine .inr ⟨hreading, ?_⟩
        have hi : handler.slot ≠ i := fun hi ↦ heq (honly h' handler hh hreading hi)
        exact (hother _ hi).trans hconnected
  · intro j hj
    by_cases heq : j = i
    · subst heq
      have hj' : (w.server.clients j).connected = true := hj
      refine ⟨h, hself.trans ?_⟩
      rw [rest, if_pos hj']
    · obtain ⟨h', hh⟩ := hs.served j ((hother j heq).symm.trans hj)
      have hnew : h' ≠ h := fun hnew ↦ heq (hslot _ (hnew ▸ hh))
      exact ⟨h', (hne h' hnew).trans hh⟩

structure Follows (w : World) (m : Pool) : Prop where
  world : m.world = w
  running : w.server.running = true
  kept : Rings m.world ∧ Manned m
  settled : Settled m

theorem initial_follows : Follows World.initial Pool.initial := by
  refine ⟨rfl, rfl, ⟨initial_rings, initial_manned⟩, fun h handler hh ↦ ?_, fun i hi ↦ ?_⟩
  · cases hh
  · cases hi

theorem step_kept (hm : Rings m.world ∧ Manned m) {x : Input} (hx : vacant m x = true) :
    Rings (step verify m x).world ∧ Manned (step verify m x) := by
  obtain ⟨i, es, hes⟩ := @step_handled verify m hm.1 x
  exact ⟨hes.rings, Turn.manned (step_turn m x) hm.1 hm.2 hx⟩

theorem along_going (n : ℕ) (m : Pool) (h : Fd) :
    Runs.Along (step verify) (fun m x ↦ vacant m x = true) m (List.replicate n (.go h)) := by
  induction n generalizing m with
  | zero => trivial
  | succ n ih => exact ⟨rfl, ih _⟩

theorem Follows.kept_along (hf : Follows w m) {ys : List Input}
    (hy : Runs.Along (step verify) (fun m x ↦ vacant m x = true) m ys) :
    Rings (Runs.run (step verify) m ys).world ∧ Manned (Runs.run (step verify) m ys) :=
  (Runs.Along.always (Q := fun m ↦ Rings m.world ∧ Manned m) (fun _ _ hm hx ↦ step_kept hm hx)
    hf.kept hy).last

theorem Follows.unnamed (hf : Follows w m) : m.handlers m.world.nextFd = none := by
  by_contra hne
  obtain ⟨handler, hh⟩ := Option.ne_none_iff_exists'.mp hne
  exact Nat.lt_irrefl _ (hf.kept.2.bounded _ handler hh)

theorem Follows.alone (hf : Follows w m) (h : Fd) : Alone m h :=
  fun _ handler _ hh ↦ hf.settled.free handler hh

theorem accept_follows (hf : Follows w m) (challenge : Challenge) (created : Bool) :
    ∃ ys, Runs.Along (step verify) (fun m x ↦ vacant m x = true) m ys ∧
      Follows (acceptClient w challenge created) (Runs.run (step verify) m ys) := by
  have hworld := hf.world
  subst hworld
  have haccept : step verify m (.accept challenge created) = acceptHandler m challenge created := by
    simp only [step, not_held (fun h handler hh ↦ hf.settled.free handler hh),
      Bool.false_eq_true, ↓reduceIte]
  have hrun := (acceptClient_running m.world challenge created).trans hf.running
  -- no handler is started: the table is full or the thread was not created
  have hidle : (∀ j, ((acceptClient m.world challenge created).server.clients j).connected =
        (m.world.server.clients j).connected) →
      acceptHandler m challenge created =
        { m with world := acceptClient m.world challenge created } →
      ∃ ys, Runs.Along (step verify) (fun m x ↦ vacant m x = true) m ys ∧
        Follows (acceptClient m.world challenge created) (Runs.run (step verify) m ys) := by
    intro hsame hpool
    have hy : Runs.Along (step verify) (fun m x ↦ vacant m x = true) m [.accept challenge created] :=
      ⟨hf.settled.vacant challenge created, trivial⟩
    have hkept := hf.kept_along hy
    rw [Runs.run_cons, Runs.run_nil, haccept, hpool] at hkept
    refine ⟨_, hy, ?_⟩
    rw [Runs.run_cons, Runs.run_nil, haccept, hpool]
    exact ⟨by with_reducible rfl, hrun, hkept, hf.settled.world hsame⟩
  cases hslot : freeSlot m.world.server with
  | none =>
    refine hidle (fun j ↦ ?_) ?_
    · rw [(acceptClient_full challenge created hslot).1]
    · unfold acceptHandler
      rw [hslot]
  | some i =>
    obtain ⟨hself, hother, _⟩ := acceptClient_slot challenge created hslot
    have hfree : (m.world.server.clients i).connected = false := (freeSlot_some hslot).2
    cases created with
    | false =>
      refine hidle (fun j ↦ ?_) ?_
      · by_cases hj : j = i
        · rw [hj, hself, hfree]
        · rw [hother j hj]
      · unfold acceptHandler
        rw [hslot]
        rfl
    | true =>
      have hpool : acceptHandler m challenge true =
          m.put m.world.nextFd i (acceptClient m.world challenge true, .testing) := by
        unfold acceptHandler
        rw [hslot]
        rfl
      have hconnected :
          ((acceptClient m.world challenge true).server.clients i).connected = true := by
        rw [hself]
      have htest : proceed verify (acceptClient m.world challenge true) i .testing =
          (acceptClient m.world challenge true, rest (acceptClient m.world challenge true) i) := by
        simp only [proceed, rest, hconnected, hrun, Bool.and_self, ↓reduceIte]
      have hy : Runs.Along (step verify) (fun m x ↦ vacant m x = true) m
          [.accept challenge true, .go m.world.nextFd] :=
        ⟨hf.settled.vacant challenge true, rfl, trivial⟩
      have hend : Runs.run (step verify) m [.accept challenge true, .go m.world.nextFd] =
          m.put m.world.nextFd i (acceptClient m.world challenge true,
            rest (acceptClient m.world challenge true) i) := by
        rw [Runs.run_cons, Runs.run_cons, Runs.run_nil, haccept, hpool, put_go (hf.alone _), htest]
      have hkept := hf.kept_along hy
      rw [hend] at hkept
      refine ⟨_, hy, ?_⟩
      rw [hend]
      refine ⟨by rw [put_world], hrun, hkept, hf.settled.put (fun j hj ↦ ?_) (fun handler hh ↦ ?_)
        (fun h handler hh hreading hi ↦ ?_)⟩
      · rw [hother j hj]
      · rw [hf.unnamed] at hh
        cases hh
      · obtain hdone | ⟨_, hbusy⟩ := hf.settled.resting h handler hh
        · rw [hdone] at hreading
          cases hreading
        · rw [hi, hfree] at hbusy
          cases hbusy

theorem environment_follows (hf : Follows w m) (env : Env) :
    Follows { w with env := env } (step verify m (.environment env)) := by
  have hworld := hf.world
  subst hworld
  exact ⟨rfl, hf.running, step_kept hf.kept rfl, hf.settled.world (fun _ ↦ rfl)⟩

theorem receive_follows (hf : Follows w m) (i : ℕ) (stream : Bytes)
    (hi : (w.server.clients i).connected = true) :
    ∃ ys, Runs.Along (step verify) (fun m x ↦ vacant m x = true) m ys ∧
      Follows (clientHandler verify w i stream) (Runs.run (step verify) m ys) := by
  have hworld := hf.world
  subst hworld
  obtain ⟨h, hh⟩ := hf.settled.served i hi
  have hgoes : Goes verify i (receiveRequest m.world i stream)
      (clientHandler verify m.world i stream, rest (clientHandler verify m.world i stream) i) :=
    goes_handler m.world i stream
  obtain ⟨n, hn⟩ := hgoes.steps (hf.alone h)
  have hy : Runs.Along (step verify) (fun m x ↦ vacant m x = true) m
      (.receive h stream :: List.replicate n (.go h)) := ⟨rfl, along_going n _ h⟩
  have hreceive : step verify m (.receive h stream) =
      m.put h i (receiveRequest m.world i stream) := by
    simp only [step, hh]
  rw [← hreceive] at hn
  have hkept := hf.kept_along hy
  rw [Runs.run_cons, hn] at hkept
  refine ⟨_, hy, ?_⟩
  rw [Runs.run_cons, hn]
  have hadmitted := takeRequest_admitted m.world i stream
  have hrun : (clientHandler verify m.world i stream).server.running = true := by
    rw [← hf.running]
    refine hgoes.running.trans ?_
    rw [receiveRequest_world]
    obtain ⟨r, hr⟩ := hadmitted.server
    rw [hr]
    rfl
  refine ⟨put_world m h i _ _, hrun, hkept, hf.settled.put (fun j hj ↦ ?_) (fun handler hh' ↦ ?_)
    (fun h' handler hh' hreading hslot ↦ ?_)⟩
  · refine (hgoes.others hj).trans ?_
    rw [receiveRequest_world]
    exact (hadmitted.identity j).1.connected
  · rw [hh, Option.some.injEq] at hh'
    rw [← hh']
  · have howner := hf.kept.2.owner h ⟨i, .reading⟩ hh (fun heq ↦ by cases heq)
    have howner' := hf.kept.2.owner h' handler hh' (fun heq ↦ by rw [hreading] at heq; cases heq)
    rw [hslot] at howner'
    exact Option.some.inj (howner'.symm.trans howner)

theorem step_follows (hf : Follows w m) (x : CChat.Server.Loop.Input) :
    ∃ ys, Runs.Along (step verify) (fun m x ↦ vacant m x = true) m ys ∧
      Follows (CChat.Server.Loop.step verify w x) (Runs.run (step verify) m ys) := by
  cases x with
  | accept challenge created => exact accept_follows hf challenge created
  | receive i stream env =>
    unfold CChat.Server.Loop.step
    dsimp only
    split
    next hi =>
      obtain ⟨ys, hy, hend⟩ := receive_follows (@environment_follows verify _ _ hf env) i
        stream hi
      exact ⟨.environment env :: ys, ⟨rfl, hy⟩, hend⟩
    next => exact ⟨[], trivial, hf⟩

/-- Every run that deals with one request at a time is one of the threaded
server: a schedule of its threads leads to the same world, no connection is put
into a slot whose handler is at work, and in the end every connection has a
handler that waits for bytes. -/
theorem runs_in_turns (xs : List CChat.Server.Loop.Input) :
    ∃ ys, Runs.Along (step verify) (fun m x ↦ vacant m x = true) Pool.initial ys ∧
      (reach verify ys).world = CChat.Server.Loop.reach verify xs ∧ Settled (reach verify ys) := by
  obtain ⟨ys, hy, hf⟩ := Runs.run_matched (R := Follows) (fun _ _ x hf ↦ step_follows hf x)
    initial_follows xs
  exact ⟨ys, hy, hf.world, hf.settled⟩

end CChat.Threads.Sequential
