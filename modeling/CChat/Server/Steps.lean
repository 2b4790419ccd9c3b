import CChat.Server.Views

namespace CChat.Server.Steps

open CChat.Library CChat.Library.Circular CChat.Protocol.Types State Network Users Queue Handlers
  Loop Effects HandlerEffects Views

variable {verify : Signature → Challenge → Key → Bool} {g : Guards} {i : ℕ}

theorem checkRateLimit_server (w : World) (i : ℕ) : ∃ r,
    (checkRateLimit w i).2.server =
      (w.modifyClient i (fun c ↦ { c with rateLimit := r })).server ∧
    (checkRateLimit w i).2.out = w.out ∧ (checkRateLimit w i).2.nextFd = w.nextFd := by
  have h := time_silent w
  unfold checkRateLimit
  dsimp only
  split
  · exact ⟨⟨(time w).1, 0⟩, by simp only [World.modifyClient, h.server], h.out, h.nextFd⟩
  · refine ⟨(w.server.clients i).rateLimit, ?_, h.out, h.nextFd⟩
    rw [h.server]
    simp [World.modifyClient]

theorem updateRateLimit_server (w : World) (i : ℕ) : ∃ r,
    (updateRateLimit w i).server = (w.modifyClient i (fun c ↦ { c with rateLimit := r })).server ∧
    (updateRateLimit w i).out = w.out ∧ (updateRateLimit w i).nextFd = w.nextFd :=
  ⟨_, rfl, rfl, rfl⟩

theorem rated_chain {w w' : World} {r : RateLimit}
    (h : w'.server = (w.modifyClient i (fun c ↦ { c with rateLimit := r })).server)
    (ho : w'.out = w.out) (hn : w'.nextFd = w.nextFd) : Chain verify g i w w' :=
  .single (.tune { w.server.clients i with rateLimit := r } ⟨rfl, rfl, rfl, rfl, rfl⟩ rfl
    (.inr ⟨r, rfl⟩) h hn ho)

structure Admitted (w : World) (i : ℕ) (w' : World) : Prop where
  server : ∃ r, w'.server = (w.modifyClient i (fun c ↦ { c with rateLimit := r })).server

theorem Admitted.identity {w w' : World} (h : Admitted w i w') (j : ℕ) :
    SameIdentity (w.server.clients j) (w'.server.clients j) ∧
      (w'.server.clients j).queue = (w.server.clients j).queue := by
  obtain ⟨r, hr⟩ := h.server
  rw [hr]
  by_cases hj : j = i
  · subst hj
    rw [modifyClient_self]
    exact ⟨⟨rfl, rfl, rfl, rfl, rfl⟩, rfl⟩
  · rw [modifyClient_other _ _ hj]
    exact ⟨.refl _, rfl⟩

theorem Admitted.users {w w' : World} (h : Admitted w i w') :
    w'.server.users = w.server.users ∧ w'.server.userCount = w.server.userCount := by
  obtain ⟨r, hr⟩ := h.server
  rw [hr]
  exact ⟨rfl, rfl⟩

theorem Admitted.of_server {w w' : World} (h : w'.server = w.server) : Admitted w i w' :=
  ⟨(w.server.clients i).rateLimit, by rw [h]; simp [World.modifyClient]⟩

theorem Admitted.limited {w v w' : World} (h : Admitted w i v) {r : RateLimit}
    (hw : w'.server = (v.modifyClient i (fun c ↦ { c with rateLimit := r })).server) :
    Admitted w i w' := by
  obtain ⟨r', hv⟩ := h.server
  refine ⟨r, hw.trans ?_⟩
  simp only [World.modifyClient, hv, Function.update_self, Function.update_idem]

theorem takeRequest_admitted (w : World) (i : ℕ) (stream : Bytes) :
    Admitted w i (takeRequest w i stream).2 := by
  have hreceived : Admitted w i (receiveNetworkMessage w stream).2 :=
    .of_server (receiveNetworkMessage_silent w stream).server
  unfold takeRequest
  dsimp only
  split
  · exact hreceived
  · exact hreceived
  · generalize (receiveNetworkMessage w stream).2 = v at hreceived ⊢
    obtain ⟨r, hlimit, _, _⟩ := checkRateLimit_server v i
    have hrated := hreceived.limited hlimit
    split
    · exact ⟨by rw [sendError_server]; exact hrated.server⟩
    · obtain ⟨r', hcounted, _, _⟩ := updateRateLimit_server (checkRateLimit v i).2 i
      split
      · exact hrated.limited hcounted
      · exact ⟨(hrated.limited hcounted).server⟩

theorem takeRequest_chain {w : World} {fd : Fd} (stream : Bytes)
    (hfd : (w.server.clients i).socketFd = some fd) :
    Chain verify g i w (takeRequest w i stream).2 ∧ Admitted w i (takeRequest w i stream).2 ∧
      ∀ type payload, (takeRequest w i stream).1 = some (type, payload) →
        ∃ pre, (takeRequest w i stream).2.out = pre ++ [.request fd type payload] := by
  have hr := receiveNetworkMessage_silent w stream
  have hreceived : Admitted w i (receiveNetworkMessage w stream).2 := .of_server hr.server
  unfold takeRequest
  dsimp only
  split
  · exact ⟨Chain.of_silent hr, hreceived, by intro _ _ h; cases h⟩
  · exact ⟨Chain.of_silent hr, hreceived, by intro _ _ h; cases h⟩
  next type payload _ =>
    generalize (receiveNetworkMessage w stream).2 = v at hr hreceived ⊢
    obtain ⟨r, hcs, hco, hcn⟩ := checkRateLimit_server v i
    generalize checkRateLimit v i = allowed at hcs hco hcn ⊢
    have hstart : Chain verify g i w allowed.2 :=
      (Chain.of_silent hr).trans (rated_chain hcs hco hcn)
    have hrated := hreceived.limited hcs
    split
    · exact ⟨hstart.trans (sendError_chain _ _ _ (.inr (by unfold Refusal.short; decide))),
        ⟨by rw [sendError_server]; exact hrated.server⟩, by intro _ _ h; cases h⟩
    · obtain ⟨r', hus, huo, hun⟩ := updateRateLimit_server allowed.2 i
      generalize updateRateLimit allowed.2 i = counted at hus huo hun ⊢
      have hcounted : Chain verify g i w counted := hstart.trans (rated_chain hus huo hun)
      have hadm := hrated.limited hus
      have hfd' : (counted.server.clients i).socketFd = some fd :=
        (hadm.identity i).1.socketFd.trans hfd
      rw [hfd']
      refine ⟨hcounted.tail (.emit _ (.request fd type payload hfd') rfl rfl rfl),
        ⟨hadm.server⟩, ?_⟩
      intro type' payload' h
      cases h
      exact ⟨counted.out, rfl⟩

theorem goOffline_chain (w : World) :
    Chain verify g i w (goOffline w i) ∧ (goOffline w i).server.clients = w.server.clients := by
  unfold goOffline
  dsimp only
  split
  next hauth =>
    simp only [Bool.and_eq_true] at hauth
    split
    · exact ⟨.refl, rfl⟩
    next k hk =>
      have hset : Effect verify g i w (w.modifyUser k (fun u ↦ { u with status := .offline })) :=
        .setStatus k .offline hauth.1 hk rfl rfl rfl
      have hb := @broadcast_chain verify g i
        (w.modifyUser k (fun u ↦ { u with status := .offline })) .offline
        (by simpa using hauth.1)
      rw [modifyUser_clients] at hb
      exact ⟨.head hset hb.1, by rw [hb.2]; rfl⟩
  · exact ⟨.refl, rfl⟩

theorem terminate_chain {w : World}
    (hclose : ∀ w₁ : World, w₁.server.clients = w.server.clients → g.close w₁) :
    Chain verify g i w (terminate w i) ∧
      (terminate w i).server.clients i = closedClient (w.server.clients i) := by
  obtain ⟨hchain, hclients⟩ := @goOffline_chain verify g i w
  have hsocket : (closeSocket (goOffline w i) i).server = (goOffline w i).server ∧
      (closeSocket (goOffline w i) i).nextFd = (goOffline w i).nextFd ∧
      (closeSocket (goOffline w i) i).out = (goOffline w i).out ++
        closedEvents ((goOffline w i).server.clients i).socketFd := by
    unfold closeSocket
    split
    next hnone => exact ⟨rfl, rfl, by rw [hnone]; simp [closedEvents]⟩
    next fd hfd => exact ⟨rfl, rfl, by rw [hfd]; rfl⟩
  refine ⟨hchain.tail (.close (hclose _ hclients) ?_ hsocket.2.1 hsocket.2.2), ?_⟩
  · simp only [terminate, World.modifyClient, hsocket.1]
    rfl
  · rw [terminate, modifyClient_self, hsocket.1, hclients]
    rfl

theorem Chain.table {w w' : World} (h : Chain verify g i w w') :
    w'.server.clientCount = w.server.clientCount ∧ w'.server.running = w.server.running ∧
      w'.nextFd = w.nextFd := by
  induction h with
  | refl => exact ⟨rfl, rfl, rfl⟩
  | tail _ he ih =>
    have h := Effect.table he
    exact ⟨h.1.trans ih.1, h.2.1.trans ih.2.1, h.2.2.trans ih.2.2⟩

theorem Effect.connected (ho : ¬ g.logout) (hc : ∀ w, ¬ g.close w) {w w' : World}
    (h : Effect verify g i w w') :
    (w'.server.clients i).connected = (w.server.clients i).connected := by
  cases Effect.identity h with
  | same _ hids => exact (hids i).connected
  | login _ _ _ _ _ _ _ _ hself => rw [hself]
  | logout hg => exact absurd hg ho
  | close hg => exact absurd hg (hc w)

theorem Chain.connected (ho : ¬ g.logout) (hc : ∀ w, ¬ g.close w) {w w' : World}
    (h : Chain verify g i w w') :
    (w'.server.clients i).connected = (w.server.clients i).connected := by
  induction h with
  | refl => rfl
  | tail _ he ih => exact (Effect.connected ho hc he).trans ih

theorem step_receive {w : World} (stream : Bytes) (env : Env)
    (hconn : (w.server.clients i).connected = true) :
    step verify w (.receive i stream env) = clientHandler verify { w with env := env } i stream := by
  simp only [step, hconn, ↓reduceIte]

def received (w : World) (i : ℕ) (stream : Bytes) (env : Env) : Option (UInt8 × Bytes) :=
  (takeRequest { w with env := env } i stream).1

/-- The turn accepts a login under this name: the request gets through, names a
registered user and bears a signature over the slot's challenge that verifies
under that user's key. -/
def AcceptsLogin (verify : Signature → Challenge → Key → Bool) (w : World) (i : ℕ) (stream : Bytes)
    (env : Env) (username : Username) : Prop :=
  ∃ payload signature k,
    received w i stream env = some (MessageType.loginUser.code, payload) ∧
    parseLogin payload = .ok (username, signature) ∧ findUser w.server username = some k ∧
    verify signature (w.server.clients i).challenge (w.server.users k).publicKey = true

theorem acceptsLogin_iff {w : World} {stream : Bytes} {env : Env} {username : Username} :
    AcceptsLogin verify w i stream env username ↔
      ∃ request ∈ received w i stream env, request.1 = MessageType.loginUser.code ∧
        ∃ login ∈ (parseLogin request.2).toOption, login.1 = username ∧
          ∃ k ∈ findUser w.server username,
            verify login.2 (w.server.clients i).challenge (w.server.users k).publicKey = true := by
  refine ⟨?_, ?_⟩
  · rintro ⟨payload, signature, k, hreq, hparse, hk, hv⟩
    exact ⟨_, hreq, rfl, (username, signature), by simp [hparse, Except.toOption], rfl, k, hk, hv⟩
  · rintro ⟨⟨type, payload⟩, hreq, htype, ⟨name, signature⟩, hparse, hname, k, hk, hv⟩
    cases h : parseLogin payload with
    | error e => simp [h, Except.toOption] at hparse
    | ok login =>
      have hlogin : login = (name, signature) := by simpa [h, Except.toOption] using hparse
      dsimp only at htype hname hv
      subst htype hname hlogin
      exact ⟨payload, signature, k, hreq, h, hk, hv⟩

instance {w : World} {stream : Bytes} {env : Env} {username : Username} :
    Decidable (AcceptsLogin verify w i stream env username) := decidable_of_iff' _ acceptsLogin_iff

theorem acceptsLogin_forall {w : World} {stream : Bytes} {env : Env} {P : Username → Prop} :
    (∀ username, AcceptsLogin verify w i stream env username → P username) ↔
      ∀ request ∈ received w i stream env, request.1 = MessageType.loginUser.code →
        ∀ login ∈ (parseLogin request.2).toOption, ∀ k ∈ findUser w.server login.1,
          verify login.2 (w.server.clients i).challenge (w.server.users k).publicKey = true →
            P login.1 := by
  refine ⟨fun h request hreq htype login hparse k hk hv ↦ h login.1 ?_, fun h username hlogin ↦ ?_⟩
  · exact acceptsLogin_iff.mpr ⟨request, hreq, htype, login, hparse, rfl, k, hk, hv⟩
  · obtain ⟨request, hreq, htype, login, hparse, rfl, k, hk, hv⟩ := acceptsLogin_iff.mp hlogin
    exact h request hreq htype login hparse k hk hv

/-- The turn is the connection's last: nothing gets through, or a `LOGOUT` does. -/
def Ends (w : World) (i : ℕ) (stream : Bytes) (env : Env) : Prop :=
  received w i stream env = none ∨
    ∃ payload, received w i stream env = some (MessageType.logout.code, payload)

theorem ends_iff {w : World} {stream : Bytes} {env : Env} :
    Ends w i stream env ↔
      ∀ request ∈ received w i stream env, request.1 = MessageType.logout.code := by
  unfold Ends
  cases received w i stream env with
  | none => simp
  | some request =>
    obtain ⟨type, payload⟩ := request
    simp

instance {w : World} {stream : Bytes} {env : Env} : Decidable (Ends w i stream env) :=
  decidable_of_iff' _ ends_iff

/-- The user table and slot `i` are in the second world what they were in the
first, the rate limit left aside. -/
structure Untouched (w : World) (i : ℕ) (w₁ : World) : Prop where
  identity : SameIdentity (w.server.clients i) (w₁.server.clients i)
  queue : (w₁.server.clients i).queue = (w.server.clients i).queue
  users : w₁.server.users = w.server.users
  userCount : w₁.server.userCount = w.server.userCount

def turnGuards (verify : Signature → Challenge → Key → Bool) (w : World) (i : ℕ) (stream : Bytes)
    (env : Env) : Guards where
  login w₁ username := AcceptsLogin verify w i stream env username ∧ Untouched w i w₁
  register w₁ := Untouched w i w₁
  logout := Ends w i stream env
  close w₁ := Ends w i stream env ∧ (w₁.server.clients i).queue = (w.server.clients i).queue

theorem not_ends {w : World} {stream : Bytes} {env : Env} {type : UInt8} {payload : Bytes}
    (hreq : received w i stream env = some (type, payload)) (htype : type ≠ MessageType.logout.code) :
    ¬ Ends w i stream env := by
  intro hends
  exact htype (ends_iff.mp hends (type, payload) hreq)

/-- Every request but `LOGOUT` leaves the slot connected, so that its handler
does nothing but handle it. -/
theorem clientHandler_dispatch {w : World} {fd : Fd} {stream : Bytes} {env : Env} {type : UInt8}
    {payload : Bytes} (hfd : (w.server.clients i).socketFd = some fd)
    (hconn : (w.server.clients i).connected = true) (hrun : w.server.running = true)
    (hreq : received w i stream env = some (type, payload))
    (htype : type ≠ MessageType.logout.code) :
    clientHandler verify { w with env := env } i stream =
        dispatch verify (takeRequest { w with env := env } i stream).2 i type payload ∧
      Chain verify (turnGuards verify w i stream env) i w
        (clientHandler verify { w with env := env } i stream) ∧
      ((clientHandler verify { w with env := env } i stream).server.clients i).connected = true := by
  obtain ⟨hadm, hsame, hout⟩ := @takeRequest_chain verify (turnGuards verify w i stream env) i
    { w with env := env } fd stream hfd
  have hidentity := hsame.identity i
  have husers := hsame.users
  obtain ⟨pre, hpre⟩ := hout type payload hreq
  have hreq' : (takeRequest { w with env := env } i stream).1 = some (type, payload) := hreq
  unfold clientHandler
  dsimp only
  rw [hreq']
  dsimp only
  generalize (takeRequest { w with env := env } i stream).2 = v at hadm hidentity husers hpre ⊢
  have hfd' : (v.server.clients i).socketFd = some fd := hidentity.1.socketFd.trans hfd
  have huntouched : Untouched w i v := ⟨hidentity.1, hidentity.2, husers.1, husers.2⟩
  have hlogin : type = MessageType.loginUser.code → ∀ username signature k,
      parseLogin payload = .ok (username, signature) → findUser v.server username = some k →
      verify signature (v.server.clients i).challenge (v.server.users k).publicKey = true →
      AcceptsLogin verify w i stream env username ∧ Untouched w i v := by
    intro htype' username signature k hparse hk hverify
    subst htype'
    refine ⟨⟨payload, signature, k, hreq, hparse, ?_, ?_⟩, huntouched⟩
    · rw [← findUser_congr husers.1 husers.2]
      exact hk
    · rw [hidentity.1.challenge, husers.1] at hverify
      exact hverify
  have hquiet : Chain verify { turnGuards verify w i stream env with
      logout := False, close := fun _ ↦ False } i v (dispatch verify v i type payload) :=
    dispatch_chain hfd' hpre hlogin huntouched (fun h ↦ absurd h htype)
  have hconn' : ((dispatch verify v i type payload).server.clients i).connected = true := by
    rw [Chain.connected not_false (fun _ ↦ not_false) hquiet, hidentity.1.connected]
    exact hconn
  have hrun' : (dispatch verify v i type payload).server.running = true := by
    rw [(Chain.table hquiet).2.1, (Chain.table hadm).2.1]
    exact hrun
  have hwhole : Chain verify (turnGuards verify w i stream env) i v
      (dispatch verify v i type payload) := by
    refine Chain.mono ⟨?_, ?_, ?_, ?_⟩ hquiet
    · exact fun _ _ h ↦ h
    · exact fun _ h ↦ h
    · exact False.elim
    · exact fun _ ↦ False.elim
  have hstart : Chain verify (turnGuards verify w i stream env) i w { w with env := env } :=
    Chain.of_silent ⟨rfl, rfl, rfl⟩
  rw [if_pos (by rw [hconn', hrun']; rfl)]
  exact ⟨rfl, (hstart.trans hadm).trans hwhole, hconn'⟩

theorem clientHandler_ends {w : World} {fd : Fd} {stream : Bytes} {env : Env}
    (hfd : (w.server.clients i).socketFd = some fd) (hends : Ends w i stream env) :
    Chain verify (turnGuards verify w i stream env) i w
        (clientHandler verify { w with env := env } i stream) ∧
      ∃ c, (clientHandler verify { w with env := env } i stream).server.clients i =
        closedClient c := by
  have hstart : Chain verify (turnGuards verify w i stream env) i w { w with env := env } :=
    Chain.of_silent ⟨rfl, rfl, rfl⟩
  obtain ⟨hadm, hsame, _⟩ := @takeRequest_chain verify (turnGuards verify w i stream env) i
    { w with env := env } fd stream hfd
  have hidentity := hsame.identity i
  unfold clientHandler
  dsimp only
  obtain hreq | ⟨payload, hreq⟩ := id hends
  · rw [received] at hreq
    rw [hreq]
    obtain ⟨hterm, hclosed⟩ := @terminate_chain verify
      (turnGuards verify w i stream env) i (takeRequest { w with env := env } i stream).2
      (fun w₁ hw₁ ↦ ⟨hends, by rw [hw₁]; exact hidentity.2⟩)
    exact ⟨(hstart.trans hadm).trans hterm, _, hclosed⟩
  · rw [received] at hreq
    rw [hreq]
    dsimp only
    generalize (takeRequest { w with env := env } i stream).2 = v at hadm hidentity ⊢
    have hhandled : dispatch verify v i MessageType.logout.code payload =
        v.modifyClient i (fun c ↦ { c with connected := false }) := by
      simp [dispatch, handleLogout, MessageType.code]
    rw [hhandled, modifyClient_self]
    obtain ⟨hterm, hclosed⟩ := @terminate_chain verify
      (turnGuards verify w i stream env) i
      (v.modifyClient i (fun c ↦ { c with connected := false }))
      (fun w₁ hw₁ ↦ ⟨hends, by rw [hw₁, modifyClient_self]; exact hidentity.2⟩)
    have hlog : Effect verify (turnGuards verify w i stream env) i v
        (v.modifyClient i (fun c ↦ { c with connected := false })) := .logout hends rfl rfl rfl
    exact ⟨((hstart.trans hadm).tail hlog).trans hterm, _, hclosed⟩

/-- One turn of a handler is a chain of effects of its slot, and leaves the slot
connected or closed. -/
theorem clientHandler_chain {w : World} {fd : Fd} (stream : Bytes) (env : Env)
    (hfd : (w.server.clients i).socketFd = some fd)
    (hconn : (w.server.clients i).connected = true) (hrun : w.server.running = true) :
    Chain verify (turnGuards verify w i stream env) i w
      (clientHandler verify { w with env := env } i stream) ∧
    (((clientHandler verify { w with env := env } i stream).server.clients i).connected = true ∧
        ¬ Ends w i stream env ∨
      (∃ c, (clientHandler verify { w with env := env } i stream).server.clients i =
        closedClient c) ∧ Ends w i stream env) := by
  by_cases hends : Ends w i stream env
  · obtain ⟨hchain, hclosed⟩ := @clientHandler_ends verify i w fd stream env hfd hends
    exact ⟨hchain, .inr ⟨hclosed, hends⟩⟩
  · have hsome : ∃ request ∈ received w i stream env, request.1 ≠ MessageType.logout.code := by
      simpa [ends_iff] using hends
    obtain ⟨⟨type, payload⟩, hreq, htype⟩ := hsome
    obtain ⟨_, hchain, hstays⟩ := @clientHandler_dispatch verify i w fd stream env type payload hfd
      hconn hrun hreq htype
    exact ⟨hchain, .inl ⟨hstays, hends⟩⟩

end CChat.Server.Steps
