import CChat.Server.HandlerEffects

namespace CChat.Server.Views

open CChat.Library CChat.Library.Circular CChat.Protocol.Types State Network Users Queue Handlers
  Loop Effects HandlerEffects

variable (verify : Signature → Challenge → Key → Bool)

inductive IdentityView (g : Guards) (i : ℕ) (w w' : World) : Prop
  | same (es : List Event) (hids : ∀ j, SameIdentity (w.server.clients j) (w'.server.clients j))
      (ho : w'.out = w.out ++ es) (hes : ∀ e ∈ es, Event.isLogin e = false)
  | login (username : Username) (signature : Signature) (fd : Fd) (k : ℕ)
      (hg : g.login w username) (hk : findUser w.server username = some k)
      (hv : verify signature (w.server.clients i).challenge (w.server.users k).publicKey = true)
      (hfd : (w.server.clients i).socketFd = some fd)
      (hself : w'.server.clients i =
        { w.server.clients i with authenticated := true, username := username })
      (hother : ∀ j, j ≠ i → w'.server.clients j = w.server.clients j)
      (ho : w'.out = w.out ++ [.login fd username signature (w.server.clients i).challenge
        (w.server.users k).publicKey])
  | logout (hg : g.logout)
      (hself : w'.server.clients i = { w.server.clients i with connected := false })
      (hother : ∀ j, j ≠ i → w'.server.clients j = w.server.clients j) (ho : w'.out = w.out)
  | close (hg : g.close w) (hself : w'.server.clients i = closedClient (w.server.clients i))
      (hother : ∀ j, j ≠ i → w'.server.clients j = w.server.clients j)
      (ho : w'.out = w.out ++ closedEvents (w.server.clients i).socketFd)

def Event.entry : Event → Option StoredMessage
  | .frame _ _ _ entry => entry
  | .queued entry => some entry
  | _ => none

inductive QueueView (g : Guards) (i : ℕ) (w w' : World) : Prop
  | same (es : List Event) (hq : ∀ j, (w'.server.clients j).queue = (w.server.clients j).queue)
      (ho : w'.out = w.out ++ es) (hes : ∀ e ∈ es, Event.entry e = none)
  | push (j : ℕ) (m : StoredMessage) (data : Bytes)
      (hi : (w.server.clients i).authenticated = true)
      (hj : holds (w.server.clients j) m.recipient = true)
      (hasked : Asked w i m.recipient data) (hsender : m.sender = (w.server.clients i).username)
      (hdata : m.encryptedData = some data) (hlen : m.encryptedLen = data.length)
      (hpos : 0 < data.length) (hfresh : m.delivered = false)
      (hroom : (w.server.clients j).queue.count < messageQueueSize)
      (hself : (w'.server.clients j).queue = push messageQueueSize (w.server.clients j).queue m)
      (hother : ∀ l, l ≠ j → (w'.server.clients l).queue = (w.server.clients l).queue)
      (ho : w'.out = w.out ++ [.queued m])
  | spoil (j : ℕ) (m : StoredMessage)
      (hroom : (w.server.clients j).queue.count < messageQueueSize)
      (hself : (w'.server.clients j).queue = writeTail (w.server.clients j).queue m)
      (hother : ∀ l, l ≠ j → (w'.server.clients l).queue = (w.server.clients l).queue)
      (ho : w'.out = w.out)
  | deliver (fd : Fd) (m : StoredMessage) (hi : (w.server.clients i).authenticated = true)
      (hcount : 0 < (w.server.clients i).queue.count)
      (hm : m = (w.server.clients i).queue.cells (w.server.clients i).queue.head)
      (hfresh : m.delivered = false) (hfd : (w.server.clients i).socketFd = some fd)
      (hself : (w'.server.clients i).queue = advanceHead messageQueueSize
        (writeHead (w.server.clients i).queue (StoredMessage.spent m)))
      (hother : ∀ l, l ≠ i → (w'.server.clients l).queue = (w.server.clients l).queue)
      (ho : w'.out = w.out ++ [.frame fd .incomingMessage (queuedPayload m) (some m)])
  | skip (hcount : 0 < (w.server.clients i).queue.count)
      (hold : ((w.server.clients i).queue.cells (w.server.clients i).queue.head).delivered = true)
      (hself : (w'.server.clients i).queue =
        advanceHead messageQueueSize (w.server.clients i).queue)
      (hother : ∀ l, l ≠ i → (w'.server.clients l).queue = (w.server.clients l).queue)
      (ho : w'.out = w.out)
  | close (hg : g.close w) (hself : (w'.server.clients i).queue = reset (w.server.clients i).queue)
      (hother : ∀ l, l ≠ i → (w'.server.clients l).queue = (w.server.clients l).queue)
      (ho : w'.out = w.out ++ closedEvents (w.server.clients i).socketFd)

inductive Cause (g : Guards) (i : ℕ) (w : World) : Event → Prop
  | emission (e : Event) (he : Emission w i e) : Cause g i w e
  | login (username : Username) (signature : Signature) (fd : Fd) (k : ℕ)
      (hg : g.login w username) (hk : findUser w.server username = some k)
      (hv : verify signature (w.server.clients i).challenge (w.server.users k).publicKey = true)
      (hfd : (w.server.clients i).socketFd = some fd) :
      Cause g i w (.login fd username signature (w.server.clients i).challenge
        (w.server.users k).publicKey)
  | queued (m : StoredMessage) : Cause g i w (.queued m)
  | delivered (fd : Fd) (m : StoredMessage) (hi : (w.server.clients i).authenticated = true)
      (hcount : 0 < (w.server.clients i).queue.count)
      (hm : m = (w.server.clients i).queue.cells (w.server.clients i).queue.head)
      (hfd : (w.server.clients i).socketFd = some fd) :
      Cause g i w (.frame fd .incomingMessage (queuedPayload m) (some m))
  | closed (fd : Fd) (hfd : (w.server.clients i).socketFd = some fd) : Cause g i w (.closed fd)

inductive UsersView (g : Guards) (i : ℕ) (w w' : World) : Prop
  | same (hu : w'.server.users = w.server.users) (hc : w'.server.userCount = w.server.userCount)
  | status (k : ℕ) (status : UserStatus) (hi : (w.server.clients i).authenticated = true)
      (hk : findUser w.server (w.server.clients i).username = some k)
      (hu : w'.server.users =
        Function.update w.server.users k { w.server.users k with status := status })
      (hc : w'.server.userCount = w.server.userCount)
      (ho : w'.out = w.out)
  | register (username : Username) (key : Key) (hg : g.register w)
      (hnew : findUser w.server username = none)
      (hu : w'.server.users =
        Function.update w.server.users w.server.userCount ⟨username, key, .offline, true⟩)
      (hc : w'.server.userCount = w.server.userCount + 1)

variable {verify} {g : Guards} {i : ℕ} {w w' : World}

theorem Effect.users (h : Effect verify g i w w') : UsersView g i w w' := by
  cases h with
  | silent h => exact .same (by rw [h.server]) (by rw [h.server])
  | setStatus k status hi hk hs _ ho => exact .status k status hi hk (by rw [hs]; rfl) (by rw [hs]; rfl) ho
  | register u key hg _ _ hnew hs =>
    exact .register u key hg hnew (by rw [hs]) (by rw [hs])
  | _ =>
    rename_i hs _ _
    exact .same ((congrArg ServerState.users hs).trans rfl)
      ((congrArg ServerState.userCount hs).trans rfl)

theorem Effect.cause (h : Effect verify g i w w') :
    w'.out = w.out ∨ ∃ e, w'.out = w.out ++ [e] ∧ Cause verify g i w e := by
  cases h with
  | silent h => exact .inl h.out
  | emit e he _ _ ho => exact .inr ⟨e, ho, .emission e he⟩
  | login u s fd k hg hk hv hfd _ _ ho => exact .inr ⟨_, ho, .login u s fd k hg hk hv hfd⟩
  | enqueue _ m _ _ _ _ _ _ _ _ _ _ _ _ ho => exact .inr ⟨_, ho, .queued m⟩
  | deliver fd m hi hcount hm _ hfd _ _ ho => exact .inr ⟨_, ho, .delivered fd m hi hcount hm hfd⟩
  | close _ _ _ ho =>
    cases hfd : (w.server.clients i).socketFd with
    | none =>
      rw [hfd] at ho
      exact .inl (ho.trans (List.append_nil _))
    | some fd =>
      rw [hfd] at ho
      exact .inr ⟨_, ho, .closed fd hfd⟩
  | _ =>
    rename_i ho
    exact .inl ho

theorem Effect.grows (h : Effect verify g i w w') : ∃ es, w'.out = w.out ++ es := by
  obtain ho | ⟨e, ho, _⟩ := Effect.cause h
  · exact ⟨[], by rw [ho, List.append_nil]⟩
  · exact ⟨[e], ho⟩

theorem Chain.grows (h : Chain verify g i w w') : ∃ es, w'.out = w.out ++ es := by
  induction h with
  | refl => exact ⟨[], (List.append_nil _).symm⟩
  | tail _ he ih =>
    obtain ⟨es, hes⟩ := ih
    obtain ⟨es', hes'⟩ := Effect.grows he
    exact ⟨es ++ es', by rw [hes', hes, List.append_assoc]⟩

theorem Emission.isLogin {e : Event} (h : Emission w i e) : Event.isLogin e = false := by
  cases h <;> rfl

theorem Emission.entry {e : Event} (h : Emission w i e) : Event.entry e = none := by
  cases h <;> rfl

theorem closedEvents_isLogin (fd : Option Fd) : ∀ e ∈ closedEvents fd, Event.isLogin e = false := by
  cases fd <;> simp [closedEvents, Event.isLogin]

theorem closedEvents_entry (fd : Option Fd) : ∀ e ∈ closedEvents fd, Event.entry e = none := by
  cases fd <;> simp [closedEvents, Event.entry]

theorem modifyClient_identity {j : ℕ} {f : ClientConnection → ClientConnection}
    (hs : w'.server = (w.modifyClient j f).server)
    (hf : SameIdentity (w.server.clients j) (f (w.server.clients j))) (l : ℕ) :
    SameIdentity (w.server.clients l) (w'.server.clients l) := by
  rw [hs]
  by_cases hl : l = j
  · subst hl
    rw [modifyClient_self]
    exact hf
  · rw [modifyClient_other _ _ hl]
    exact .refl _

theorem modifyClient_queue {j : ℕ} {f : ClientConnection → ClientConnection}
    (hs : w'.server = (w.modifyClient j f).server)
    (hf : (f (w.server.clients j)).queue = (w.server.clients j).queue) (l : ℕ) :
    (w'.server.clients l).queue = (w.server.clients l).queue := by
  rw [hs]
  by_cases hl : l = j
  · subst hl
    rw [modifyClient_self, hf]
  · rw [modifyClient_other _ _ hl]

theorem modifyClient_at {j : ℕ} {f : ClientConnection → ClientConnection}
    (hs : w'.server = (w.modifyClient j f).server) :
    w'.server.clients j = f (w.server.clients j) := by rw [hs, modifyClient_self]

theorem modifyClient_off {j : ℕ} {f : ClientConnection → ClientConnection}
    (hs : w'.server = (w.modifyClient j f).server) (l : ℕ) (hl : l ≠ j) :
    w'.server.clients l = w.server.clients l := by rw [hs, modifyClient_other _ _ hl]

theorem Effect.identity (h : Effect verify g i w w') : IdentityView verify g i w w' := by
  have hsame : ∀ es, w'.server.clients = w.server.clients → w'.out = w.out ++ es →
      (∀ e ∈ es, Event.isLogin e = false) → IdentityView verify g i w w' :=
    fun es hc ho hes ↦ .same es (fun j ↦ by rw [hc]; exact .refl _) ho hes
  have hnone : ∀ e ∈ ([] : List Event), Event.isLogin e = false := by simp
  cases h with
  | silent h => exact hsame [] (by rw [h.server]) (by rw [h.out, List.append_nil]) hnone
  | emit e he hs _ ho => exact hsame [e] (by rw [hs]) ho (by simpa using Emission.isLogin he)
  | tune c hc _ _ hs _ ho =>
    exact .same [] (modifyClient_identity hs hc) (by rw [ho, List.append_nil]) hnone
  | setStatus _ _ _ _ hs _ ho =>
    exact hsame [] (by rw [hs, modifyUser_clients]) (by rw [ho, List.append_nil]) hnone
  | register _ _ _ _ _ _ hs _ ho => exact hsame [] (by rw [hs]) (by rw [ho, List.append_nil]) hnone
  | login u s fd k hg hk hv hfd hs _ ho =>
    exact .login u s fd k hg hk hv hfd (modifyClient_at hs) (modifyClient_off hs) ho
  | nextId _ hs _ ho => exact hsame [] (by rw [hs]) (by rw [ho, List.append_nil]) hnone
  | enqueue j m _ _ _ _ _ _ _ _ _ _ hs _ ho =>
    exact .same [.queued m] (modifyClient_identity hs ⟨rfl, rfl, rfl, rfl, rfl⟩) ho
      (by simp [Event.isLogin])
  | spoil j _ _ _ hs _ ho =>
    exact .same [] (modifyClient_identity hs ⟨rfl, rfl, rfl, rfl, rfl⟩)
      (by rw [ho, List.append_nil]) hnone
  | deliver fd m _ _ _ _ _ hs _ ho =>
    exact .same _ (modifyClient_identity hs ⟨rfl, rfl, rfl, rfl, rfl⟩) ho
      (by simp [Event.isLogin])
  | skip _ _ _ hs _ ho =>
    exact .same [] (modifyClient_identity hs ⟨rfl, rfl, rfl, rfl, rfl⟩)
      (by rw [ho, List.append_nil]) hnone
  | logout hg hs _ ho => exact .logout hg (modifyClient_at hs) (modifyClient_off hs) ho
  | close hg hs _ ho => exact .close hg (modifyClient_at hs) (modifyClient_off hs) ho

theorem Effect.queue (h : Effect verify g i w w') : QueueView g i w w' := by
  have hsame : ∀ es, w'.server.clients = w.server.clients → w'.out = w.out ++ es →
      (∀ e ∈ es, Event.entry e = none) → QueueView g i w w' :=
    fun es hc ho hes ↦ .same es (fun j ↦ by rw [hc]) ho hes
  have hnone : ∀ e ∈ ([] : List Event), Event.entry e = none := by simp
  have hoff : ∀ {j : ℕ} {f : ClientConnection → ClientConnection},
      w'.server = (w.modifyClient j f).server →
      ∀ l, l ≠ j → (w'.server.clients l).queue = (w.server.clients l).queue :=
    fun hs l hl ↦ by rw [modifyClient_off hs l hl]
  cases h with
  | silent h => exact hsame [] (by rw [h.server]) (by rw [h.out, List.append_nil]) hnone
  | emit e he hs _ ho => exact hsame [e] (by rw [hs]) ho (by simpa using Emission.entry he)
  | tune c _ hq _ hs _ ho =>
    exact .same [] (modifyClient_queue hs hq) (by rw [ho, List.append_nil]) hnone
  | setStatus _ _ _ _ hs _ ho =>
    exact hsame [] (by rw [hs, modifyUser_clients]) (by rw [ho, List.append_nil]) hnone
  | register _ _ _ _ _ _ hs _ ho => exact hsame [] (by rw [hs]) (by rw [ho, List.append_nil]) hnone
  | login _ _ _ _ _ _ _ _ hs _ ho =>
    exact .same _ (modifyClient_queue hs rfl) ho (by simp [Event.entry])
  | nextId _ hs _ ho => exact hsame [] (by rw [hs]) (by rw [ho, List.append_nil]) hnone
  | enqueue j m data hi hj ha hsnd hd hlen hp hf hr hs _ ho =>
    exact .push j m data hi hj ha hsnd hd hlen hp hf hr (by rw [modifyClient_at hs]) (hoff hs) ho
  | spoil j m _ hr hs _ ho => exact .spoil j m hr (by rw [modifyClient_at hs]) (hoff hs) ho
  | deliver fd m hi hc hm hf hfd hs _ ho =>
    exact .deliver fd m hi hc hm hf hfd (by rw [modifyClient_at hs]) (hoff hs) ho
  | skip _ hc hold hs _ ho => exact .skip hc hold (by rw [modifyClient_at hs]) (hoff hs) ho
  | logout _ hs _ ho =>
    exact .same [] (modifyClient_queue hs rfl) (by rw [ho, List.append_nil]) hnone
  | close hg hs _ ho => exact .close hg (by rw [modifyClient_at hs]; rfl) (hoff hs) ho

theorem Effect.table (h : Effect verify g i w w') :
    w'.server.clientCount = w.server.clientCount ∧ w'.server.running = w.server.running ∧
      w'.nextFd = w.nextFd := by
  cases h with
  | silent h => exact ⟨by rw [h.server], by rw [h.server], h.nextFd⟩
  | _ =>
    rename_i hs hn _
    exact ⟨(congrArg ServerState.clientCount hs).trans rfl,
      (congrArg ServerState.running hs).trans rfl, hn⟩

end CChat.Server.Views
