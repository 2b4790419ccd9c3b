import CChat.Server.Registry
import CChat.Server.Unchanged
import CChat.Threads.Machine

namespace CChat.Threads.Sections

open CChat.Library CChat.Library.Circular CChat.Protocol.Types CChat.Server.State
  CChat.Server.Network CChat.Server.Users CChat.Server.Queue CChat.Server.Handlers
  CChat.Server.Effects CChat.Server.Pushes CChat.Server.HandlerEffects CChat.Server.Views
  CChat.Server.Steps CChat.Server.Registry CChat.Server.Unchanged Machine
open CChat.Server.Loop hiding Input step reach

variable {verify : Signature → Challenge → Key → Bool} {w w' : World} {i : ℕ} {c : Control}

def Control.writes : Control → Option (ℕ × UserStatus)
  | .onlining k _ => some (k, .online)
  | .settingUser k status => some (k, status)
  | .offlining k => some (k, .offline)
  | _ => none

inductive Section (verify : Signature → Challenge → Key → Bool) (w : World) (i : ℕ) (c : Control)
    (w' : World) : Prop
  | still (h : Still w w')
  | added (username : Username) (key : Key) (hc : c = .registering username key)
      (h : Added w.server username key w'.server) (hw : w' = (addUser w username key).2)
  | login (k : ℕ) (username : Username) (signature : Signature)
      (hc : c = .accrediting k username signature)
      (hv : verify signature (w.server.clients i).challenge (w.server.users k).publicKey = true)
      (hs : w'.server = (w.modifyClient i (fun c ↦
        { c with authenticated := true, username := username })).server)
      (ho : w'.out = w.out ++ ((w.server.clients i).socketFd.map (fun fd ↦ Event.login fd username
        signature (w.server.clients i).challenge (w.server.users k).publicKey)).toList)
  | status (k : ℕ) (status : UserStatus) (hc : Control.writes c = some (k, status))
      (hw : w' = w.modifyUser k (fun u ↦ { u with status := status }))
  | hangUp (hc : c = .hangingUp)
      (hw : w' = w.modifyClient i (fun c ↦ { c with connected := false }))
  | shut (hc : c = .shutting) (hs : w'.server = (w.modifyClient i closedClient).server)
      (ho : w'.out = w.out ++ closedEvents (w.server.clients i).socketFd)

section Neutral

variable {R : World → World → Prop}

theorem Neutral.storeMessage (h : Neutral R) (w : World) (j : ℕ) (recipient sender : Username)
    (data : Bytes) : R w (storeMessage w j recipient sender data) := by
  unfold Machine.storeMessage
  split
  · exact h.refl w
  · have hroom := h.trans (h.trans (h.draw w) (h.clock _)) (h.alloc _)
    dsimp only
    split
    · exact h.trans hroom (h.requeue _ j (fun c ↦ writeTail c.queue _))
    · exact h.trans hroom (h.trans (h.requeue _ j (fun c ↦ push messageQueueSize c.queue _))
        (h.queued _ _))

theorem Neutral.sending (h : Neutral R) (w : World) (i : ℕ) (id : UInt32) (recipient : Username)
    (data : Bytes) (j : ℕ) : R w (proceed verify w i (.sending id recipient data j)).1 := by
  have hroom := h.trans (h.clock w) (h.alloc (time w).2)
  simp only [proceed]
  split
  · exact hroom
  · have hsent := h.trans hroom (h.pushed (malloc (time w).2).2 (w.server.clients j).socketFd
      .incomingMessage (directPayload id (w.server.clients i).username (time w).1 data) none
      (.inl rfl))
    split
    · exact hsent
    · exact hsent

theorem Neutral.sweeping (h : Neutral R) (w : World) (i : ℕ) (username : Username)
    (status : UserStatus) (j : ℕ) (after : After) :
    R w (proceed verify w i (.sweeping username status j after)).1 := by
  simp only [proceed]
  split
  · split
    · exact h.pushed w _ _ _ _ (.inr rfl)
    · exact h.refl w
  · exact h.refl w

end Neutral

theorem proceed_section (w : World) (i : ℕ) (c : Control) :
    Section verify w i c (proceed verify w i c).1 := by
  cases c with
  | reading => exact .still (.refl w)
  | testing => exact .still (.refl w)
  | refusing e => exact .still (refuse_still w i e)
  | replying type payload => exact .still (reply_still w i type payload)
  | registering username key =>
    by_cases h : (addUser w username key).1 = 0
    · exact .added username key rfl (addUser_zero h) rfl
    · have hfails : (proceed verify w i (.registering username key)).1 = w := addUser_fails h
      rw [hfails]
      exact .still (.refl w)
  | identifying username signature =>
    simp only [proceed]
    split <;> exact .still (.refl w)
  | accrediting k username signature =>
    simp only [proceed]
    split
    · exact .still (.refl w)
    next hv =>
      have hv' : verify signature (w.server.clients i).challenge (w.server.users k).publicKey =
          true := by simpa using hv
      split
      next hfd => exact .login k username signature rfl hv' rfl (by simp [hfd])
      next fd hfd => exact .login k username signature rfl hv' rfl (by simp [hfd])
  | onlining k username => exact .status k .online rfl rfl
  | announcing username status after =>
    simp only [proceed]
    split <;> exact .still (malloc_still w)
  | sweeping username status j after =>
    exact .still (Neutral.sweeping still_neutral w i username status j after)
  | delivering => exact .still (still_neutral.deliverQueuedMessages w i)
  | seekingKey username =>
    simp only [proceed]
    split <;> exact .still (.refl w)
  | copyingKey k username => exact .still (.refl w)
  | seekingRecipient recipient data =>
    simp only [proceed]
    split <;> exact .still (.refl w)
  | drawing recipient data => exact .still (drawMessageId_still w)
  | locating id recipient data =>
    simp only [proceed]
    split <;> exact .still (.refl w)
  | sending id recipient data j =>
    exact .still (Neutral.sending still_neutral w i id recipient data j)
  | queueing id recipient data =>
    simp only [proceed]
    split
    · exact .still (.refl w)
    · split <;> exact .still (.refl w)
  | storing id recipient data j =>
    exact .still (Neutral.storeMessage still_neutral w j recipient _ data)
  | fetching => exact .still (still_neutral.deliverQueuedMessages w i)
  | seekingSelf status =>
    simp only [proceed]
    split <;> exact .still (.refl w)
  | settingUser k status => exact .status k status rfl rfl
  | settingClient status =>
    have hset : Still w (w.modifyClient i (fun c ↦ { c with status := status })) :=
      modifyClient_still w i ⟨rfl, rfl, rfl, rfl, rfl⟩
    exact .still hset
  | listing =>
    simp only [proceed]
    split <;> exact .still (malloc_still w)
  | snapshotting k users =>
    simp only [proceed]
    split <;> exact .still (.refl w)
  | hangingUp => exact .hangUp rfl rfl
  | closing =>
    simp only [proceed]
    split
    · split <;> exact .still (.refl w)
    · exact .still (.refl w)
  | offlining k => exact .status k .offline rfl rfl
  | shutting =>
    have hsocket : (closeSocket w i).server = w.server ∧
        (closeSocket w i).out = w.out ++ closedEvents (w.server.clients i).socketFd := by
      unfold closeSocket
      split
      next hfd => exact ⟨rfl, by rw [hfd]; exact (List.append_nil _).symm⟩
      next fd hfd => exact ⟨rfl, by rw [hfd]; rfl⟩
    refine .shut rfl ?_ hsocket.2
    simp only [proceed, World.modifyClient, hsocket.1]
    rfl
  | done => exact .still (.refl w)

theorem receiveRequest_world (w : World) (i : ℕ) (stream : Bytes) :
    (receiveRequest w i stream).1 = (takeRequest w i stream).2 := by
  unfold receiveRequest
  dsimp only
  split <;> rfl

theorem parsed_of {α : Type} {P : Control → Prop} {next : α → Control} (r : Except Refusal α)
    (hrefuse : ∀ e, P (.refusing e)) (h : ∀ a, P (next a)) : P (parsed r next) := by
  cases r with
  | error e => exact hrefuse e
  | ok a => exact h a

theorem loggedInOnly_of {P : Control → Prop} (authenticated : Bool)
    (hrefuse : ∀ e, P (.refusing e)) (h : authenticated = true → P c) :
    P (loggedInOnly authenticated c) := by
  cases authenticated with
  | false => exact hrefuse _
  | true => exact h rfl

/-- Where a request is sent to: a property of all these places is one of `route`. -/
theorem route_of {P : Control → Prop} (authenticated : Bool) (type : UInt8) (payload : Bytes)
    (hrefuse : ∀ e, P (.refusing e)) (hregister : ∀ u k, P (.registering u k))
    (hidentify : ∀ u s, P (.identifying u s)) (hkey : ∀ u, P (.seekingKey u))
    (hmessage : ∀ u d, P (.seekingRecipient u d)) (hfetch : P .fetching)
    (hstatus : ∀ s, P (.seekingSelf s)) (hlist : authenticated = true → P .listing)
    (hlogout : P .hangingUp) : P (route authenticated type payload) := by
  unfold route
  split_ifs
  · exact parsed_of _ hrefuse (fun r ↦ hregister r.1 r.2)
  · exact parsed_of _ hrefuse (fun r ↦ hidentify r.1 r.2)
  · exact loggedInOnly_of _ hrefuse (fun _ ↦ parsed_of _ hrefuse hkey)
  · exact loggedInOnly_of _ hrefuse (fun _ ↦ parsed_of _ hrefuse (fun r ↦ hmessage r.1 r.2))
  · exact loggedInOnly_of _ hrefuse (fun _ ↦ hfetch)
  · exact loggedInOnly_of _ hrefuse (fun _ ↦ parsed_of _ hrefuse hstatus)
  · exact loggedInOnly_of _ hrefuse hlist
  · exact hlogout
  · exact hrefuse _

inductive Turn (verify : Signature → Challenge → Key → Bool) (m : Pool) (x : Input) (m' : Pool) :
    Prop
  | idle (h : m' = m)
  | accept (challenge : Challenge) (created : Bool) (hx : x = .accept challenge created)
      (hheld : m.held .clients = false) (h : m' = acceptHandler m challenge created)
  | receive (h : Fd) (stream : Bytes) (i : ℕ) (hx : x = .receive h stream)
      (hh : m.handlers h = some ⟨i, .reading⟩)
      (hm : m' = m.put h i (receiveRequest m.world i stream))
  | go (h : Fd) (i : ℕ) (c : Control) (hx : x = .go h) (hh : m.handlers h = some ⟨i, c⟩)
      (hfree : m.blocked i c = false) (hm : m' = m.put h i (proceed verify m.world i c))
  | environment (env : Env) (hx : x = .environment env)
      (hm : m' = { m with world := { m.world with env := env } })

theorem step_turn (m : Pool) (x : Input) : Turn verify m x (step verify m x) := by
  cases x with
  | accept challenge created =>
    simp only [step]
    split
    · exact .idle rfl
    next hheld => exact .accept challenge created rfl (by simpa using hheld) rfl
  | receive h stream =>
    simp only [step]
    split
    next i hh => exact .receive h stream i rfl hh rfl
    · exact .idle rfl
  | go h =>
    simp only [step]
    split
    next i c hh =>
      split
      · exact .idle rfl
      next hfree => exact .go h i c rfl hh (by simpa using hfree) rfl
    · exact .idle rfl
  | environment env => exact .environment env rfl rfl

theorem acceptHandler_world (m : Pool) (challenge : Challenge) (created : Bool) :
    (acceptHandler m challenge created).world = acceptClient m.world challenge created := by
  unfold acceptHandler
  dsimp only
  generalize acceptClient m.world challenge created = w
  generalize freeSlot m.world.server = slot
  cases slot with
  | none => rfl
  | some i => cases created <;> rfl

theorem acceptHandler_handlers (m : Pool) (challenge : Challenge) (created : Bool) :
    (acceptHandler m challenge created).handlers = m.handlers ∨
      ∃ i, freeSlot m.world.server = some i ∧ created = true ∧
        (acceptHandler m challenge created).handlers =
          Function.update m.handlers m.world.nextFd (some ⟨i, .testing⟩) := by
  unfold acceptHandler
  dsimp only
  generalize acceptClient m.world challenge created = w
  generalize freeSlot m.world.server = slot
  cases slot with
  | none => exact .inl rfl
  | some i =>
    cases created with
    | false => exact .inl rfl
    | true => exact .inr ⟨i, rfl, rfl, rfl⟩

/-- What a step keeps of every handler: of those that do not move, of the new
one, of one that takes up a request and of one that proceeds. -/
theorem Turn.handlers {m m' : Pool} {x : Input} (h : Turn verify m x m')
    {P Q : Fd → Handler → Prop}
    (hidle : m' = m → ∀ h handler, P h handler → Q h handler)
    (hkeep : ∀ h handler, m.handlers h = some handler → x ≠ .go h → P h handler → Q h handler)
    (haccept : ∀ i, freeSlot m.world.server = some i → Q m.world.nextFd ⟨i, .testing⟩)
    (hreceive : ∀ h i stream, x = .receive h stream → m.handlers h = some ⟨i, .reading⟩ →
      m' = m.put h i (receiveRequest m.world i stream) → P h ⟨i, .reading⟩ →
      Q h ⟨i, (receiveRequest m.world i stream).2⟩)
    (hgo : ∀ h i c, x = .go h → m.handlers h = some ⟨i, c⟩ →
      m' = m.put h i (proceed verify m.world i c) → P h ⟨i, c⟩ →
      Q h ⟨i, (proceed verify m.world i c).2⟩)
    (hm : ∀ h handler, m.handlers h = some handler → P h handler) :
    ∀ h handler, m'.handlers h = some handler → Q h handler := by
  have hsame : (∀ h, x ≠ .go h) → m'.handlers = m.handlers →
      ∀ h handler, m'.handlers h = some handler → Q h handler := by
    intro hx hhandlers h handler hh
    rw [hhandlers] at hh
    exact hkeep h handler hh (hx h) (hm h handler hh)
  have hput : ∀ h₀ handler₀, (∀ h, h ≠ h₀ → x ≠ .go h) →
      m'.handlers = Function.update m.handlers h₀ (some handler₀) →
      Q h₀ handler₀ → ∀ h handler, m'.handlers h = some handler → Q h handler := by
    intro h₀ handler₀ hx hhandlers hq h handler hh
    rw [hhandlers] at hh
    by_cases heq : h = h₀
    · subst heq
      rw [Function.update_self, Option.some.injEq] at hh
      exact hh ▸ hq
    · rw [Function.update_of_ne heq] at hh
      exact hkeep h handler hh (hx h heq) (hm h handler hh)
  cases h with
  | idle h =>
    intro h' handler hh
    exact hidle h h' handler (hm h' handler (h ▸ hh))
  | accept challenge created hx _ h =>
    have hstep : ∀ h, x ≠ .go h := fun h heq ↦ by rw [hx] at heq; cases heq
    obtain hhandlers | ⟨i, hslot, _, hhandlers⟩ := acceptHandler_handlers m challenge created
    · exact hsame hstep (h ▸ hhandlers)
    · exact hput _ _ (fun h _ ↦ hstep h) (h ▸ hhandlers) (haccept i hslot)
  | receive h₀ stream i hx hh h =>
    refine hput h₀ _ (fun h _ heq ↦ ?_) (by rw [h]; rfl)
      (hreceive h₀ i stream hx hh h (hm h₀ _ hh))
    rw [hx] at heq
    cases heq
  | go h₀ i c hx hh _ h =>
    refine hput h₀ _ (fun h hne heq ↦ ?_) (by rw [h]; rfl) (hgo h₀ i c hx hh h (hm h₀ _ hh))
    rw [hx] at heq
    cases heq
    exact hne rfl
  | environment env hx h =>
    exact hsame (fun h heq ↦ by rw [hx] at heq; cases heq) (by rw [h])

end CChat.Threads.Sections
