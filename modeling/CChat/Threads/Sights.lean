import CChat.Threads.FullSends
import CChat.Threads.Accounts

namespace CChat.Threads.Sights

open CChat.Library CChat.Protocol.Types CChat.Server.State CChat.Server.Network
  CChat.Server.Users CChat.Server.Handlers CChat.Server.Effects CChat.Server.Pushes
  CChat.Server.Views CChat.Server.Steps CChat.Server.Registry CChat.Server.Unchanged
  CChat.Server.Displays Machine Sections Messages Crew Statuses Duties Accounts FullSends
open CChat.Server.Loop hiding Input step reach
open CChat.Server.Invariants hiding Turn step_turn

variable {verify : Signature → Challenge → Key → Bool} {w w' : World} {i : ℕ} {c : Control}
  {t t' : Trace} {h fd : Fd} {x : Input}

def Event.isShown : Event → Bool
  | .frame _ .userListResponse _ _ => true
  | .frame _ .statusUpdate _ _ => true
  | .login .. => true
  | _ => false

def Control.shows : Control → Bool
  | .replying .userListResponse _ => true
  | .replying .statusUpdate _ => true
  | .sweeping .. => true
  | .accrediting .. => true
  | _ => false

theorem see_hidden {e : Event} (d : Display) (he : Event.isShown e = false) :
    Display.see fd d e = d := by
  cases e with
  | frame fd' type payload entry => cases type <;> first | rfl | cases he
  | login => cases he
  | _ => rfl

theorem display_append (out es : List Event) (fd : Fd) :
    display (out ++ es) fd = es.foldl (Display.see fd) (display out fd) := List.foldl_append

theorem display_hidden {es : List Event} (out : List Event)
    (hes : ∀ e ∈ es, Event.isShown e = false) : display (out ++ es) fd = display out fd := by
  rw [display_append]
  generalize display out fd = d
  induction es with
  | nil => rfl
  | cons e es ih =>
    rw [List.foldl_cons, see_hidden d (hes e List.mem_cons_self)]
    exact ih (fun e' he' ↦ hes e' (List.mem_cons_of_mem e he'))

theorem plain_hidden {e : Event} (he : Event.isPlain e = true) : Event.isShown e = false := by
  cases e with
  | frame fd type payload entry => cases type <;> first | rfl | cases he
  | login => cases he
  | _ => rfl

theorem Told.hidden {e : Event} (h : Told w i c w' e) (hc : Control.shows c = false) :
    Event.isShown e = false := by
  cases h with
  | other e he => exact plain_hidden he
  | reply fd type payload hreply =>
    subst hreply
    cases type <;> first | rfl | cases hc
  | update _ _ _ _ _ hsweep =>
    subst hsweep
    cases hc
  | login _ _ _ _ _ _ hlogin =>
    subst hlogin
    cases hc
  | _ => rfl

structure Kept (s s' : ServerState) (j : ℕ) (fd : Fd) : Prop where
  socketFd : (s.clients j).socketFd = some fd
  authenticated : (s'.clients j).authenticated = (s.clients j).authenticated
  username : (s'.clients j).username = (s.clients j).username
  connected : (s'.clients j).connected = true → (s.clients j).connected = true

def AllKept (s s' : ServerState) : Prop :=
  ∀ j fd, (s'.clients j).socketFd = some fd → Kept s s' j fd

theorem SameIdentity.kept {s s' : ServerState} {j : ℕ}
    (h : SameIdentity (s.clients j) (s'.clients j)) (hfd : (s'.clients j).socketFd = some fd) :
    Kept s s' j fd :=
  ⟨h.socketFd ▸ hfd, h.authenticated, h.username, fun hconnected ↦ h.connected ▸ hconnected⟩

theorem Section.kept (hs : Section verify w i c w') (hc : Control.shows c = false) :
    AllKept w.server w'.server := by
  have hothers : ∀ j fd, j ≠ i → (w'.server.clients j).socketFd = some fd →
      Kept w.server w'.server j fd :=
    fun j fd hj hfd ↦ SameIdentity.kept (Section.others hs hj) hfd
  intro j fd hfd
  by_cases hj : j = i
  · subst hj
    cases hs with
    | still h => exact SameIdentity.kept (h.clients j) hfd
    | added username key _ h hw =>
      have hsame : w'.server.clients j = w.server.clients j := by
        rw [hw]
        unfold addUser
        split_ifs <;> rfl
      exact SameIdentity.kept (hsame ▸ .refl _) hfd
    | login k username signature hlogin =>
      subst hlogin
      cases hc
    | status k status _ hw =>
      have hsame : w'.server.clients j = w.server.clients j := by rw [hw, modifyUser_clients]
      exact SameIdentity.kept (hsame ▸ .refl _) hfd
    | hangUp _ hw =>
      rw [hw, modifyClient_self] at hfd
      rw [hw]
      refine ⟨hfd, by rw [modifyClient_self], by rw [modifyClient_self], fun hconnected ↦ ?_⟩
      rw [modifyClient_self] at hconnected
      cases hconnected
    | shut _ hs =>
      rw [modifyClient_at hs] at hfd
      cases hfd
  · exact hothers j fd hj hfd

abbrev Trace.display (t : Trace) (fd : Fd) : Display :=
  CChat.Server.Displays.display t.pool.world.out fd

/-- What a step changes for the connections: nothing, a new one, a status one
is told of, the list one asked for, or a login. -/
inductive Sight (t t' : Trace) : Prop
  | hidden (hk : AllKept t.server t'.server)
      (hd : ∀ fd, Trace.display t' fd = Trace.display t fd) (hs : t'.seen = t.seen)
  | joined (i : ℕ) (hfd : (t'.server.clients i).socketFd = some t.pool.world.nextFd)
      (hauth : (t'.server.clients i).authenticated = false)
      (hk : ∀ j fd, j ≠ i → (t'.server.clients j).socketFd = some fd →
        Kept t.server t'.server j fd)
      (hd : ∀ fd, Trace.display t' fd = Trace.display t fd) (hs : t'.seen = t.seen)
  | update (fd : Fd) (k n : ℕ) (username : Username) (hk : AllKept t.server t'.server)
      (hfd : fd < t.pool.world.nextFd) (hu : findUser t.server username = some k)
      (hn : n ≤ t.version k)
      (hd : Trace.display t' fd =
        (Trace.display t fd).note [(username, (t.written k n).code)])
      (hdo : ∀ fd', fd' ≠ fd → Trace.display t' fd' = Trace.display t fd')
      (hs : ∀ fd' l, t'.seen fd' l = if fd = fd' ∧ k = l then n else t.seen fd' l)
  | list (j : ℕ) (h : Fd) (users : List UserRecord) (hk : AllKept t.server t'.server)
      (hfd : (t.server.clients j).socketFd = some h)
      (hauth : (t.server.clients j).authenticated = true) (hr : Read t h users)
      (hd : Trace.display t' h = (Trace.display t h).list (users.map entryOf))
      (hdo : ∀ fd, fd ≠ h → Trace.display t' fd = Trace.display t fd)
      (hs : ∀ fd l, t'.seen fd l =
        if fd = h then (t.taken h l).getD (t.seen h l) else t.seen fd l)
  | login (j : ℕ) (h : Fd) (name : Username) (hfd : (t.server.clients j).socketFd = some h)
      (hself : (t'.server.clients j) =
        { t.server.clients j with authenticated := true, username := name })
      (hk : ∀ l fd, l ≠ j → (t'.server.clients l).socketFd = some fd →
        Kept t.server t'.server l fd)
      (hd : Trace.display t' h = (Trace.display t h).login name)
      (hdo : ∀ fd, fd ≠ h → Trace.display t' fd = Trace.display t fd) (hs : t'.seen = t.seen)

theorem count_seen (t : Trace) (h : Fd) {c : Control} (hc : Control.shows c = false) :
    (t.count h c).seen = t.seen := by
  unfold Trace.count
  dsimp only
  cases hwrites : Control.writes c with
  | some p => rfl
  | none =>
    cases c with
    | sweeping => cases hc
    | snapshotting k users =>
      dsimp only
      split <;> rfl
    | replying type payload => cases type <;> first | rfl | cases hc
    | _ => rfl

theorem goOn_hidden (ht : Accounted t) (hc : Control.shows c = false) :
    Sight t (goOn verify t h i c) := by
  obtain ⟨es, hes⟩ := @proceed_handled verify t.pool.world ht.rings i c
  refine .hidden (Section.kept (@proceed_section verify t.pool.world i c) hc) (fun fd ↦ ?_)
    (count_seen t h hc)
  have hout : (goOn verify t h i c).pool.world.out = t.pool.world.out ++ es := hes.out
  rw [Trace.display, hout]
  exact display_hidden _ (fun e he ↦ Told.hidden (hes.told e he) hc)

theorem see_self (d : Display) (type : MessageType) (payload : Bytes) (hne : fd ≠ h) :
    Display.see fd d (.frame h type payload none) = d := by
  cases type <;> first | rfl | exact if_neg (fun heq ↦ hne heq.symm)

theorem display_frame {out : List Event} {type : MessageType} {payload : Bytes}
    (ho : w'.out = out ++ [.frame h type payload none]) :
    display w'.out h = Display.see h (display out h) (.frame h type payload none) ∧
      ∀ fd, fd ≠ h → display w'.out fd = display out fd := by
  rw [ho]
  refine ⟨display_append out _ h, fun fd hne ↦ ?_⟩
  rw [display_append]
  exact see_self _ type payload hne

theorem audience_socket {s : ServerState} {username : Username} {j : ℕ}
    (haud : audience s username j = some fd) : (s.clients j).socketFd = some fd := by
  unfold audience at haud
  split at haud
  · exact haud
  · cases haud

theorem sweeping_sends {username : Username} {status : UserStatus} {j : ℕ} {after : After}
    (haud : audience w.server username j = some fd) :
    (proceed verify w i (.sweeping username status j after)).1 =
      (sendNetworkMessage w (some fd) .statusUpdate (statusPayload username status) none).2 := by
  have hsocket := audience_socket haud
  unfold audience at haud
  split at haud
  next hin =>
    simp only [Bool.and_eq_true, decide_eq_true_eq] at hin
    obtain ⟨⟨⟨hlt, hconnected⟩, hauth⟩, hne⟩ := hin
    simp [proceed, hlt, hconnected, hauth, hne, hsocket]
  · cases haud

theorem sweeping_silent {username : Username} {status : UserStatus} {j : ℕ} {after : After}
    (haud : audience w.server username j = none) :
    (proceed verify w i (.sweeping username status j after)).1.out = w.out := by
  unfold audience at haud
  simp only [proceed]
  split
  next hlt =>
    split
    next hin =>
      have hsocket : (w.server.clients j).socketFd = none := by
        rwa [Bool.and_assoc, Bool.and_assoc, ← Bool.and_assoc (w.server.clients j).connected,
          if_pos (by rw [hin, decide_eq_true hlt]; rfl)] at haud
      rw [hsocket]
      cases sendNetworkMessage_written w none .statusUpdate (statusPayload username status) none with
      | whole _ hfd => cases hfd
      | torn _ _ hfd => cases hfd
      | dead _ _ h => exact h.out
    · rfl
  · rfl

theorem statusPayload_pos (username : Username) (status : UserStatus) :
    0 < (statusPayload username status).length := by simp [statusPayload]

theorem listPayload_pos (users : List UserRecord) : 0 < (listPayload users).length := by
  simp [listPayload, BigEndian.bytes_length]

theorem Section.sweeping_kept {username : Username} {status : UserStatus} {j : ℕ} {after : After} :
    AllKept w.server (proceed verify w i (.sweeping username status j after)).1.server :=
  fun l _ hfd ↦
    SameIdentity.kept ((Neutral.sweeping still_neutral w i username status j after).clients l) hfd

theorem sweeping_sight {username : Username} {status : UserStatus} {j : ℕ} {after : After}
    (ht : Accounted t) (hsends : Env.sendsAll t.pool.world.env = true)
    (hh : t.pool.handlers h = some ⟨i, .sweeping username status j after⟩) :
    Sight t (goOn verify t h i (.sweeping username status j after)) := by
  obtain ⟨k, hu, rfl, hle⟩ := ht.knows h _ hh
  obtain ⟨_, _, hseen⟩ := count_sweeping t h username (t.written k (t.stamp h)) j after
  obtain haud | ⟨fd, haud⟩ := Option.eq_none_or_eq_some (audience t.server username j)
  · refine .hidden Section.sweeping_kept (fun fd ↦ ?_) ?_
    · exact congrArg (display · fd) (sweeping_silent haud)
    · funext fd l
      refine (hseen fd l).trans (if_neg ?_)
      rintro ⟨hfd, _⟩
      rw [haud] at hfd
      cases hfd
  · have hout : (goOn verify t h i
        (.sweeping username (t.written k (t.stamp h)) j after)).pool.world.out =
          t.pool.world.out ++
            [.frame fd .statusUpdate (statusPayload username (t.written k (t.stamp h))) none] := by
      simp only [goOn, Pool.put, sweeping_sends haud]
      exact sendsAll_whole hsends fd .statusUpdate _ (statusPayload_pos _ _)
    obtain ⟨hself, hothers⟩ := display_frame hout
    refine .update fd k (t.stamp h) username Section.sweeping_kept
      (ht.manned.socket j fd (audience_socket haud)).1 hu hle ?_ hothers (fun fd' l ↦ ?_)
    · refine hself.trans ?_
      simp only [Display.see, if_true, readStatusUpdate_statusPayload]
      rfl
    · refine (hseen fd' l).trans ?_
      rw [haud, hu]
      simp only [Option.some.injEq]

theorem listing_sight {payload : Bytes} (ht : Accounted t)
    (hsends : Env.sendsAll t.pool.world.env = true)
    (hh : t.pool.handlers h = some ⟨i, .replying .userListResponse payload⟩) :
    Sight t (goOn verify t h i (.replying .userListResponse payload)) := by
  have hsocket := ht.manned.owner h _ hh (by simp)
  obtain ⟨hauth, users, rfl, hr⟩ := ht.knows h _ hh
  dsimp only at hsocket
  have hout : (goOn verify t h i (.replying .userListResponse (listPayload users))).pool.world.out =
      t.pool.world.out ++ [.frame h .userListResponse (listPayload users) none] := by
    simp only [goOn, Pool.put, proceed, reply, hsocket]
    exact sendsAll_whole hsends h .userListResponse _ (listPayload_pos users)
  have hfew : users.length < 2 ^ 16 :=
    Nat.lt_of_le_of_lt (hr.length_le.trans ht.enrolled.count_le) (by decide)
  obtain ⟨hself, hothers⟩ := display_frame hout
  refine .list i h users (fun j fd hfd ↦ ?_) hsocket hauth hr ?_ hothers (fun fd l ↦ ?_)
  · exact SameIdentity.kept ((reply_still t.pool.world i _ _).clients j) hfd
  · refine hself.trans ?_
    simp only [Display.see, if_true, readUserList_listPayload users hfew]
    rfl
  · simp only [goOn, Trace.count, Control.writes]
    by_cases hfd : fd = h
    · subst hfd
      rw [Function.update_self, if_pos rfl]
    · rw [Function.update_of_ne hfd, if_neg hfd]

theorem accrediting_sight {k : ℕ} {username : Username} {signature : Signature}
    (ht : Accounted t) (hh : t.pool.handlers h = some ⟨i, .accrediting k username signature⟩) :
    Sight t (goOn verify t h i (.accrediting k username signature)) := by
  have hsocket := ht.manned.owner h _ hh (by simp)
  dsimp only at hsocket
  by_cases hv : verify signature (t.server.clients i).challenge (t.server.users k).publicKey = true
  · have hworld : (goOn verify t h i (.accrediting k username signature)).pool.world =
        (t.pool.world.modifyClient i (fun c ↦
          { c with authenticated := true, username := username })).emit
            (.login h username signature (t.server.clients i).challenge
              (t.server.users k).publicKey) := by
      simp [goOn, Pool.put, proceed, hv, hsocket]
    have hclients : (goOn verify t h i (.accrediting k username signature)).server =
        (t.pool.world.modifyClient i (fun c ↦
          { c with authenticated := true, username := username })).server := by
      rw [Trace.server, hworld, emit_server]
    refine .login i h username hsocket ?_ (fun j fd hj hfd ↦ ?_) ?_ (fun fd hne ↦ ?_) rfl
    · rw [hclients, modifyClient_self]
    · refine SameIdentity.kept ?_ hfd
      rw [hclients, modifyClient_other _ _ hj]
      exact .refl _
    · rw [Trace.display, hworld, emit_out, display_append]
      exact if_pos rfl
    · rw [Trace.display, hworld, emit_out, display_append]
      exact if_neg (fun heq ↦ hne heq.symm)
  · have hworld : (goOn verify t h i (.accrediting k username signature)).pool.world =
        t.pool.world := by
      simp [goOn, Pool.put, proceed, hv]
    refine .hidden (fun j fd hfd ↦ SameIdentity.kept ?_ hfd) (fun fd ↦ ?_) rfl
    · dsimp only [Trace.server]
      rw [hworld]
      exact .refl _
    · rw [Trace.display, hworld]

theorem goOn_sight (ht : Accounted t) (hsends : Env.sendsAll t.pool.world.env = true)
    (hh : t.pool.handlers h = some ⟨i, c⟩) : Sight t (goOn verify t h i c) := by
  cases c with
  | accrediting k username signature => exact accrediting_sight ht hh
  | sweeping username status j after => exact sweeping_sight ht hsends hh
  | replying type payload =>
    cases type with
    | userListResponse => exact listing_sight ht hsends hh
    | statusUpdate => exact (ht.knows h _ hh).elim
    | _ => exact goOn_hidden ht rfl
  | _ => exact goOn_hidden ht rfl

theorem quiet_sight {m' : Pool} (es : List Event)
    (hids : ∀ j, SameIdentity (t.server.clients j) (m'.world.server.clients j))
    (ho : m'.world.out = t.pool.world.out ++ es) (hes : ∀ e ∈ es, Event.isShown e = false) :
    Sight t { t with pool := m' } := by
  refine .hidden (fun j fd hfd ↦ SameIdentity.kept (hids j) hfd) (fun fd ↦ ?_) rfl
  rw [Trace.display, ho]
  exact display_hidden _ hes

theorem joined_sight {challenge : Challenge} {m' : Pool} (hj : Joined t.pool challenge m') :
    Sight t { t with pool := m' } := by
  cases hj with
  | full hs _ ho =>
    refine quiet_sight _ (fun j ↦ ?_) ho (fun e he ↦ ?_)
    · rw [hs]
      exact .refl _
    · rw [List.mem_singleton.mp he]
      rfl
  | slot i created es _ hself hother _ _ _ ho hes =>
    refine .joined i ?_ ?_ (fun j fd hj hfd ↦ SameIdentity.kept ?_ hfd) (fun fd ↦ ?_) rfl
    · dsimp only [Trace.server]
      rw [hself]
      rfl
    · dsimp only [Trace.server]
      rw [hself]
      rfl
    · dsimp only [Trace.server]
      rw [hother j hj]
      exact .refl _
    · rw [Trace.display, ho]
      exact display_hidden _ (fun e he ↦ by rw [hes e he]; rfl)

theorem observe_sight (ht : Accounted t) (hsends : Env.sendsAll t.pool.world.env = true)
    (hx : ordered t x = true) : Sight t (observe verify t x) := by
  cases @observe_observed verify t x ht.manned hx with
  | idle h =>
    rw [h]
    exact .hidden (fun j fd hfd ↦ SameIdentity.kept (.refl _) hfd) (fun _ ↦ rfl) rfl
  | accept challenge m' hj _ h =>
    rw [h]
    exact joined_sight hj
  | receive h stream i _ h' =>
    obtain ⟨es, hes⟩ := takeRequest_plain t.pool.world i stream
    have hids := (takeRequest_admitted t.pool.world i stream).identity
    rw [h']
    refine quiet_sight es (fun j ↦ ?_) ?_ (fun e he ↦ plain_hidden (hes.events e he))
    · rw [Pool.put, receiveRequest_world]
      exact (hids j).1
    · rw [Pool.put, receiveRequest_world]
      exact hes.out
  | go h i c _ hh h' =>
    rw [h']
    exact goOn_sight ht hsends hh
  | environment env _ h =>
    rw [h]
    exact quiet_sight [] (fun j ↦ .refl _) (List.append_nil _).symm (by simp)

end CChat.Threads.Sights
