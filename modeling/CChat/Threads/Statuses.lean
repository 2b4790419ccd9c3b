import CChat.Library.Notices
import CChat.Server.Displays
import CChat.Threads.Crew
import CChat.Threads.Enrolment

namespace CChat.Threads.Statuses

open CChat.Library CChat.Library.Notices CChat.Protocol.Types CChat.Server.State
  CChat.Server.Network CChat.Server.Users CChat.Server.Handlers CChat.Server.Effects
  CChat.Server.Views CChat.Server.Steps CChat.Server.Registry CChat.Server.Unchanged
  CChat.Server.Displays Machine Sections Messages Crew
open CChat.Server.Loop hiding Input step reach
open CChat.Server.Invariants hiding Turn step_turn

variable {verify : Signature → Challenge → Key → Bool}

/-- A run of the server with the writes of statuses counted. `version k` is how
often the status of record `k` was written and `written k v` what the `v`-th
write gave it; `stamp h` is the write the handler `h` announces, `taken h k` the
one it read for its list, and `seen fd k` the one the last frame about record
`k` on a connection carried. -/
structure Trace where
  pool : Pool
  version : ℕ → ℕ
  written : ℕ → ℕ → UserStatus
  stamp : Fd → ℕ
  taken : Fd → ℕ → Option ℕ
  seen : Fd → ℕ → ℕ

def Trace.initial : Trace :=
  ⟨Pool.initial, fun _ ↦ 0, fun _ _ ↦ .offline, fun _ ↦ 0, fun _ _ ↦ none, fun _ _ ↦ 0⟩

def audience (s : ServerState) (username : Username) (j : ℕ) : Option Fd :=
  if j < s.clientCount && (s.clients j).connected && (s.clients j).authenticated &&
      decide ((s.clients j).username ≠ username)
  then (s.clients j).socketFd
  else none

def Trace.count (t : Trace) (h : Fd) (c : Control) : Trace :=
  let s := t.pool.world.server
  match Control.writes c with
  | some (k, status) => { t with
      version := Function.update t.version k (t.version k + 1)
      written := Function.update t.written k
        (Function.update (t.written k) (t.version k + 1) status)
      stamp := Function.update t.stamp h (t.version k + 1) }
  | none =>
    match c with
    | .sweeping username _ j _ =>
      match audience s username j, findUser s username with
      | some fd, some k =>
        { t with seen := Function.update t.seen fd (Function.update (t.seen fd) k (t.stamp h)) }
      | _, _ => t
    | .listing => { t with taken := Function.update t.taken h (fun _ ↦ none) }
    | .snapshotting k _ =>
      if k < s.userCount && (s.users k).isRegistered then
        { t with
          taken := Function.update t.taken h
            (Function.update (t.taken h) k (some (t.version k))) }
      else t
    | .replying .userListResponse _ =>
      { t with seen := Function.update t.seen h (fun k ↦ (t.taken h k).getD (t.seen h k)) }
    | _ => t

variable (verify) in
def observe (t : Trace) (x : Input) : Trace :=
  let t' := match x with
    | .go h =>
      match t.pool.handlers h with
      | some ⟨i, c⟩ => if t.pool.blocked i c then t else t.count h c
      | none => t
    | _ => t
  { t' with pool := step verify t.pool x }

/-- The frames about a user reach a connection in the order of the writes they
carry, every broadcast is allocated, and no connection is put into a slot whose
handler is still at work. -/
def ordered (t : Trace) (x : Input) : Bool :=
  vacant t.pool x && match x with
  | .go h =>
    match t.pool.handlers h with
    | some ⟨_, .announcing _ _ _⟩ => Env.allocates t.pool.world.env 0
    | some ⟨_, .sweeping username _ j _⟩ =>
      (audience t.pool.world.server username j).all (fun fd ↦
        (findUser t.pool.world.server username).all (fun k ↦ decide (t.seen fd k ≤ t.stamp h)))
    | some ⟨_, .replying .userListResponse _⟩ =>
      (List.range t.pool.world.server.userCount).all (fun k ↦
        (t.taken h k).all (fun v ↦ decide (t.seen h k ≤ v)))
    | _ => true
  | _ => true

abbrev Trace.server (t : Trace) : ServerState := t.pool.world.server

def Hears (s : ServerState) (fd : Fd) (u : Username) : Prop :=
  ∃ j, (s.clients j).socketFd = some fd ∧ (s.clients j).connected = true ∧
    (s.clients j).authenticated = true ∧ u ≠ (s.clients j).username

def announced (s : ServerState) : Handler → Option (Username × ℕ)
  | ⟨i, .settingClient _⟩ => some ((s.clients i).username, 0)
  | ⟨_, .announcing username _ _⟩ => some (username, 0)
  | ⟨_, .sweeping username _ j _⟩ => some (username, j)
  | _ => none

def Owed (t : Trace) (fd : Fd) (k v : ℕ) : Prop :=
  ∃ h handler username p j, t.pool.handlers h = some handler ∧
    announced t.server handler = some (username, p) ∧ findUser t.server username = some k ∧
    t.stamp h = v ∧ (t.server.clients j).socketFd = some fd ∧ p ≤ j

def Trace.board (t : Trace) : Board Fd ℕ := ⟨t.version, t.seen, Owed t⟩

def Announces (t : Trace) (h : Fd) (username : Username) (status : UserStatus) : Prop :=
  ∃ k, findUser t.server username = some k ∧ status = t.written k (t.stamp h) ∧
    t.stamp h ≤ t.version k

structure Read (t : Trace) (h : Fd) (users : List UserRecord) : Prop where
  length_le : users.length ≤ t.server.userCount
  rest : ∀ l, users.length ≤ l → t.taken h l = none
  entry : ∀ l u, users[l]? = some u → u.username = (t.server.users l).username ∧
    ∃ v, t.taken h l = some v ∧ u.status = t.written l v ∧ v ≤ t.version l ∧
      (Hears t.server h u.username → t.board.Due h l v)

def Knows (t : Trace) (h : Fd) : Handler → Prop
  | ⟨_, .accrediting k username _⟩ => findUser t.server username = some k
  | ⟨_, .onlining k username⟩ => findUser t.server username = some k
  | ⟨i, .settingUser k _⟩ => findUser t.server (t.server.clients i).username = some k
  | ⟨i, .offlining k⟩ => findUser t.server (t.server.clients i).username = some k
  | ⟨i, .settingClient status⟩ => Announces t h (t.server.clients i).username status
  | ⟨_, .announcing username status _⟩ => Announces t h username status
  | ⟨_, .sweeping username status _ _⟩ => Announces t h username status
  | ⟨i, .listing⟩ => (t.server.clients i).authenticated = true
  | ⟨i, .snapshotting k users⟩ =>
    (t.server.clients i).authenticated = true ∧ users.length = k ∧ Read t h users
  | ⟨i, .replying .userListResponse payload⟩ => (t.server.clients i).authenticated = true ∧
    ∃ users, payload = listPayload users ∧ Read t h users
  | ⟨_, .replying .statusUpdate _⟩ => False
  | _ => True

/-- What a step of the handler `h`, or the start of it, leaves as it was. -/
structure Shift (h : Fd) (t t' : Trace) : Prop where
  records : Extends t.server t'.server
  version : ∀ k, t.version k ≤ t'.version k
  written : ∀ k v, v ≤ t.version k → t'.written k v = t.written k v
  handlers : ∀ h', h' ≠ h → t'.pool.handlers h' = t.pool.handlers h'
  stamp : ∀ h', h' ≠ h → t'.stamp h' = t.stamp h'
  taken : ∀ h', h' ≠ h → t'.taken h' = t.taken h'
  back : ∀ j fd, fd ≠ h → (t'.server.clients j).socketFd = some fd →
    SameIdentity (t.server.clients j) (t'.server.clients j)
  own : ∀ j, (t'.server.clients j).socketFd = some h →
    (t'.server.clients j).authenticated = true → (t.server.clients j).socketFd = some h
  posts : ∀ h' handler, h' ≠ h → t.pool.handlers h' = some handler → handler.control ≠ .done →
    SameIdentity (t.server.clients handler.slot) (t'.server.clients handler.slot)

def Dutiful (t t' : Trace) : Prop :=
  ∀ fd u k v, Hears t'.server fd u → Hears t.server fd u → findUser t.server u = some k →
    t.board.Due fd k v → t'.board.Due fd k v

def Attentive (t t' : Trace) : Prop :=
  ∀ fd u k, Hears t'.server fd u → Hears t.server fd u → findUser t.server u = some k →
    t.board.Due fd k (t.seen fd k) → t'.board.Due fd k (t'.seen fd k)

variable {t t' : Trace} {i : ℕ} {c : Control} {h : Fd} {x : Input}

theorem Hears.slot {s : ServerState} {fd : Fd} {u : Username} (hears : Hears s fd u) :
    ∃ j, (s.clients j).socketFd = some fd := by
  obtain ⟨j, hsocket, _⟩ := hears
  exact ⟨j, hsocket⟩

theorem Shift.hears (hs : Shift h t t') {fd : Fd} (hfd : fd ≠ h) {u : Username}
    (hu : Hears t'.server fd u) : Hears t.server fd u := by
  obtain ⟨j, hsocket, hconnected, hauth, hne⟩ := hu
  have hsame := hs.back j fd hfd hsocket
  exact ⟨j, hsame.socketFd ▸ hsocket, hsame.connected ▸ hconnected, hsame.authenticated ▸ hauth,
    hsame.username ▸ hne⟩

theorem Shift.announced (hs : Shift h t t') {h' : Fd} {handler : Handler} (hne : h' ≠ h)
    (hh : t.pool.handlers h' = some handler) :
    announced t'.server handler = announced t.server handler := by
  obtain ⟨i, c⟩ := handler
  cases c with
  | settingClient status =>
    have hsame := hs.posts h' _ hne hh (by simp)
    simp only [Statuses.announced, hsame.username]
  | _ => rfl

/-- A handler that still had to tell a connection has still to do so, but for
the one that took the step. -/
theorem Shift.owed (hs : Shift h t t') (hm : Manned t.pool) {fd : Fd} {u : Username} {k v : ℕ}
    (hears : Hears t'.server fd u) (ho : Owed t fd k v) : Owed t' fd k v ∨
      ∃ handler username p j, t.pool.handlers h = some handler ∧
        Statuses.announced t.server handler = some (username, p) ∧
        findUser t'.server username = some k ∧ t.stamp h = v ∧
        (t.server.clients j).socketFd = some fd ∧ (t'.server.clients j).socketFd = some fd ∧
        p ≤ j := by
  obtain ⟨h', handler, username, p, j, hh, ha, hk, hv, hsocket, hp⟩ := ho
  obtain ⟨l, hl, _, hauth, _⟩ := hears
  have hback : (t.server.clients l).socketFd = some fd := by
    by_cases hfd : fd = h
    · subst hfd
      exact hs.own l hl hauth
    · exact (hs.back l fd hfd hl).socketFd ▸ hl
  obtain rfl := hm.distinct j l fd hsocket hback
  by_cases hne : h' = h
  · subst hne
    exact .inr ⟨handler, username, p, j, hh, ha, hs.records.find hk, hv, hsocket, hl, hp⟩
  · refine .inl ⟨h', handler, username, p, j, hs.handlers h' hne ▸ hh, ?_, hs.records.find hk,
      (hs.stamp h' hne).trans hv, hl, hp⟩
    rw [hs.announced hne hh, ha]

theorem Shift.announces (hs : Shift h t t') {h' : Fd} (hstamp : t'.stamp h' = t.stamp h')
    {username : Username} {status : UserStatus} (ha : Announces t h' username status) :
    Announces t' h' username status := by
  obtain ⟨k, hk, hstatus, hle⟩ := ha
  rw [Announces, hstamp]
  exact ⟨k, hs.records.find hk, by rw [hs.written k _ hle, hstatus], hle.trans (hs.version k)⟩

theorem Shift.read (hs : Shift h t t') (he : Enrolled t.server) (hd : Dutiful t t') {h' : Fd}
    (htaken : t'.taken h' = t.taken h')
    (hears : ∀ u, Hears t'.server h' u → Hears t.server h' u) {users : List UserRecord}
    (hr : Read t h' users) : Read t' h' users := by
  refine ⟨hr.length_le.trans hs.records.count_le, fun l hl ↦ ?_, fun l u hu ↦ ?_⟩
  · rw [htaken]
    exact hr.rest l hl
  · obtain ⟨hname, v, hv, hstatus, hle, hdue⟩ := hr.entry l u hu
    have hlt : l < t.server.userCount :=
      Nat.lt_of_lt_of_le (List.getElem?_eq_some_iff.mp hu).1 hr.length_le
    refine ⟨hname.trans (hs.records.username l hlt).symm, v, by rw [htaken, hv],
      by rw [hs.written l v hle, hstatus], hle.trans (hs.version l), fun hnow ↦ ?_⟩
    exact hd h' u.username l v hnow (hears _ hnow) (hname ▸ he.find hlt) (hdue (hears _ hnow))

theorem Shift.knows (hs : Shift h t t') (he : Enrolled t.server) (hd : Dutiful t t') {h' : Fd}
    (hne : h' ≠ h) {handler : Handler} (hh : t.pool.handlers h' = some handler)
    (hk : Knows t h' handler) : Knows t' h' handler := by
  have hsame := hs.posts h' handler hne hh
  obtain ⟨i, c⟩ := handler
  cases c with
  | accrediting k username signature => exact hs.records.find hk
  | onlining k username => exact hs.records.find hk
  | settingUser k status =>
    rw [Knows, (hsame (by simp)).username]
    exact hs.records.find hk
  | offlining k =>
    rw [Knows, (hsame (by simp)).username]
    exact hs.records.find hk
  | settingClient status =>
    rw [Knows, (hsame (by simp)).username]
    exact hs.announces (hs.stamp h' hne) hk
  | announcing username status after => exact hs.announces (hs.stamp h' hne) hk
  | sweeping username status j after => exact hs.announces (hs.stamp h' hne) hk
  | listing =>
    rw [Knows, (hsame (by simp)).authenticated]
    exact hk
  | snapshotting k users =>
    rw [Knows, (hsame (by simp)).authenticated]
    exact ⟨hk.1, hk.2.1, hs.read he hd (hs.taken h' hne) (fun _ ↦ hs.hears hne) hk.2.2⟩
  | replying type payload =>
    cases type with
    | userListResponse =>
      obtain ⟨hauth, users, hpayload, hr⟩ := hk
      rw [Knows, (hsame (by simp)).authenticated]
      exact ⟨hauth, users, hpayload, hs.read he hd (hs.taken h' hne) (fun _ ↦ hs.hears hne) hr⟩
    | statusUpdate => exact hk
    | _ => trivial
  | _ => trivial

theorem Shift.still {m' : Pool} (hr : Extends t.server m'.world.server)
    (hids : ∀ j, SameIdentity (t.server.clients j) (m'.world.server.clients j))
    (hh : ∀ h', h' ≠ h → m'.handlers h' = t.pool.handlers h') :
    Shift h t { t with pool := m' } :=
  ⟨hr, fun _ ↦ Nat.le_refl _, fun _ _ _ ↦ rfl, hh, fun _ _ ↦ rfl, fun _ _ ↦ rfl,
    fun j _ _ _ ↦ hids j, fun j hj _ ↦ (hids j).socketFd ▸ hj, fun _ handler _ _ _ ↦ hids handler.slot⟩

theorem put_others (m : Pool) (r : World × Control) {h' : Fd} (hne : h' ≠ h) :
    (m.put h i r).handlers h' = m.handlers h' := Function.update_of_ne hne _ m.handlers

theorem put_self (m : Pool) (r : World × Control) : (m.put h i r).handlers h = some ⟨i, r.2⟩ :=
  Function.update_self h _ m.handlers

structure Counted (h : Fd) (t t' : Trace) : Prop where
  version : ∀ k, t.version k ≤ t'.version k
  written : ∀ k v, v ≤ t.version k → t'.written k v = t.written k v
  stamp : ∀ h', h' ≠ h → t'.stamp h' = t.stamp h'
  taken : ∀ h', h' ≠ h → t'.taken h' = t.taken h'

theorem Counted.refl (h : Fd) (t : Trace) : Counted h t t :=
  ⟨fun _ ↦ Nat.le_refl _, fun _ _ _ ↦ rfl, fun _ _ ↦ rfl, fun _ _ ↦ rfl⟩

theorem Counted.take (h : Fd) (t : Trace) (f : ℕ → Option ℕ) :
    Counted h t { t with taken := Function.update t.taken h f } :=
  ⟨fun _ ↦ Nat.le_refl _, fun _ _ _ ↦ rfl, fun _ _ ↦ rfl,
    fun _ hne ↦ Function.update_of_ne hne _ _⟩

theorem count_counted (t : Trace) (h : Fd) (c : Control) : Counted h t (t.count h c) := by
  unfold Trace.count
  dsimp only
  cases hwrites : Control.writes c with
  | some p =>
    obtain ⟨k, status⟩ := p
    refine ⟨fun l ↦ ?_, fun l v hv ↦ ?_, fun h' hne ↦ Function.update_of_ne hne _ _,
      fun h' hne ↦ rfl⟩
    · by_cases hl : l = k
      · subst hl
        simp
      · simp [Function.update_of_ne hl]
    · by_cases hl : l = k
      · subst hl
        have hne : v ≠ t.version l + 1 := by omega
        simp [Function.update_of_ne hne]
      · simp [Function.update_of_ne hl]
  | none =>
    cases c with
    | sweeping username status j after =>
      dsimp only
      split
      · exact ⟨fun _ ↦ Nat.le_refl _, fun _ _ _ ↦ rfl, fun _ _ ↦ rfl, fun _ _ ↦ rfl⟩
      · exact .refl h t
    | listing => exact .take h t _
    | snapshotting k users =>
      dsimp only
      split
      · exact .take h t _
      · exact .refl h t
    | replying type payload =>
      cases type with
      | userListResponse =>
        exact ⟨fun _ ↦ Nat.le_refl _, fun _ _ _ ↦ rfl, fun _ _ ↦ rfl, fun _ _ ↦ rfl⟩
      | _ => exact .refl h t
    | _ => exact .refl h t

theorem go_shift (he : Enrolled t.server) (hm : Manned t.pool)
    (hh : t.pool.handlers h = some ⟨i, c⟩) :
    Shift h t { t.count h c with pool := t.pool.put h i (proceed verify t.pool.world i c) } := by
  have hs := @proceed_section verify t.pool.world i c
  have hc := count_counted t h c
  have hslot : c = .done ∨ (t.server.clients i).socketFd = some h :=
    or_iff_not_imp_left.mpr (fun hne ↦ hm.owner h _ hh hne)
  have hids : ∀ j, j ≠ i ∨ c = .done → SameIdentity (t.server.clients j)
      ((proceed verify t.pool.world i c).1.server.clients j) := by
    rintro j (hj | rfl)
    · exact Section.others hs hj
    · exact .refl _
  have hback : ∀ j fd, ((proceed verify t.pool.world i c).1.server.clients j).socketFd = some fd →
      (t.server.clients j).socketFd = some fd := by
    intro j fd hfd
    by_cases hj : j = i
    · subst hj
      obtain hsame | ⟨_, hnone⟩ := Section.socket hs
      · exact hsame ▸ hfd
      · rw [hnone] at hfd
        cases hfd
    · exact (Section.others hs hj).socketFd ▸ hfd
  refine ⟨(Enrolment.Section.enrolled hs he).2, hc.version, hc.written,
    fun h' hne ↦ put_others _ _ hne, hc.stamp, hc.taken, fun j fd hne hfd ↦ hids j ?_,
    fun j hfd _ ↦ hback j h hfd, fun h' handler hne hh' hwork ↦ hids _ ?_⟩
  · have hold := hback j fd hfd
    obtain hdone | hown := hslot
    · exact .inr hdone
    · refine .inl (fun hj ↦ hne ?_)
      rw [hj, hown] at hold
      exact (Option.some.inj hold).symm
  · have hold := hm.owner h' handler hh' hwork
    obtain hdone | hown := hslot
    · exact .inr hdone
    · refine .inl (fun hj ↦ hne ?_)
      rw [hj, hown] at hold
      exact (Option.some.inj hold).symm

theorem accept_shift {challenge : Challenge} {m' : Pool}
    (hj : Joined t.pool challenge m') (hfree : ∀ i, freeSlot t.pool.world.server = some i →
      ∀ h handler, t.pool.handlers h = some handler → handler.control ≠ .done →
        handler.slot ≠ i) : Shift t.pool.world.nextFd t { t with pool := m' } := by
  cases hj with
  | full hs _ _ hh =>
    refine .still ?_ (fun j ↦ ?_) (fun _ _ ↦ by rw [hh])
    · rw [hs]
      exact .refl _
    · rw [hs]
      exact .refl _
  | slot i created es hi hself hother _ husers _ _ _ hh =>
    refine ⟨(SameRecords.of_users husers.1 husers.2).extends, fun _ ↦ Nat.le_refl _,
      fun _ _ _ ↦ rfl, fun h' hne ↦ ?_, fun _ _ ↦ rfl, fun _ _ ↦ rfl, fun j fd hne hfd ↦ ?_,
      fun j hfd hauth ↦ ?_, fun h' handler hne hh' hwork ↦ ?_⟩
    · dsimp only
      rw [hh]
      split
      · exact Function.update_of_ne hne _ _
      · rfl
    · by_cases hj : j = i
      · subst hj
        dsimp only [Trace.server] at hfd
        rw [hself] at hfd
        exact absurd (Option.some.inj hfd).symm hne
      · dsimp only [Trace.server]
        rw [hother j hj]
        exact .refl _
    · by_cases hj : j = i
      · subst hj
        dsimp only [Trace.server] at hauth
        rw [hself] at hauth
        cases hauth
      · dsimp only [Trace.server] at hfd
        rw [hother j hj] at hfd
        exact hfd
    · dsimp only [Trace.server]
      rw [hother _ (hfree i hi h' handler hh' hwork)]
      exact .refl _

theorem receive_shift {stream : Bytes} : Shift h t
    { t with pool := t.pool.put h i (receiveRequest t.pool.world i stream) } := by
  have hadmitted := takeRequest_admitted t.pool.world i stream
  have hworld := receiveRequest_world t.pool.world i stream
  refine .still ?_ (fun j ↦ ?_) (fun h' hne ↦ put_others _ _ hne)
  · rw [Pool.put, hworld]
    exact (SameRecords.of_users hadmitted.users.1 hadmitted.users.2).extends
  · rw [Pool.put, hworld]
    exact (hadmitted.identity j).1

end CChat.Threads.Statuses
