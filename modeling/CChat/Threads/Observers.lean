import CChat.Threads.Sights

namespace CChat.Threads.Observers

open CChat.Library CChat.Library.Notices CChat.Protocol.Types CChat.Protocol.Wire
  CChat.Server.State CChat.Server.Network CChat.Server.Users CChat.Server.Handlers
  CChat.Server.Registry CChat.Server.Displays Machine Sections Messages
  Crew Statuses Duties Accounts FullSends Sights
open CChat.Server.Loop hiding Input step reach
open CChat.Server.Invariants hiding Turn step_turn

variable {verify : Signature → Challenge → Key → Bool} {t t' : Trace} {x : Input} {fd : Fd}

/-- No handler is in the middle of a request or of its closing block. -/
def Quiescent (m : Pool) : Prop :=
  ∀ h handler, m.handlers h = some handler →
    handler.control = .reading ∨ handler.control = .testing ∨ handler.control = .done

/-- Every connection with a login shows the registry's status of every user it
was given a list with, other than its own. -/
def Converged (w : World) : Prop :=
  ∀ j fd, (w.server.clients j).connected = true → (w.server.clients j).authenticated = true →
    (w.server.clients j).socketFd = some fd → ∀ u ∈ (display w.out fd).listed,
    u ≠ (w.server.clients j).username → ∃ k, findUser w.server u = some k ∧
      (display w.out fd).shown u = some (w.server.users k).status.code

/-- A connection shows of the users of its lists what it was told last, and is
still going to be told of what is newer. -/
def Follows (t : Trace) (fd : Fd) : Prop :=
  ∀ u ∈ (Trace.display t fd).listed, ∃ k, findUser t.server u = some k ∧
    (Trace.display t fd).shown u = some (t.written k (t.seen fd k)).code ∧
    (Hears t.server fd u → t.board.Due fd k (t.seen fd k))

structure Placed (t : Trace) (j : ℕ) (fd : Fd) : Prop where
  name : (t.server.clients j).authenticated = true →
    (Trace.display t fd).name = some (t.server.clients j).username
  blank : (t.server.clients j).authenticated = false → (Trace.display t fd).listed = []

structure Seated (t : Trace) : Prop where
  placed : ∀ j fd, (t.server.clients j).socketFd = some fd → Placed t j fd
  late : ∀ fd, t.pool.world.nextFd ≤ fd → (Trace.display t fd).listed = []

structure Onward (t t' : Trace) : Prop where
  records : Extends t.server t'.server
  written : ∀ k v, v ≤ t.version k → t'.written k v = t.written k v
  nextFd : t.pool.world.nextFd ≤ t'.pool.world.nextFd
  dutiful : Dutiful t t'
  attentive : Attentive t t'

theorem observe_onward (ht : Accounted t) (hx : ordered t x = true) :
    Onward t (observe verify t x) := by
  obtain ⟨_, hdutiful, hattentive⟩ := @observe_kept verify t x ht hx
  obtain ⟨i, es, hes⟩ := @step_handled verify t.pool ht.rings x
  have hsteady : Extends t.server (observe verify t x).server ∧
      ∀ k v, v ≤ t.version k → (observe verify t x).written k v = t.written k v := by
    obtain hsame | ⟨h, i, c, _, hh, hgo⟩ | ⟨h, m', _, hs, _⟩ :=
      (@observe_observed verify t x ht.manned hx).shift ht
    · rw [hsame]
      exact ⟨.refl _, fun _ _ _ ↦ rfl⟩
    · have hs := @go_shift verify t i c h ht.enrolled ht.manned hh
      rw [hgo]
      exact ⟨hs.records, hs.written⟩
    · exact ⟨hs.records, hs.written⟩
  exact ⟨hsteady.1, hsteady.2, hes.nextFd, hdutiful, hattentive⟩

theorem hears_kept {s s' : ServerState} {u : Username}
    (hk : ∀ j, (s'.clients j).socketFd = some fd → Kept s s' j fd) (h : Hears s' fd u) :
    Hears s fd u := by
  obtain ⟨j, hsocket, hconnected, hauth, hne⟩ := h
  have hkept := hk j hsocket
  exact ⟨j, hkept.socketFd, hkept.connected hconnected, hkept.authenticated ▸ hauth,
    hkept.username ▸ hne⟩

theorem Follows.empty (h : (Trace.display t fd).listed = []) : Follows t fd := by
  intro u hu
  rw [h] at hu
  cases hu

theorem Follows.keep (hf : Follows t fd) (ho : Onward t t')
    (hle : ∀ k, t.seen fd k ≤ t.version k)
    (hk : ∀ j, (t'.server.clients j).socketFd = some fd → Kept t.server t'.server j fd)
    (hd : Trace.display t' fd = Trace.display t fd) (hs : t'.seen fd = t.seen fd) :
    Follows t' fd := by
  intro u hu
  rw [hd] at hu ⊢
  obtain ⟨k, hu', hshown, hdue⟩ := hf u hu
  refine ⟨k, ho.records.find hu', ?_, fun hears ↦ ?_⟩
  · rw [hs, ho.written k _ (hle k)]
    exact hshown
  · have hold := hears_kept hk hears
    exact ho.attentive fd u k hears hold hu' (hdue hold)

theorem Follows.told {k n : ℕ} {username : Username} (hf : Follows t fd) (ho : Onward t t')
    (hle : ∀ k, t.seen fd k ≤ t.version k) (hk : AllKept t.server t'.server)
    (hname : findUser t.server username = some k) (hn : n ≤ t.version k)
    (hd : Trace.display t' fd = (Trace.display t fd).note [(username, (t.written k n).code)])
    (hs : ∀ l, t'.seen fd l = if k = l then n else t.seen fd l) : Follows t' fd := by
  intro u hu
  rw [hd] at hu ⊢
  obtain ⟨l, hu', hshown, hdue⟩ := hf u hu
  refine ⟨l, ho.records.find hu', ?_, fun hears ↦ ?_⟩
  · by_cases hl : k = l
    · subst hl
      obtain rfl := find_same hu' hname
      rw [hs, if_pos rfl, ho.written k n hn]
      refine note_told (List.mem_singleton_self _) (fun e he _ ↦ ?_)
      rw [List.mem_singleton.mp he]
    · rw [hs, if_neg hl, ho.written l _ (hle l), note_other (fun e he heq ↦ ?_)]
      · exact hshown
      · rw [List.mem_singleton.mp he] at heq
        obtain rfl : username = u := heq
        exact hl (Option.some.inj (hname.symm.trans hu'))
  · have hold := hears_kept (fun j ↦ hk j fd) hears
    exact ho.attentive fd u l hears hold hu' (hdue hold)

theorem read_find {users : List UserRecord} {l : ℕ} {u : UserRecord} {h : Fd}
    (hr : Read t h users) (he : Enrolled t.server) (hl : users[l]? = some u) :
    findUser t.server u.username = some l := by
  have hlt := (List.getElem?_eq_some_iff.mp hl).1
  rw [(hr.entry l u hl).1]
  exact he.find (Nat.lt_of_lt_of_le hlt hr.length_le)

theorem mem_entries {users : List UserRecord} {e : Entry} (he : e ∈ users.map entryOf) :
    ∃ (l : ℕ) (u : UserRecord), users[l]? = some u ∧ e = (u.username, u.status.code) := by
  obtain ⟨u, hu, rfl⟩ := List.mem_map.mp he
  obtain ⟨l, hl⟩ := List.mem_iff_getElem?.mp hu
  exact ⟨l, u, hl, rfl⟩

theorem Follows.listed {h : Fd} {users : List UserRecord} (hf : Follows t h) (ho : Onward t t')
    (he : Enrolled t.server) (hle : ∀ k, t.seen h k ≤ t.version k)
    (hk : AllKept t.server t'.server) (hr : Read t h users)
    (hd : Trace.display t' h = (Trace.display t h).list (users.map entryOf))
    (hs : ∀ l, t'.seen h l = (t.taken h l).getD (t.seen h l)) : Follows t' h := by
  intro u hu
  rw [hd] at hu ⊢
  by_cases hin : ∃ (l : ℕ) (r : UserRecord), users[l]? = some r ∧ r.username = u
  · obtain ⟨l, r, hl, rfl⟩ := hin
    obtain ⟨_, v, hv, hstatus, hv', hdue⟩ := hr.entry l r hl
    have hfind := read_find hr he hl
    have hseen : t'.seen h l = v := by rw [hs, hv, Option.getD_some]
    refine ⟨l, ho.records.find hfind, ?_, fun hears ↦ ?_⟩
    · rw [hseen, ho.written l v hv', ← hstatus]
      refine note_told (List.mem_map_of_mem (List.mem_of_getElem? hl)) (fun e he' hname ↦ ?_)
      obtain ⟨l', r', hl', rfl⟩ := mem_entries he'
      have hfind' := read_find hr he hl'
      dsimp only at hname
      rw [hname, hfind, Option.some.injEq] at hfind'
      rw [← hfind', hl, Option.some.injEq] at hl'
      rw [hl']
    · have hold := hears_kept (fun j ↦ hk j h) hears
      rw [hseen]
      exact ho.dutiful h r.username l v hears hold hfind (hdue hold)
  · have hother : ∀ e ∈ users.map entryOf, e.1 ≠ u := by
      intro e he' hname
      obtain ⟨l, r, hl, rfl⟩ := mem_entries he'
      exact hin ⟨l, r, hl, hname⟩
    have hold : u ∈ (Trace.display t h).listed := by
      refine (List.mem_append.mp hu).resolve_right (fun hmem ↦ ?_)
      obtain ⟨e, he', hname⟩ := List.mem_map.mp hmem
      exact hother e he' hname
    obtain ⟨k, hu', hshown, hdue⟩ := hf u hold
    have htaken : t.taken h k = none := by
      refine hr.rest k (Nat.le_of_not_lt (fun hlt ↦ hin ⟨k, users[k], ?_, ?_⟩))
      · exact List.getElem?_eq_getElem hlt
      · exact find_same (read_find hr he (List.getElem?_eq_getElem hlt)) hu'
    have hseen : t'.seen h k = t.seen h k := by rw [hs, htaken, Option.getD_none]
    refine ⟨k, ho.records.find hu', ?_, fun hears ↦ ?_⟩
    · rw [hseen, ho.written k _ (hle k)]
      exact (note_other hother).trans hshown
    · have hears' := hears_kept (fun j ↦ hk j h) hears
      exact ho.attentive h u k hears hears' hu' (hdue hears')

theorem Placed.keep {j : ℕ} (h : Placed t j fd) (hk : Kept t.server t'.server j fd)
    (hname : (Trace.display t' fd).name = (Trace.display t fd).name)
    (hlisted : (t.server.clients j).authenticated = false →
      (Trace.display t' fd).listed = (Trace.display t fd).listed) : Placed t' j fd := by
  refine ⟨fun hauth ↦ ?_, fun hauth ↦ ?_⟩
  · rw [hname, hk.username]
    exact h.name (hk.authenticated ▸ hauth)
  · have hold := hk.authenticated ▸ hauth
    rw [hlisted hold]
    exact h.blank hold

theorem login_name (d : Display) (name : Username) : (d.login name).name = some name := by
  unfold Display.login
  split
  next hname => exact hname
  · rfl

theorem Manned.late {j : ℕ} {h : Fd} (hm : Manned t.pool)
    (hsocket : (t.server.clients j).socketFd = some h) (hle : t.pool.world.nextFd ≤ fd) :
    fd ≠ h :=
  fun heq ↦ absurd (hm.socket j h hsocket).1 (Nat.not_lt.mpr (heq ▸ hle))

theorem Sight.seated (hs : Sight t t') (ho : Onward t t') (hm : Manned t.pool) (ht : Seated t) :
    Seated t' := by
  have hlate : ∀ fd, t'.pool.world.nextFd ≤ fd → (Trace.display t fd).listed = [] :=
    fun fd hle ↦ ht.late fd (ho.nextFd.trans hle)
  cases hs with
  | hidden hk hd =>
    refine ⟨fun j fd hfd ↦ ?_, fun fd hle ↦ hd fd ▸ hlate fd hle⟩
    have hkept := hk j fd hfd
    exact (ht.placed j fd hkept.socketFd).keep hkept (by rw [hd]) (fun _ ↦ by rw [hd])
  | joined i hsocket hauth hk hd =>
    refine ⟨fun j fd hfd ↦ ?_, fun fd hle ↦ hd fd ▸ hlate fd hle⟩
    by_cases hj : j = i
    · subst hj
      obtain rfl := Option.some.inj (hsocket.symm.trans hfd)
      refine ⟨fun hauth' ↦ ?_, fun _ ↦ ?_⟩
      · rw [hauth] at hauth'
        cases hauth'
      · rw [hd]
        exact ht.late _ (Nat.le_refl _)
    · have hkept := hk j fd hj hfd
      exact (ht.placed j fd hkept.socketFd).keep hkept (by rw [hd]) (fun _ ↦ by rw [hd])
  | update fd₀ k n username hk _ _ _ hd hdo =>
    have hsame : ∀ fd, (Trace.display t' fd).name = (Trace.display t fd).name ∧
        (Trace.display t' fd).listed = (Trace.display t fd).listed := by
      intro fd
      by_cases hfd : fd = fd₀
      · rw [hfd, hd]
        exact ⟨rfl, rfl⟩
      · rw [hdo fd hfd]
        exact ⟨rfl, rfl⟩
    refine ⟨fun j fd hfd ↦ ?_, fun fd hle ↦ (hsame fd).2 ▸ hlate fd hle⟩
    have hkept := hk j fd hfd
    exact (ht.placed j fd hkept.socketFd).keep hkept (hsame fd).1 (fun _ ↦ (hsame fd).2)
  | list i h users hk hsocket hauth _ hd hdo =>
    refine ⟨fun j fd hfd ↦ ?_, fun fd hle ↦ ?_⟩
    · have hkept := hk j fd hfd
      refine (ht.placed j fd hkept.socketFd).keep hkept ?_ (fun hauth' ↦ ?_)
      · by_cases heq : fd = h
        · rw [heq, hd]
          rfl
        · rw [hdo fd heq]
      · refine congrArg Display.listed (hdo fd (fun heq ↦ ?_))
        have hj := hm.distinct j i h (heq ▸ hkept.socketFd) hsocket
        rw [hj, hauth] at hauth'
        cases hauth'
    · rw [hdo fd (Manned.late hm hsocket (ho.nextFd.trans hle))]
      exact hlate fd hle
  | login i h name hsocket hself hk hd hdo =>
    refine ⟨fun j fd hfd ↦ ?_, fun fd hle ↦ ?_⟩
    · by_cases hj : j = i
      · subst hj
        rw [hself] at hfd
        obtain rfl := Option.some.inj (hsocket.symm.trans hfd)
        refine ⟨fun _ ↦ ?_, fun hauth ↦ ?_⟩
        · rw [hd, hself]
          exact login_name _ name
        · rw [hself] at hauth
          cases hauth
      · have hkept := hk j fd hj hfd
        have hne : fd ≠ h := fun heq ↦ hj (hm.distinct j i h (heq ▸ hkept.socketFd) hsocket)
        exact (ht.placed j fd hkept.socketFd).keep hkept (by rw [hdo fd hne])
          (fun _ ↦ by rw [hdo fd hne])
    · rw [hdo fd (Manned.late hm hsocket (ho.nextFd.trans hle))]
      exact hlate fd hle

/-- A login under the name of the last one leaves what is shown. -/
theorem Follows.login {j : ℕ} {h : Fd} {name : Username} (hf : Follows t h) (ho : Onward t t')
    (ht : Seated t) (hle : ∀ k, t.seen h k ≤ t.version k)
    (hsocket : (t.server.clients j).socketFd = some h)
    (hself : t'.server.clients j =
      { t.server.clients j with authenticated := true, username := name })
    (hk : ∀ l fd, l ≠ j → (t'.server.clients l).socketFd = some fd →
      Kept t.server t'.server l fd)
    (hd : Trace.display t' h = (Trace.display t h).login name) (hs : t'.seen = t.seen) :
    Follows t' h := by
  have hplaced := ht.placed j h hsocket
  by_cases hname : (Trace.display t h).name = some name
  · have hsame : Trace.display t' h = Trace.display t h := hd.trans (if_pos hname)
    cases hauth : (t.server.clients j).authenticated with
    | false =>
      refine .empty ?_
      rw [hsame]
      exact hplaced.blank hauth
    | true =>
      have hown : (t.server.clients j).username = name :=
        Option.some.inj ((hplaced.name hauth).symm.trans hname)
      refine hf.keep ho hle (fun l hl ↦ ?_) hsame (by rw [hs])
      by_cases hlj : l = j
      · subst hlj
        exact ⟨hsocket, by rw [hself, hauth], by rw [hself, hown],
          fun hconnected ↦ by rwa [hself] at hconnected⟩
      · exact hk l h hlj hl
  · refine .empty ?_
    rw [hd, Display.login, if_neg hname]

theorem Sight.follows (hs : Sight t t') (ho : Onward t t') (ht : Accounted t) (hse : Seated t)
    (hf : ∀ fd, Follows t fd) (fd : Fd) : Follows t' fd := by
  cases hs with
  | hidden hk hd hseen =>
    exact (hf fd).keep ho (ht.seen fd) (fun j hj ↦ hk j fd hj) (hd fd) (by rw [hseen])
  | joined i hsocket _ hk hd hseen =>
    by_cases hfd : fd = t.pool.world.nextFd
    · refine .empty ?_
      rw [hd]
      exact hse.late fd (Nat.le_of_eq hfd.symm)
    · refine (hf fd).keep ho (ht.seen fd) (fun j hj ↦ hk j fd (fun heq ↦ ?_) hj) (hd fd)
        (by rw [hseen])
      rw [heq, hsocket] at hj
      exact hfd (Option.some.inj hj).symm
  | update fd₀ k n username hk _ hu hn hd hdo hseen =>
    by_cases hfd : fd = fd₀
    · subst hfd
      refine (hf fd).told ho (ht.seen fd) hk hu hn hd (fun l ↦ ?_)
      simp only [hseen, true_and]
    · refine (hf fd).keep ho (ht.seen fd) (fun j hj ↦ hk j fd hj) (hdo fd hfd) ?_
      funext l
      rw [hseen, if_neg (fun heq ↦ hfd heq.1.symm)]
  | list j h users hk _ _ hr hd hdo hseen =>
    by_cases hfd : fd = h
    · subst hfd
      exact (hf fd).listed ho ht.enrolled (ht.seen fd) hk hr hd
        (fun l ↦ (hseen fd l).trans (if_pos rfl))
    · refine (hf fd).keep ho (ht.seen fd) (fun j hj ↦ hk j fd hj) (hdo fd hfd) ?_
      funext l
      rw [hseen, if_neg hfd]
  | login j h name hsocket hself hk hd hdo hseen =>
    by_cases hfd : fd = h
    · subst hfd
      exact (hf fd).login ho hse (ht.seen fd) hsocket hself hk hd hseen
    · refine (hf fd).keep ho (ht.seen fd) (fun l hl ↦ hk l fd (fun heq ↦ ?_) hl) (hdo fd hfd)
        (by rw [hseen])
      rw [heq, hself] at hl
      exact hfd (Option.some.inj (hl.symm.trans hsocket))

/-- What holds of every run in which the frames are ordered and every `send`
takes all it is given. -/
structure Followed (t : Trace) : Prop where
  accounted : Accounted t
  sends : Env.sendsAll t.pool.world.env = true
  seated : Seated t
  follows : ∀ fd, Follows t fd

theorem initial_followed : Followed Trace.initial := by
  refine ⟨initial_accounted, rfl, ⟨fun j fd hfd ↦ ?_, fun _ _ ↦ rfl⟩, fun fd ↦ .empty rfl⟩
  cases hfd

theorem observe_followed (ht : Followed t) (hx : ordered t x = true)
    (hsends : Input.sendsAll x = true) : Followed (observe verify t x) := by
  have ho := @observe_onward verify t x ht.accounted hx
  have hs := @observe_sight verify t x ht.accounted ht.sends hx
  exact ⟨(observe_kept ht.accounted hx).1, step_sendsAll ht.sends hsends,
    Sight.seated hs ho ht.accounted.manned ht.seated,
    Sight.follows hs ho ht.accounted ht.seated ht.follows⟩

theorem quiescent_owed (hq : Quiescent t.pool) (fd : Fd) (k n : ℕ) : ¬ t.board.owed fd k n := by
  rintro ⟨h, ⟨i, c⟩, username, p, j, hh, ha, _⟩
  have hc : c = .reading ∨ c = .testing ∨ c = .done := hq h _ hh
  obtain rfl | rfl | rfl := hc <;> cases ha

/-- Where no handler is at work, every list shows what the registry says. -/
theorem Followed.converged (ht : Followed t) (hq : Quiescent t.pool) : Converged t.pool.world := by
  intro j fd hconnected hauth hsocket u hu hne
  obtain ⟨k, hk, hshown, hdue⟩ := ht.follows fd u hu
  refine ⟨k, hk, hshown.trans ?_⟩
  have hnewest : t.seen fd k = t.version k :=
    (hdue ⟨j, hsocket, hconnected, hauth, hne⟩).settled (quiescent_owed hq fd k)
  rw [hnewest, ← ht.accounted.status k]

variable (verify) in
theorem followed_always (xs : List Input) (hsends : ∀ x ∈ xs, Input.sendsAll x = true)
    (h : Runs.Along (observe verify) (fun t x ↦ ordered t x = true) Trace.initial xs) :
    Runs.Always (observe verify) Followed Trace.initial xs :=
  Runs.Along.always (fun _ _ ht hx ↦ observe_followed ht hx.1 hx.2) initial_followed
    (h.and_inputs hsends)

variable (verify) in
/-- What a connection shows of the users of its lists is their status in the
registry whenever no handler is in the middle of its work. -/
theorem observers_converge (xs : List Input) (hsends : ∀ x ∈ xs, Input.sendsAll x = true)
    (h : Runs.Along (observe verify) (fun t x ↦ ordered t x = true) Trace.initial xs) :
    Runs.Always (observe verify) (fun t ↦ Quiescent t.pool → Converged t.pool.world)
      Trace.initial xs :=
  (followed_always verify xs hsends h).mono (fun _ ht ↦ ht.converged)

def bobEnters : List Input :=
  [.accept (Block.zero _) true, .go 0,
    .receive 0 (registerPacket (text "alice") (List.replicate 32 1)), .go 0, .go 0, .go 0,
    .receive 0 (registerPacket (text "bob") (List.replicate 32 2)), .go 0, .go 0, .go 0,
    .receive 0 (loginPacket (text "alice") (List.replicate signatureSize 0))] ++
  List.replicate 10 (.go 0) ++
  [.accept (Block.zero _) true, .go 1,
    .receive 1 (loginPacket (text "bob") (List.replicate signatureSize 0))] ++
  List.replicate 11 (.go 1)

def bobIsTold : List Input := bobEnters ++ [.receive 1 (packet 0x07 [])] ++
  List.replicate 6 (.go 1) ++ [.receive 0 (packet 0x06 [2])] ++ List.replicate 7 (.go 0)

def alice : Username := Username.ofBytes (text "alice")

theorem quiescent_of {m : Pool} (hm : Manned m)
    (hall : ∀ h < m.world.nextFd, (m.handlers h).all (fun handler ↦ decide
      (handler.control = .reading ∨ handler.control = .testing ∨ handler.control = .done)) = true) :
    Quiescent m := by
  intro h handler hh
  have hidle := hall h (hm.bounded h handler hh)
  rw [hh] at hidle
  exact of_decide_eq_true hidle

theorem observers_converge_bob :
    Converged (Runs.run (observe (fun _ _ _ ↦ true)) Trace.initial bobIsTold).pool.world ∧
      alice ∈ (display (reach (fun _ _ _ ↦ true) bobIsTold).world.out 1).listed := by
  have hsends : ∀ x ∈ bobIsTold, Input.sendsAll x = true := by decide +kernel
  have hordered : Runs.Along (observe (fun _ _ _ ↦ true)) (fun t x ↦ ordered t x = true)
      Trace.initial bobIsTold := by decide +kernel
  have hmanned := (followed_always _ bobIsTold hsends hordered).last.accounted.manned
  refine ⟨?_, by decide +kernel⟩
  exact (observers_converge (fun _ _ _ ↦ true) bobIsTold hsends hordered).last
    (quiescent_of hmanned (by decide +kernel))

def bobIsMisled : List Input := bobEnters ++ [.receive 1 (packet 0x07 [])] ++
  List.replicate 4 (.go 1) ++ [.receive 0 (packet 0x06 [2])] ++ List.replicate 7 (.go 0) ++
  List.replicate 2 (.go 1)

theorem bob_misled : ¬ ((∀ x ∈ bobIsMisled, Input.sendsAll x = true) →
    Runs.Always (step (fun _ _ _ ↦ true)) (fun m ↦ Quiescent m → Converged m.world)
      Pool.initial bobIsMisled) := by
  intro h
  have hvacant : Runs.Along (step (fun _ _ _ ↦ true)) (fun m x ↦ vacant m x = true)
      Pool.initial bobIsMisled := by decide +kernel
  have hmanned := (manned_always bobIsMisled hvacant).last.2
  have hconverged := (h (by decide +kernel)).last (quiescent_of hmanned (by decide +kernel))
  obtain ⟨k, hk, hshown⟩ := hconverged 1 1 (by decide +kernel) (by decide +kernel)
    (by decide +kernel) alice (by decide +kernel) (by decide +kernel)
  have hfirst : findUser (Runs.run (step (fun _ _ _ ↦ true)) Pool.initial
      bobIsMisled).world.server alice = some 0 := by decide +kernel
  rw [hfirst] at hk
  cases hk
  exact absurd hshown (by decide +kernel)

end CChat.Threads.Observers
