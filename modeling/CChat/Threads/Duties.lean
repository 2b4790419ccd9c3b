import CChat.Threads.Statuses

namespace CChat.Threads.Duties

open CChat.Library CChat.Library.Notices CChat.Protocol.Types CChat.Server.State
  CChat.Server.Network CChat.Server.Users CChat.Server.Handlers CChat.Server.Effects
  CChat.Server.Views CChat.Server.Steps CChat.Server.Registry CChat.Server.Unchanged
  CChat.Server.Displays Machine Sections Messages Crew Statuses
open CChat.Server.Loop hiding Input step reach
open CChat.Server.Invariants hiding Turn step_turn

variable {verify : Signature → Challenge → Key → Bool} {t t' : Trace} {i : ℕ} {c : Control}
  {h : Fd} {x : Input}

/-- The handler that takes the step, if it had an announcement to make, has it
still to make to everybody it had to make it to. -/
def CarriesOn (h : Fd) (t t' : Trace) : Prop :=
  ∀ handler username p, t.pool.handlers h = some handler →
    announced t.server handler = some (username, p) →
    ∃ handler' p', t'.pool.handlers h = some handler' ∧
      announced t'.server handler' = some (username, p') ∧ p' ≤ p ∧ t'.stamp h = t.stamp h

theorem Shift.owed_on (hs : Shift h t t') (hm : Manned t.pool) (hc : CarriesOn h t t') {fd : Fd}
    {u : Username} {k v : ℕ} (hears : Hears t'.server fd u) (ho : Owed t fd k v) :
    Owed t' fd k v := by
  obtain hsame | ⟨handler, username, p, j, hh, ha, hk, hv, _, hl, hp⟩ := hs.owed hm hears ho
  · exact hsame
  · obtain ⟨handler', p', hh', ha', hp', hstamp⟩ := hc handler username p hh ha
    exact ⟨h, handler', username, p', j, hh', ha', hk, hstamp.trans hv, hl, hp'.trans hp⟩

theorem Shift.dutiful (hs : Shift h t t') (hm : Manned t.pool) (hc : CarriesOn h t t')
    (hversion : t'.version = t.version) (hseen : t'.seen = t.seen) :
    Dutiful t t' ∧ Attentive t t' := by
  have hd : Dutiful t t' := by
    intro fd u k v hears _ _ hdue
    exact hdue.keep (congrFun hversion k) (congrFun (congrFun hseen fd) k)
      (Shift.owed_on hs hm hc hears)
  refine ⟨hd, fun fd u k hears hold hk hdue ↦ ?_⟩
  rw [hseen]
  exact hd fd u k _ hears hold hk hdue

theorem carriesOn_silent (hnone : ∀ handler, t.pool.handlers h = some handler →
    announced t.server handler = none) : CarriesOn h t t' := by
  intro handler username p hh ha
  rw [hnone handler hh] at ha
  cases ha

theorem write_dutiful {k : ℕ} {username : Username} {handler' : Handler} (hs : Shift h t t')
    (hm : Manned t.pool) (hnone : ∀ handler, t.pool.handlers h = some handler →
      announced t.server handler = none)
    (hversion : t'.version = Function.update t.version k (t.version k + 1))
    (hseen : t'.seen = t.seen) (hstamp : t'.stamp h = t.version k + 1)
    (hh : t'.pool.handlers h = some handler')
    (ha : announced t'.server handler' = some (username, 0))
    (hk : findUser t'.server username = some k) : Dutiful t t' ∧ Attentive t t' := by
  have hd : Dutiful t t' := by
    intro fd u l v hears _ _ hdue
    by_cases hl : l = k
    · subst hl
      have hnew : t'.version l = t.version l + 1 := by rw [hversion, Function.update_self]
      obtain ⟨j, hj⟩ := hears.slot
      exact due_write ⟨h, handler', username, 0, j, hh, ha, hk, hstamp.trans hnew.symm, hj,
        Nat.zero_le j⟩
    · have hsame : t'.version l = t.version l := by rw [hversion, Function.update_of_ne hl]
      exact hdue.keep hsame (congrFun (congrFun hseen fd) l)
        (Shift.owed_on hs hm (carriesOn_silent hnone) hears)
  refine ⟨hd, fun fd u l hears hold hl hdue ↦ ?_⟩
  rw [hseen]
  exact hd fd u l _ hears hold hl hdue

theorem writes_announced {k : ℕ} {status : UserStatus} (hk : Knows t h ⟨i, c⟩)
    (hwrites : Control.writes c = some (k, status)) :
    announced t.server ⟨i, c⟩ = none ∧
      (proceed verify t.pool.world i c).1 =
        t.pool.world.modifyUser k (fun u ↦ { u with status := status }) ∧
      ∃ username, findUser t.server username = some k ∧
        (∃ after, (proceed verify t.pool.world i c).2 = .announcing username status after) ∨
        findUser t.server (t.server.clients i).username = some k ∧
          (proceed verify t.pool.world i c).2 = .settingClient status := by
  cases c with
  | onlining l username =>
    cases hwrites
    exact ⟨rfl, rfl, username, .inl ⟨hk, .loggedIn, rfl⟩⟩
  | settingUser l status' =>
    cases hwrites
    exact ⟨rfl, rfl, (t.server.clients i).username, .inr ⟨hk, rfl⟩⟩
  | offlining l =>
    cases hwrites
    exact ⟨rfl, rfl, (t.server.clients i).username, .inl ⟨hk, .closing, rfl⟩⟩
  | _ => cases hwrites

theorem find_same {s : ServerState} {u u' : Username} {k : ℕ} (h : findUser s u = some k)
    (h' : findUser s u' = some k) : u = u' :=
  (findUser_some h).2.2.symm.trans (findUser_some h').2.2

theorem audience_hears {s : ServerState} {username : Username} {j : ℕ} {fd : Fd}
    (hlt : j < s.clientCount) (hsocket : (s.clients j).socketFd = some fd)
    (hconnected : (s.clients j).connected = true) (hauth : (s.clients j).authenticated = true)
    (hne : username ≠ (s.clients j).username) : audience s username j = some fd := by
  have hne' : (s.clients j).username ≠ username := fun heq ↦ hne heq.symm
  simp [audience, hlt, hsocket, hconnected, hauth, hne']

theorem count_sweeping (t : Trace) (h : Fd) (username : Username) (status : UserStatus) (j : ℕ)
    (after : After) :
    (t.count h (.sweeping username status j after)).version = t.version ∧
      (t.count h (.sweeping username status j after)).stamp = t.stamp ∧
      ∀ fd k, (t.count h (.sweeping username status j after)).seen fd k =
        if audience t.server username j = some fd ∧ findUser t.server username = some k
        then t.stamp h else t.seen fd k := by
  simp only [Trace.count, Control.writes]
  split
  next fd₀ k₀ haud hk =>
    refine ⟨rfl, rfl, fun fd k ↦ ?_⟩
    dsimp only
    rw [haud, hk]
    by_cases hfd : fd = fd₀
    · subst hfd
      by_cases hkk : k = k₀
      · subst hkk
        simp
      · have hkk' : k₀ ≠ k := fun heq ↦ hkk heq.symm
        simp [Function.update_of_ne hkk, hkk']
    · have hfd' : fd₀ ≠ fd := fun heq ↦ hfd heq.symm
      simp [Function.update_of_ne hfd, hfd']
  next hnone =>
    refine ⟨rfl, rfl, fun fd k ↦ ?_⟩
    rw [if_neg]
    rintro ⟨haud, hk⟩
    exact hnone fd k haud hk

theorem sweeping_control (w : World) (i : ℕ) (username : Username) (status : UserStatus) (j : ℕ)
    (after : After) : (proceed verify w i (.sweeping username status j after)).2 =
      if j < w.server.clientCount then .sweeping username status (j + 1) after
      else after.control := by
  simp only [proceed]
  split
  · split <;> rfl
  · rfl

/-- A turn of a broadcast settles what the handler owes to the slot. -/
theorem sweep_owed {username : Username} {status : UserStatus} {j : ℕ} {after : After}
    (he : Enrolled t.server) (hm : Manned t.pool)
    (hh : t.pool.handlers h = some ⟨i, .sweeping username status j after⟩) {fd : Fd}
    {u : Username} {k v : ℕ}
    (ht' : t' = { t.count h (.sweeping username status j after) with
      pool := t.pool.put h i
        (proceed verify t.pool.world i (.sweeping username status j after)) })
    (hears : Hears t'.server fd u) (hold : Hears t.server fd u)
    (hu : findUser t.server u = some k) (ho : Owed t fd k v) :
    Owed t' fd k v ∨ audience t.server username j = some fd ∧
      findUser t.server username = some k ∧ v = t.stamp h := by
  have hs : Shift h t t' := ht' ▸ go_shift he hm hh
  obtain hsame | ⟨handler, name, p, l, hh', ha, hk, hv, hsocket, hl, hp⟩ := hs.owed hm hears ho
  · exact .inl hsame
  · obtain rfl := Option.some.inj (hh.symm.trans hh')
    obtain ⟨rfl, rfl⟩ := Prod.mk.inj (Option.some.inj ha)
    have hcount := (hm.socket l fd hsocket).2
    by_cases hlj : l = j
    · subst hlj
      obtain ⟨l', hsocket', hconnected, hauth, hne⟩ := hold
      obtain rfl := hm.distinct l l' fd hsocket hsocket'
      obtain rfl := find_same (hs.records.find hu) hk
      exact .inr ⟨audience_hears hcount hsocket hconnected hauth hne, hu, hv.symm⟩
    · have hnext : t'.pool.handlers h = some ⟨i, .sweeping username status (j + 1) after⟩ := by
        rw [ht']
        refine (put_self _ _).trans ?_
        rw [sweeping_control, if_pos (Nat.lt_of_le_of_lt hp hcount)]
      have hstamp : t'.stamp h = t.stamp h := by
        rw [ht']
        exact congrFun (count_sweeping t h username status j after).2.1 h
      exact .inl ⟨h, _, username, j + 1, l, hnext, rfl, hk, hstamp.trans hv, hl, by omega⟩

theorem sweep_dutiful {username : Username} {status : UserStatus} {j : ℕ} {after : After}
    (he : Enrolled t.server) (hm : Manned t.pool)
    (hh : t.pool.handlers h = some ⟨i, .sweeping username status j after⟩)
    (hk : Announces t h username status)
    (hx : ∀ fd k, audience t.server username j = some fd → findUser t.server username = some k →
      t.seen fd k ≤ t.stamp h)
    (ht' : t' = { t.count h (.sweeping username status j after) with
      pool := t.pool.put h i
        (proceed verify t.pool.world i (.sweeping username status j after)) }) :
    Dutiful t t' ∧ Attentive t t' := by
  obtain ⟨hversion, _, hseen⟩ := count_sweeping t h username status j after
  have hv : ∀ k, t'.version k = t.version k := fun k ↦ by rw [ht']; exact congrFun hversion k
  have hseen' : ∀ fd k, t'.seen fd k =
      if audience t.server username j = some fd ∧ findUser t.server username = some k
      then t.stamp h else t.seen fd k := fun fd k ↦ by rw [ht']; exact hseen fd k
  have hle : ∀ k, findUser t.server username = some k → t.stamp h ≤ t.version k := by
    intro k hk'
    obtain ⟨l, hl, _, hle⟩ := hk
    obtain rfl := Option.some.inj (hl.symm.trans hk')
    exact hle
  have howed : ∀ fd u k, Hears t'.server fd u → Hears t.server fd u →
      findUser t.server u = some k → Owed t fd k (t.version k) →
      Owed t' fd k (t.version k) ∨ audience t.server username j = some fd ∧
        findUser t.server username = some k ∧ t.version k = t.stamp h :=
    fun fd u k hears hold hu ho ↦ sweep_owed he hm hh ht' hears hold hu ho
  constructor
  · intro fd u k v hears hold hu hdue
    by_cases htold : audience t.server username j = some fd ∧ findUser t.server username = some k
    · refine hdue.told (hv k) ((hseen' fd k).trans (if_pos htold)) (hx fd k htold.1 htold.2)
        (hle k htold.2) (fun ho ↦ ?_)
      exact (howed fd u k hears hold hu ho).imp_right (fun h ↦ h.2.2.symm)
    · refine hdue.keep (hv k) ((hseen' fd k).trans (if_neg htold)) (fun ho ↦ ?_)
      exact (howed fd u k hears hold hu ho).resolve_right (fun h ↦ htold ⟨h.1, h.2.1⟩)
  · intro fd u k hears hold hu hdue
    by_cases htold : audience t.server username j = some fd ∧ findUser t.server username = some k
    · refine hdue.told_seen (hv k) ((hseen' fd k).trans (if_pos htold)) (hx fd k htold.1 htold.2)
        (hle k htold.2) (fun ho ↦ ?_)
      exact (howed fd u k hears hold hu ho).imp_right (fun h ↦ h.2.2.symm)
    · have hsame : t'.seen fd k = t.seen fd k := (hseen' fd k).trans (if_neg htold)
      rw [hsame]
      refine hdue.keep (hv k) hsame (fun ho ↦ ?_)
      exact (howed fd u k hears hold hu ho).resolve_right (fun h ↦ htold ⟨h.1, h.2.1⟩)

theorem list_dutiful {payload : Bytes} {users : List UserRecord} (he : Enrolled t.server)
    (hm : Manned t.pool)
    (hh : t.pool.handlers h = some ⟨i, .replying .userListResponse payload⟩)
    (hr : Read t h users)
    (hx : ∀ k v, k < t.server.userCount → t.taken h k = some v → t.seen h k ≤ v)
    (ht' : t' = { t.count h (.replying .userListResponse payload) with
      pool := t.pool.put h i
        (proceed verify t.pool.world i (.replying .userListResponse payload)) }) :
    Dutiful t t' ∧ Attentive t t' := by
  have hs : Shift h t t' := ht' ▸ go_shift he hm hh
  have hcarry : CarriesOn h t t' := carriesOn_silent (fun handler hh' ↦ by
    obtain rfl := Option.some.inj (hh.symm.trans hh')
    rfl)
  have hv : ∀ k, t'.version k = t.version k := fun k ↦ by rw [ht']; rfl
  have hother : ∀ fd k, fd ≠ h → t'.seen fd k = t.seen fd k := by
    intro fd k hne
    rw [ht']
    exact congrFun (Function.update_of_ne hne _ _) k
  have hself : ∀ k, t'.seen h k = (t.taken h k).getD (t.seen h k) := by
    intro k
    rw [ht']
    change Function.update t.seen h (fun k ↦ (t.taken h k).getD (t.seen h k)) h k = _
    rw [Function.update_self]
  have htaken : ∀ k, t.taken h k = none ∨
      ∃ v, t.taken h k = some v ∧ t.seen h k ≤ v ∧ v ≤ t.version k := by
    intro k
    by_cases hk : k < users.length
    · obtain ⟨_, v, hv, _, hle, _⟩ := hr.entry k users[k] (List.getElem?_eq_getElem hk)
      exact .inr ⟨v, hv, hx k v (Nat.lt_of_lt_of_le hk hr.length_le) hv, hle⟩
    · exact .inl (hr.rest k (Nat.le_of_not_lt hk))
  have hkeep : ∀ {fd u k}, Hears t'.server fd u → t'.seen fd k = t.seen fd k →
      ∀ v, t.board.Due fd k v → t'.board.Due fd k v :=
    fun hears hsame v hdue ↦ hdue.keep (hv _) hsame (Shift.owed_on hs hm hcarry hears)
  have hsplit : ∀ fd k, t'.seen fd k = t.seen fd k ∨
      ∃ v, t'.seen fd k = v ∧ t.seen fd k ≤ v ∧ v ≤ t.version k := by
    intro fd k
    by_cases hfd : fd = h
    · subst hfd
      rw [hself]
      obtain hnone | ⟨v, hsome, hle, hle'⟩ := htaken k
      · exact .inl (by rw [hnone]; rfl)
      · exact .inr ⟨v, by rw [hsome]; rfl, hle, hle'⟩
    · exact .inl (hother fd k hfd)
  refine ⟨fun fd u k v hears _ _ hdue ↦ ?_, fun fd u k hears _ _ hdue ↦ ?_⟩
  · obtain hsame | ⟨n, hn, hle, hle'⟩ := hsplit fd k
    · exact hkeep hears hsame v hdue
    · exact hdue.told (hv k) hn hle hle' (fun ho ↦ .inl (Shift.owed_on hs hm hcarry hears ho))
  · obtain hsame | ⟨n, hn, hle, hle'⟩ := hsplit fd k
    · rw [hsame]
      exact hkeep hears hsame _ hdue
    · exact hdue.told_seen (hv k) hn hle hle' (fun ho ↦ .inl (Shift.owed_on hs hm hcarry hears ho))

def goOn (verify : Signature → Challenge → Key → Bool) (t : Trace) (h : Fd) (i : ℕ) (c : Control) :
    Trace := { t.count h c with pool := t.pool.put h i (proceed verify t.pool.world i c) }

theorem go_ordered (hh : t.pool.handlers h = some ⟨i, c⟩)
    (hx : ordered t (.go h) = true) :
    (∀ username status after, c = .announcing username status after →
      (malloc t.pool.world).1 = true) ∧
    (∀ username status j after, c = .sweeping username status j after → ∀ fd k,
      audience t.server username j = some fd → findUser t.server username = some k →
      t.seen fd k ≤ t.stamp h) ∧
    (∀ payload, c = .replying .userListResponse payload → ∀ k v, k < t.server.userCount →
      t.taken h k = some v → t.seen h k ≤ v) := by
  simp only [ordered, vacant, Bool.true_and, hh] at hx
  refine ⟨?_, ?_, ?_⟩
  · rintro username status after rfl
    rw [malloc_allocates]
    exact hx
  · rintro username status j after rfl fd k haud hk
    dsimp only at hx
    rw [haud, Option.all_some, hk, Option.all_some] at hx
    exact of_decide_eq_true hx
  · rintro payload rfl k v hlt hv
    have hall := List.all_eq_true.mp hx k (List.mem_range.mpr hlt)
    rw [hv] at hall
    exact of_decide_eq_true hall

/-- A handler writes a status, and everybody is going to be told. -/
theorem goOn_write {k : ℕ} {status : UserStatus} (he : Enrolled t.server) (hm : Manned t.pool)
    (hh : t.pool.handlers h = some ⟨i, c⟩) (hk : Knows t h ⟨i, c⟩)
    (hwrites : Control.writes c = some (k, status)) :
    Dutiful t (goOn verify t h i c) ∧ Attentive t (goOn verify t h i c) := by
  have hs : Shift h t (goOn verify t h i c) := go_shift he hm hh
  have hself : (goOn verify t h i c).pool.handlers h =
      some ⟨i, (proceed verify t.pool.world i c).2⟩ := put_self _ _
  obtain ⟨hnone, hworld, username, hnext⟩ := @writes_announced verify t i c h k status hk hwrites
  have hsilent : ∀ handler, t.pool.handlers h = some handler →
      announced t.server handler = none := by
    intro handler hh'
    obtain rfl := Option.some.inj (hh.symm.trans hh')
    exact hnone
  have hcount : t.count h c = { t with
      version := Function.update t.version k (t.version k + 1)
      written := Function.update t.written k
        (Function.update (t.written k) (t.version k + 1) status)
      stamp := Function.update t.stamp h (t.version k + 1) } := by
    simp only [Trace.count, hwrites]
  have hversion : (goOn verify t h i c).version =
      Function.update t.version k (t.version k + 1) := by simp only [goOn, hcount]
  have hseen : (goOn verify t h i c).seen = t.seen := by simp only [goOn, hcount]
  have hstamp : (goOn verify t h i c).stamp h = t.version k + 1 := by
    simp only [goOn, hcount, Function.update_self]
  have hname : (goOn verify t h i c).server.clients = t.server.clients := by
    simp only [goOn, Trace.server, Pool.put, hworld, modifyUser_clients]
  obtain ⟨hu, after, hcontrol⟩ | ⟨hu, hcontrol⟩ := hnext
  · refine write_dutiful hs hm hsilent hversion hseen hstamp hself ?_ (hs.records.find hu)
    rw [hcontrol]
    rfl
  · refine write_dutiful hs hm hsilent hversion hseen hstamp hself ?_ (hs.records.find hu)
    rw [hcontrol, announced, hname]

theorem goOn_dutiful (he : Enrolled t.server) (hm : Manned t.pool)
    (hh : t.pool.handlers h = some ⟨i, c⟩) (hk : Knows t h ⟨i, c⟩)
    (hx : ordered t (.go h) = true) :
    Dutiful t (goOn verify t h i c) ∧ Attentive t (goOn verify t h i c) := by
  obtain ⟨halloc, hsweep, hlist⟩ := go_ordered hh hx
  have hs : Shift h t (goOn verify t h i c) := go_shift he hm hh
  have hsilent : announced t.server ⟨i, c⟩ = none → CarriesOn h t (goOn verify t h i c) := by
    refine fun ha ↦ carriesOn_silent (fun handler hh' ↦ ?_)
    obtain rfl := Option.some.inj (hh.symm.trans hh')
    exact ha
  have hself : (goOn verify t h i c).pool.handlers h =
      some ⟨i, (proceed verify t.pool.world i c).2⟩ := put_self _ _
  cases c with
  | onlining k username => exact goOn_write he hm hh hk rfl
  | settingUser k status => exact goOn_write he hm hh hk rfl
  | offlining k => exact goOn_write he hm hh hk rfl
  | settingClient status =>
    refine Shift.dutiful hs hm (fun handler username p hh' ha ↦ ?_) rfl rfl
    obtain rfl := Option.some.inj (hh.symm.trans hh')
    obtain ⟨rfl, rfl⟩ := Prod.mk.inj (Option.some.inj ha)
    exact ⟨_, 0, hself, rfl, Nat.le_refl 0, rfl⟩
  | announcing username status after =>
    refine Shift.dutiful hs hm (fun handler name p hh' ha ↦ ?_) rfl rfl
    obtain rfl := Option.some.inj (hh.symm.trans hh')
    obtain ⟨rfl, rfl⟩ := Prod.mk.inj (Option.some.inj ha)
    have hcontrol : (proceed verify t.pool.world i (.announcing username status after)).2 =
        .sweeping username status 0 after := by
      simp [proceed, halloc username status after rfl]
    rw [hcontrol] at hself
    exact ⟨_, 0, hself, rfl, Nat.le_refl 0, rfl⟩
  | sweeping username status j after =>
    exact sweep_dutiful he hm hh hk (hsweep username status j after rfl) rfl
  | snapshotting k users =>
    have hcount : (t.count h (.snapshotting k users)).version = t.version ∧
        (t.count h (.snapshotting k users)).seen = t.seen := by
      simp only [Trace.count, Control.writes]
      split <;> exact ⟨rfl, rfl⟩
    exact Shift.dutiful hs hm (hsilent rfl) hcount.1 hcount.2
  | replying type payload =>
    cases type with
    | userListResponse =>
      obtain ⟨_, users, _, hr⟩ := hk
      exact list_dutiful he hm hh hr (hlist payload rfl) rfl
    | _ => exact Shift.dutiful hs hm (hsilent rfl) rfl rfl
  | _ => exact Shift.dutiful hs hm (hsilent rfl) rfl rfl

end CChat.Threads.Duties
