import CChat.Threads.Duties

namespace CChat.Threads.Accounts

open CChat.Library CChat.Library.Notices CChat.Protocol.Types CChat.Server.State
  CChat.Server.Network CChat.Server.Users CChat.Server.Handlers CChat.Server.Effects
  CChat.Server.Views CChat.Server.Steps CChat.Server.Registry CChat.Server.Unchanged
  CChat.Server.Displays Machine Sections Messages Crew Statuses Duties
open CChat.Server.Loop hiding Input step reach
open CChat.Server.Invariants hiding Turn step_turn

variable {verify : Signature → Challenge → Key → Bool} {t t' : Trace} {i : ℕ} {c : Control}
  {h : Fd} {x : Input}

theorem write_announces {k : ℕ} {status : UserStatus} {username : Username}
    (hwrites : Control.writes c = some (k, status))
    (hk : findUser (goOn verify t h i c).server username = some k) :
    Announces (goOn verify t h i c) h username status := by
  refine ⟨k, hk, ?_, ?_⟩
  · simp [goOn, Trace.count, hwrites]
  · simp [goOn, Trace.count, hwrites]

theorem take_read {k : ℕ} {users : List UserRecord} (he : Enrolled t.server)
    (hstatus : ∀ k, (t.server.users k).status = t.written k (t.version k))
    (hworld : t'.pool.world = t.pool.world) (hversion : t'.version = t.version)
    (hwritten : t'.written = t.written)
    (htaken : t'.taken h = Function.update (t.taken h) k (some (t.version k)))
    (hd : Dutiful t t') (hlt : k < t.server.userCount) (hlen : users.length = k)
    (hr : Read t h users) : Read t' h (users ++ [t.server.users k]) := by
  have hserver : t'.server = t.server := by rw [Trace.server, hworld]
  refine ⟨?_, fun l hl ↦ ?_, fun l u hu ↦ ?_⟩
  · rw [hserver, List.length_append, List.length_singleton]
    omega
  · rw [List.length_append, List.length_singleton] at hl
    rw [htaken, Function.update_of_ne (by omega)]
    exact hr.rest l (by omega)
  · rw [hserver, hversion, hwritten, htaken]
    by_cases hl : l < users.length
    · rw [List.getElem?_append_left hl] at hu
      obtain ⟨hname, v, hv, hrest⟩ := hr.entry l u hu
      refine ⟨hname, v, by rw [Function.update_of_ne (by omega), hv], hrest.1, hrest.2.1,
        fun hears ↦ ?_⟩
      have hfind := he.find (Nat.lt_of_lt_of_le hl hr.length_le)
      exact hd h u.username l v (hserver ▸ hears) hears (hname ▸ hfind) (hrest.2.2 hears)
    · have hend : l = users.length := by
        have hbound := (List.getElem?_eq_some_iff.mp hu).1
        rw [List.length_append, List.length_singleton] at hbound
        omega
      rw [hend, List.getElem?_concat_length, Option.some.injEq] at hu
      rw [hend, hlen, ← hu]
      refine ⟨rfl, t.version k, Function.update_self _ _ _, hstatus k, Nat.le_refl _,
        fun _ ↦ .inl ?_⟩
      exact (congrFun hversion k).symm

theorem seekingSelf_world (w : World) (i : ℕ) (status : UserStatus) :
    (proceed verify w i (.seekingSelf status)).1 = w := by
  simp only [proceed]
  split <;> rfl

theorem closing_world (w : World) (i : ℕ) : (proceed verify w i .closing).1 = w := by
  simp only [proceed]
  split
  · split <;> rfl
  · rfl

theorem snapshotting_world (w : World) (i k : ℕ) (users : List UserRecord) :
    (proceed verify w i (.snapshotting k users)).1 = w := by
  simp only [proceed]
  split <;> rfl

theorem snapshotting_knows {k : ℕ} {users : List UserRecord} (he : Enrolled t.server)
    (hstatus : ∀ k, (t.server.users k).status = t.written k (t.version k))
    (hs : Shift h t (goOn verify t h i (.snapshotting k users)))
    (hd : Dutiful t (goOn verify t h i (.snapshotting k users)))
    (hk : Knows t h ⟨i, .snapshotting k users⟩) :
    Knows (goOn verify t h i (.snapshotting k users)) h
      ⟨i, (proceed verify t.pool.world i (.snapshotting k users)).2⟩ := by
  obtain ⟨hauth, hlen, hr⟩ := hk
  have hsame : (goOn verify t h i (.snapshotting k users)).pool.world = t.pool.world :=
    snapshotting_world t.pool.world i k users
  have hclients : (goOn verify t h i (.snapshotting k users)).server = t.server := by
    rw [Trace.server, hsame]
  by_cases hlt : k < t.server.userCount
  · have hreg : (t.server.users k).isRegistered = true := (he.registered k).mpr hlt
    have hcontrol : (proceed verify t.pool.world i (.snapshotting k users)).2 =
        .snapshotting (k + 1) (users ++ [t.server.users k]) := by
      simp only [proceed, if_pos hlt, if_pos hreg]
    have hcount : t.count h (.snapshotting k users) = { t with
        taken := Function.update t.taken h
          (Function.update (t.taken h) k (some (t.version k))) } := by
      simp only [Trace.count, Control.writes]
      rw [if_pos (by simp [hlt, hreg])]
    rw [hcontrol, Knows, hclients]
    refine ⟨hauth, by simp [hlen], take_read he hstatus hsame ?_ ?_ ?_ hd hlt hlen hr⟩
    · simp only [goOn, hcount]
    · simp only [goOn, hcount]
    · simp only [goOn, hcount, Function.update_self]
  · have hcontrol : (proceed verify t.pool.world i (.snapshotting k users)).2 =
        .replying .userListResponse (listPayload users) := by
      simp only [proceed, if_neg hlt]
      rfl
    have hcount : t.count h (.snapshotting k users) = t := by
      simp only [Trace.count, Control.writes]
      rw [if_neg (by simp [hlt])]
    rw [hcontrol, Knows, hclients]
    refine ⟨hauth, users, rfl, hs.read he hd ?_ (fun u hu ↦ hclients ▸ hu) hr⟩
    simp only [goOn, hcount]

theorem goOn_knows (he : Enrolled t.server) (hm : Manned t.pool)
    (hstatus : ∀ k, (t.server.users k).status = t.written k (t.version k))
    (hh : t.pool.handlers h = some ⟨i, c⟩) (hk : Knows t h ⟨i, c⟩)
    (hx : ordered t (.go h) = true) :
    Knows (goOn verify t h i c) h ⟨i, (proceed verify t.pool.world i c).2⟩ := by
  have hs : Shift h t (goOn verify t h i c) := go_shift he hm hh
  have hd := (@goOn_dutiful verify t i c h he hm hh hk hx).1
  have halloc := (go_ordered hh hx).1
  have hsame : (proceed verify t.pool.world i c).1 = t.pool.world →
      (goOn verify t h i c).server = t.server := fun hw ↦ congrArg World.server hw
  cases c with
  | identifying username signature =>
    simp only [proceed]
    split
    · trivial
    next k hfind => exact hs.records.find hfind
  | accrediting k username signature =>
    simp only [proceed]
    split
    · trivial
    · split
      · exact hs.records.find hk
      · exact hs.records.find hk
  | onlining k username => exact write_announces rfl (hs.records.find hk)
  | settingUser k status => exact write_announces rfl (hs.records.find hk)
  | offlining k => exact write_announces rfl (hs.records.find hk)
  | settingClient status => exact hs.announces rfl hk
  | announcing username status after =>
    have hcontrol : (proceed verify t.pool.world i (.announcing username status after)).2 =
        .sweeping username status 0 after := by
      simp [proceed, halloc username status after rfl]
    rw [hcontrol]
    exact hs.announces rfl hk
  | sweeping username status j after =>
    rw [sweeping_control]
    split
    · exact hs.announces (congrFun (count_sweeping t h username status j after).2.1 h) hk
    · cases after <;> trivial
  | seekingSelf status =>
    have hserver := hsame (seekingSelf_world _ i status)
    simp only [proceed]
    split
    · trivial
    next k hfind =>
      rw [Knows, hserver]
      exact hfind
  | closing =>
    have hserver := hsame (closing_world _ i)
    simp only [proceed]
    split
    · split
      · trivial
      next k hfind =>
        rw [Knows, hserver]
        exact hfind
    · trivial
  | listing =>
    have hserver : (goOn verify t h i .listing).server = t.server := by
      simp only [goOn, Trace.server, Pool.put, proceed]
      split <;> exact malloc_server _
    simp only [proceed]
    split
    · trivial
    · rw [Knows, hserver]
      exact ⟨hk, rfl, Nat.zero_le _, fun l _ ↦ congrFun (Function.update_self h _ t.taken) l,
        fun l u hu ↦ by simp at hu⟩
  | snapshotting k users => exact snapshotting_knows he hstatus hs hd hk
  | _ =>
    simp only [proceed]
    repeat' split
    all_goals trivial

theorem receive_knows {stream : Bytes} :
    Knows { t with pool := t.pool.put h i (receiveRequest t.pool.world i stream) } h
      ⟨i, (receiveRequest t.pool.world i stream).2⟩ := by
  have hworld := receiveRequest_world t.pool.world i stream
  have hcontrol : (receiveRequest t.pool.world i stream).2 = .closing ∨ ∃ type payload,
      (receiveRequest t.pool.world i stream).2 =
        route ((takeRequest t.pool.world i stream).2.server.clients i).authenticated type
          payload := by
    unfold receiveRequest
    dsimp only
    split
    · exact .inl rfl
    next type payload _ => exact .inr ⟨type, payload, rfl⟩
  obtain hcontrol | ⟨type, payload, hcontrol⟩ := hcontrol
  · rw [hcontrol]
    trivial
  · rw [hcontrol]
    refine route_of (P := fun c ↦ Knows _ h ⟨i, c⟩) _ _ _ (fun _ ↦ trivial) (fun _ _ ↦ trivial)
      (fun _ _ ↦ trivial) (fun _ ↦ trivial) (fun _ _ ↦ trivial) trivial (fun _ ↦ trivial)
      (fun hauth ↦ ?_) trivial
    rw [Knows, Trace.server, Pool.put, hworld]
    exact hauth

structure Accounted (t : Trace) : Prop where
  rings : Rings t.pool.world
  enrolled : Enrolled t.server
  manned : Manned t.pool
  status : ∀ k, (t.server.users k).status = t.written k (t.version k)
  zero : ∀ k, t.written k 0 = .offline
  fresh : ∀ k, t.server.userCount ≤ k → t.version k = 0
  seen : ∀ fd k, t.seen fd k ≤ t.version k
  knows : ∀ h handler, t.pool.handlers h = some handler → Knows t h handler

theorem initial_accounted : Accounted Trace.initial := by
  refine ⟨initial_rings, enrolled_initial, initial_manned, fun _ ↦ rfl, fun _ ↦ rfl,
    fun _ _ ↦ rfl, fun _ _ ↦ Nat.le_refl _, fun h handler hh ↦ ?_⟩
  cases hh

theorem count_quiet (t : Trace) (h : Fd) {c : Control} (hc : Control.writes c = none) :
    (t.count h c).version = t.version ∧ (t.count h c).written = t.written := by
  simp only [Trace.count, hc]
  cases c with
  | sweeping username status j after =>
    dsimp only
    split <;> exact ⟨rfl, rfl⟩
  | snapshotting k users =>
    dsimp only
    split <;> exact ⟨rfl, rfl⟩
  | replying type payload => cases type <;> exact ⟨rfl, rfl⟩
  | _ => exact ⟨rfl, rfl⟩

theorem goOn_status (ht : Accounted t) (hk : Knows t h ⟨i, c⟩) (l : ℕ) :
    ((goOn verify t h i c).server.users l).status =
      (goOn verify t h i c).written l ((goOn verify t h i c).version l) := by
  cases hwrites : Control.writes c with
  | some p =>
    obtain ⟨k, status⟩ := p
    obtain ⟨_, hworld, _⟩ := @writes_announced verify t i c h k status hk hwrites
    simp only [goOn, Trace.server, Pool.put, hworld, World.modifyUser, Trace.count, hwrites]
    by_cases hl : l = k
    · subst hl
      simp
    · simp only [Function.update_of_ne hl]
      exact ht.status l
  | none =>
    obtain ⟨hversion, hwritten⟩ := count_quiet t h hwrites
    have hgoal : ((proceed verify t.pool.world i c).1.server.users l).status =
        t.written l (t.version l) := by
      cases @proceed_section verify t.pool.world i c with
      | still h =>
        rw [h.users]
        exact ht.status l
      | added username key _ hadded =>
        by_cases hl : l = t.pool.world.server.userCount
        · subst hl
          rw [hadded.new, ht.fresh _ (Nat.le_refl _), ht.zero]
        · rw [hadded.old hl]
          exact ht.status l
      | login _ _ _ _ _ hs =>
        rw [hs]
        exact ht.status l
      | status k status hc =>
        rw [hwrites] at hc
        cases hc
      | hangUp _ hw =>
        rw [hw]
        exact ht.status l
      | shut _ hs =>
        rw [hs]
        exact ht.status l
    simp only [goOn, hversion, hwritten]
    exact hgoal

theorem goOn_fresh (ht : Accounted t) (hh : t.pool.handlers h = some ⟨i, c⟩)
    (hk : Knows t h ⟨i, c⟩) (l : ℕ) (hl : (goOn verify t h i c).server.userCount ≤ l) :
    (goOn verify t h i c).version l = 0 := by
  have hs : Shift h t (goOn verify t h i c) := go_shift ht.enrolled ht.manned hh
  have hold := ht.fresh l (hs.records.count_le.trans hl)
  cases hwrites : Control.writes c with
  | some p =>
    obtain ⟨k, status⟩ := p
    obtain ⟨_, _, username, hnext⟩ := @writes_announced verify t i c h k status hk hwrites
    have hlt : k < t.server.userCount := by
      obtain ⟨hu, _⟩ | ⟨hu, _⟩ := hnext
      · exact (findUser_some hu).1
      · exact (findUser_some hu).1
    have hne : l ≠ k := by
      have hle := hs.records.count_le.trans hl
      omega
    simp only [goOn, Trace.count, hwrites, Function.update_of_ne hne, hold]
  | none =>
    simp only [goOn, (count_quiet t h hwrites).1, hold]

theorem goOn_seen (ht : Accounted t) (hk : Knows t h ⟨i, c⟩) (fd : Fd) (l : ℕ) :
    (goOn verify t h i c).seen fd l ≤ t.version l := by
  have hold := ht.seen fd l
  cases hwrites : Control.writes c with
  | some p => simpa only [goOn, Trace.count, hwrites] using hold
  | none =>
    cases c with
    | sweeping username status j after =>
      obtain ⟨k, hu, _, hle⟩ := hk
      have hseen := (count_sweeping t h username status j after).2.2 fd l
      simp only [goOn, hseen]
      split
      next htold =>
        obtain rfl := Option.some.inj (hu.symm.trans htold.2)
        exact hle
      · exact hold
    | replying type payload =>
      cases type with
      | userListResponse =>
        obtain ⟨_, users, _, hr⟩ := hk
        simp only [goOn, Trace.count, Control.writes]
        by_cases hfd : fd = h
        · subst hfd
          rw [Function.update_self]
          by_cases hl : l < users.length
          · obtain ⟨_, v, hv, _, hle, _⟩ := hr.entry l users[l] (List.getElem?_eq_getElem hl)
            rw [hv]
            exact hle
          · rw [hr.rest l (Nat.le_of_not_lt hl)]
            exact hold
        · rw [Function.update_of_ne hfd]
          exact hold
      | _ => exact hold
    | snapshotting k users =>
      simp only [goOn, Trace.count, Control.writes]
      split <;> exact hold
    | onlining k username => cases hwrites
    | settingUser k status => cases hwrites
    | offlining k => cases hwrites
    | _ => exact hold

theorem ordered_vacant (hx : ordered t x = true) : vacant t.pool x = true :=
  ((Bool.and_eq_true _ _).mp hx).1

inductive Observed (verify : Signature → Challenge → Key → Bool) (t : Trace) (x : Input)
    (t' : Trace) : Prop
  | idle (h : t' = t)
  | accept (challenge : Challenge) (m' : Pool) (hj : Joined t.pool challenge m')
      (hfree : ∀ i, freeSlot t.pool.world.server = some i → ∀ h handler,
        t.pool.handlers h = some handler → handler.control ≠ .done → handler.slot ≠ i)
      (h : t' = { t with pool := m' })
  | receive (h : Fd) (stream : Bytes) (i : ℕ) (hh : t.pool.handlers h = some ⟨i, .reading⟩)
      (ht : t' = { t with pool := t.pool.put h i (receiveRequest t.pool.world i stream) })
  | go (h : Fd) (i : ℕ) (c : Control) (hx : x = .go h) (hh : t.pool.handlers h = some ⟨i, c⟩)
      (ht : t' = goOn verify t h i c)
  | environment (env : Env) (hx : x = .environment env)
      (h : t' = { t with pool := { t.pool with world := { t.pool.world with env := env } } })

theorem observe_observed (hm : Manned t.pool) (hx : ordered t x = true) :
    Observed verify t x (observe verify t x) := by
  have hvacant := ordered_vacant hx
  cases x with
  | accept challenge created =>
    by_cases hheld : t.pool.held .clients = true
    · refine .idle ?_
      simp only [observe, step, if_pos hheld]
    · have hstep : observe verify t (.accept challenge created) =
          { t with pool := acceptHandler t.pool challenge created } := by
        simp only [observe, step, if_neg hheld]
      exact .accept challenge _ (acceptHandler_joined t.pool challenge created)
        (fun i hi h handler hh hne ↦ vacant_slot hm (by simpa using hheld) hvacant hi hh hne) hstep
  | receive h stream =>
    cases @step_turn verify t.pool (.receive h stream) with
    | idle hm' => exact .idle (by simp only [observe, hm'])
    | receive h₀ stream₀ i hx₀ hh hm' =>
      obtain ⟨rfl, rfl⟩ := Input.receive.inj hx₀
      exact .receive h stream i hh (by simp only [observe, hm'])
    | accept _ _ hx₀ => cases hx₀
    | go _ _ _ hx₀ => cases hx₀
    | environment _ hx₀ => cases hx₀
  | go h =>
    cases hh : t.pool.handlers h with
    | none =>
      refine .idle ?_
      simp only [observe, step, hh]
    | some handler =>
      obtain ⟨i, c⟩ := handler
      by_cases hblocked : t.pool.blocked i c = true
      · refine .idle ?_
        simp only [observe, step, hh, if_pos hblocked]
      · refine .go h i c rfl hh ?_
        simp only [observe, step, hh, if_neg hblocked]
        rfl
  | environment env => exact .environment env rfl rfl

theorem Observed.shift (ho : Observed verify t x t') (ht : Accounted t) : t' = t ∨
    (∃ h i c, x = .go h ∧ t.pool.handlers h = some ⟨i, c⟩ ∧ t' = goOn verify t h i c) ∨
    ∃ h m', t' = { t with pool := m' } ∧ Shift h t t' ∧
      (∀ handler, t.pool.handlers h = some handler → handler.control = .reading) ∧
      (∀ k, (t'.server.users k).status = (t.server.users k).status) ∧
      ∀ handler, t'.pool.handlers h = some handler → Knows t' h handler := by
  cases ho with
  | idle h => exact .inl h
  | go h i c hx hh h' => exact .inr (.inl ⟨h, i, c, hx, hh, h'⟩)
  | accept challenge m' hj hfree h =>
    have hnone : ∀ handler, t.pool.handlers t.pool.world.nextFd ≠ some handler := fun handler hh ↦
      absurd (ht.manned.bounded _ _ hh) (Nat.lt_irrefl _)
    refine .inr (.inr ⟨t.pool.world.nextFd, m', h, h ▸ accept_shift hj hfree,
      fun handler hh ↦ absurd hh (hnone handler), fun k ↦ ?_, fun handler hh ↦ ?_⟩)
    · subst h
      cases hj with
      | full hs =>
        dsimp only [Trace.server]
        rw [hs]
      | slot _ _ _ _ _ _ _ husers =>
        dsimp only [Trace.server]
        rw [husers.1]
    · subst h
      cases hj with
      | full _ _ _ hh' => exact absurd (hh' ▸ hh) (hnone handler)
      | slot i created _ _ _ _ _ _ _ _ _ hh' =>
        dsimp only at hh
        rw [hh'] at hh
        split at hh
        · rw [Function.update_self, Option.some.injEq] at hh
          rw [← hh]
          trivial
        · exact absurd hh (hnone handler)
  | receive h stream i hh h' =>
    refine .inr (.inr ⟨h, _, h', h' ▸ receive_shift, fun handler hh' ↦ ?_, fun k ↦ ?_,
      fun handler hh' ↦ ?_⟩)
    · obtain rfl := Option.some.inj (hh.symm.trans hh')
      rfl
    · subst h'
      dsimp only [Trace.server]
      rw [Pool.put, receiveRequest_world, (takeRequest_admitted t.pool.world i stream).users.1]
    · subst h'
      obtain rfl := Option.some.inj ((put_self _ _).symm.trans hh')
      exact receive_knows
  | environment env _ h =>
    have hnone : ∀ handler, t.pool.handlers t.pool.world.nextFd ≠ some handler := fun handler hh ↦
      absurd (ht.manned.bounded _ _ hh) (Nat.lt_irrefl _)
    refine .inr (.inr ⟨t.pool.world.nextFd, _, h, ?_, fun handler hh ↦ absurd hh (hnone handler),
      fun k ↦ by rw [h], fun handler hh ↦ absurd (by rw [h] at hh; exact hh) (hnone handler)⟩)
    rw [h]
    exact .still (.refl _) (fun j ↦ .refl _) (fun _ _ ↦ rfl)

theorem observe_kept (ht : Accounted t) (hx : ordered t x = true) :
    Accounted (observe verify t x) ∧ Dutiful t (observe verify t x) ∧
      Attentive t (observe verify t x) := by
  have hturn := @step_turn verify t.pool x
  have hvacant := ordered_vacant hx
  have hrings : Rings (observe verify t x).pool.world := by
    obtain ⟨i, es, hes⟩ := @step_handled verify t.pool ht.rings x
    exact hes.rings
  have henrolled : Enrolled (observe verify t x).server :=
    (Enrolment.Turn.enrolled hturn ht.enrolled).1
  have hmanned : Manned (observe verify t x).pool := Turn.manned hturn ht.rings ht.manned hvacant
  have hobserved := @observe_observed verify t x ht.manned hx
  generalize observe verify t x = t' at hobserved hrings henrolled hmanned ⊢
  obtain rfl | ⟨h, i, c, rfl, hh, rfl⟩ | ⟨h, m', hpool, hs, hreading, hstatus, hnew⟩ :=
    hobserved.shift ht
  · exact ⟨ht, fun _ _ _ _ _ _ _ hdue ↦ hdue, fun _ _ _ _ _ _ hdue ↦ hdue⟩
  · have hk := ht.knows h _ hh
    have hs : Shift h t (goOn verify t h i c) := go_shift ht.enrolled ht.manned hh
    have hd := @goOn_dutiful verify t i c h ht.enrolled ht.manned hh hk hx
    refine ⟨⟨hrings, henrolled, hmanned, goOn_status ht hk, fun k ↦ ?_, goOn_fresh ht hh hk,
      fun fd k ↦ (goOn_seen ht hk fd k).trans (hs.version k), fun h' handler hh' ↦ ?_⟩, hd⟩
    · rw [hs.written k 0 (Nat.zero_le _)]
      exact ht.zero k
    · by_cases hne : h' = h
      · subst hne
        obtain rfl := Option.some.inj ((put_self _ _).symm.trans hh')
        exact goOn_knows ht.enrolled ht.manned ht.status hh hk hx
      · have hold : t.pool.handlers h' = some handler := hs.handlers h' hne ▸ hh'
        exact hs.knows ht.enrolled hd.1 hne hold (ht.knows h' handler hold)
  · have hd : Dutiful t t' ∧ Attentive t t' := by
      refine Shift.dutiful hs ht.manned (carriesOn_silent (fun handler hh ↦ ?_)) (by rw [hpool])
        (by rw [hpool])
      obtain ⟨i, c⟩ := handler
      obtain rfl : c = .reading := hreading _ hh
      rfl
    have hversion : t'.version = t.version := by rw [hpool]
    have hwritten : t'.written = t.written := by rw [hpool]
    refine ⟨⟨hrings, henrolled, hmanned, fun k ↦ ?_, fun k ↦ ?_, fun k hk ↦ ?_, fun fd k ↦ ?_,
      fun h' handler hh' ↦ ?_⟩, hd⟩
    · rw [hstatus, hversion, hwritten]
      exact ht.status k
    · rw [hwritten]
      exact ht.zero k
    · rw [hversion]
      exact ht.fresh k (hs.records.count_le.trans hk)
    · have hseen : t'.seen = t.seen := by rw [hpool]
      rw [hversion, hseen]
      exact ht.seen fd k
    · by_cases hne : h' = h
      · subst hne
        exact hnew handler hh'
      · have hold : t.pool.handlers h' = some handler := hs.handlers h' hne ▸ hh'
        exact hs.knows ht.enrolled hd.1 hne hold (ht.knows h' handler hold)

end CChat.Threads.Accounts
