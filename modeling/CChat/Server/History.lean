import Mathlib.Data.List.Induction
import CChat.Server.Invariants

namespace CChat.Server.History

open CChat.Library CChat.Library.Circular CChat.Protocol.Types State Network Users Queue Handlers
  Loop Effects HandlerEffects Views Steps Invariants

variable {verify : Signature → Challenge → Key → Bool} {g : Guards} {i : ℕ} {w w' : World}

def lastLogin (out : List Event) (fd : Fd) : Option Username :=
  out.foldl (fun last e ↦ match e with
    | .login fd' name _ _ _ => if fd' = fd then some name else last
    | _ => last) none

def Event.fd : Event → Option Fd
  | .request fd _ _ => some fd
  | .frame fd _ _ _ => some fd
  | .torn fd _ => some fd
  | .login fd _ _ _ _ => some fd
  | .queued _ => none
  | .closed fd => some fd

theorem lastLogin_append {out es : List Event} (h : ∀ e ∈ es, Event.isLogin e = false) (fd : Fd) :
    lastLogin (out ++ es) fd = lastLogin out fd := by
  induction es generalizing out with
  | nil => rw [List.append_nil]
  | cons e es ih =>
    have hrest := @ih (out ++ [e]) (fun e' he ↦ h e' (List.mem_cons_of_mem _ he))
    have hone : lastLogin (out ++ [e]) fd = lastLogin out fd := by
      have he := h e List.mem_cons_self
      unfold lastLogin
      rw [List.foldl_append]
      cases e with
      | login => cases he
      | _ => rfl
    rw [← hone, ← hrest, List.append_assoc, List.singleton_append]

theorem lastLogin_login (out : List Event) (fd fd' : Fd) (name : Username) (signature : Signature)
    (challenge : Challenge) (key : Key) :
    lastLogin (out ++ [.login fd name signature challenge key]) fd' =
      if fd = fd' then some name else lastLogin out fd' := by
  simp [lastLogin, List.foldl_append]

theorem lastLogin_some {out : List Event} {fd : Fd} {name : Username}
    (h : lastLogin out fd = some name) :
    ∃ signature challenge key, .login fd name signature challenge key ∈ out := by
  induction out using List.reverseRecOn with
  | nil => cases h
  | append_singleton out e ih =>
    cases e with
    | login fd' name' s c k =>
      rw [lastLogin_login] at h
      split at h
      next hfd =>
        cases h
        exact ⟨s, c, k, by simp [hfd]⟩
      next =>
        obtain ⟨s', c', k', hmem⟩ := ih h
        exact ⟨s', c', k', List.mem_append_left _ hmem⟩
    | _ =>
      rw [lastLogin_append (by simp [Event.isLogin])] at h
      obtain ⟨s', c', k', hmem⟩ := ih h
      exact ⟨s', c', k', List.mem_append_left _ hmem⟩

theorem Cause.socket {e : Event} (h : Cause verify g i w e) {fd : Fd} (he : Event.fd e = some fd) :
    ∃ j, (w.server.clients j).socketFd = some fd ∧
      (j = i ∨ (w.server.clients j).authenticated = true) := by
  cases h with
  | emission e hem =>
    cases hem with
    | request _ _ _ hfd => exact ⟨i, Option.some.inj he ▸ hfd, .inl rfl⟩
    | reply _ _ _ hfd => exact ⟨i, Option.some.inj he ▸ hfd, .inl rfl⟩
    | torn j _ _ hfd hown => exact ⟨j, Option.some.inj he ▸ hfd, hown.imp_right And.right⟩
    | direct j _ _ _ _ _ _ hj hfd =>
      simp only [holds, Bool.and_eq_true] at hj
      exact ⟨j, Option.some.inj he ▸ hfd, .inr hj.1.2⟩
    | status j _ _ _ hj hfd => exact ⟨j, Option.some.inj he ▸ hfd, .inr hj.2.1⟩
  | login _ _ _ _ _ _ _ hfd => exact ⟨i, Option.some.inj he ▸ hfd, .inl rfl⟩
  | queued => cases he
  | delivered _ _ _ _ _ hfd => exact ⟨i, Option.some.inj he ▸ hfd, .inl rfl⟩
  | closed _ hfd => exact ⟨i, Option.some.inj he ▸ hfd, .inl rfl⟩

/-- The history speaks of descriptors given out so far, and a slot carries the
last login granted on its socket. -/
structure Linked (w : World) : Prop where
  given : ∀ e ∈ w.out, ∀ fd ∈ Event.fd e, fd < w.nextFd
  login : ∀ j fd, (w.server.clients j).socketFd = some fd → lastLogin w.out fd =
    if (w.server.clients j).authenticated then some (w.server.clients j).username else none

theorem Linked.authenticated (hw : Linked w) {j : ℕ} {fd : Fd}
    (hfd : (w.server.clients j).socketFd = some fd)
    (hj : (w.server.clients j).authenticated = true) :
    lastLogin w.out fd = some (w.server.clients j).username := by
  rw [hw.login j fd hfd, if_pos hj]

theorem Effect.linked (h : Effect verify g i w w') (hs : Sockets w) (hw : Linked w) :
    Linked w' := by
  refine ⟨?_, ?_⟩
  · intro e he fd hfd
    rw [(Effect.table h).2.2]
    obtain ho | ⟨e', ho, hcause⟩ := Effect.cause h
    · exact hw.given e (ho ▸ he) fd hfd
    · rw [ho, List.mem_append, List.mem_singleton] at he
      obtain hold | rfl := he
      · exact hw.given e hold fd hfd
      · obtain ⟨j, hj, _⟩ := Cause.socket hcause hfd
        exact (hs.socket j fd hj).1
  · have hkeep : ∀ es, w'.out = w.out ++ es → (∀ e ∈ es, Event.isLogin e = false) →
        ∀ j fd, (w.server.clients j).socketFd = some fd → lastLogin w'.out fd =
          if (w.server.clients j).authenticated then some (w.server.clients j).username
          else none := by
      intro es ho hes j fd hfd
      rw [ho, lastLogin_append hes]
      exact hw.login j fd hfd
    cases Effect.identity h with
    | same es hids ho hes =>
      intro j fd hfd
      rw [(hids j).authenticated, (hids j).username]
      exact hkeep es ho hes j fd ((hids j).socketFd ▸ hfd)
    | login name s fd₀ k _ _ _ hfd₀ hself hother ho =>
      intro j fd hfd
      rw [ho, lastLogin_login]
      by_cases hj : j = i
      · subst hj
        rw [hself] at hfd ⊢
        rw [if_pos (Option.some.inj (hfd₀.symm.trans hfd))]
        rfl
      · rw [hother j hj] at hfd ⊢
        rw [if_neg (fun heq : fd₀ = fd ↦ hj (hs.distinct j i fd₀ (heq ▸ hfd) hfd₀))]
        exact hw.login j fd hfd
    | logout _ hself hother ho =>
      intro j fd hfd
      by_cases hj : j = i
      · subst hj
        rw [hself] at hfd ⊢
        exact hkeep [] (by rw [ho, List.append_nil]) (by simp) j fd hfd
      · rw [hother j hj] at hfd ⊢
        exact hkeep [] (by rw [ho, List.append_nil]) (by simp) j fd hfd
    | close _ hself hother ho =>
      intro j fd hfd
      by_cases hj : j = i
      · subst hj
        rw [hself] at hfd
        cases hfd
      · rw [hother j hj] at hfd ⊢
        exact hkeep _ ho (closedEvents_isLogin _) j fd hfd

theorem Accepted.linked {challenge : Challenge} {created : Bool}
    (h : Accepted w challenge created w') (hw : Linked w) : Linked w' := by
  have hfresh : lastLogin w.out w.nextFd = none := by
    cases hl : lastLogin w.out w.nextFd with
    | none => rfl
    | some name =>
      obtain ⟨_, _, _, hmem⟩ := lastLogin_some hl
      exact absurd (hw.given _ hmem w.nextFd rfl) (Nat.lt_irrefl _)
  have hgiven : ∀ es, (es = [] ∨ es = [.closed w.nextFd]) → w'.nextFd = w.nextFd + 1 →
      w'.out = w.out ++ es → ∀ e ∈ w'.out, ∀ fd ∈ Event.fd e, fd < w'.nextFd := by
    intro es hes hn ho e he fd hfd
    rw [hn]
    rw [ho, List.mem_append] at he
    obtain hold | hnew := he
    · exact Nat.lt_succ_of_lt (hw.given e hold fd hfd)
    · obtain rfl | rfl := hes
      · cases hnew
      · rw [List.mem_singleton.mp hnew] at hfd
        exact Option.some.inj hfd ▸ Nat.lt_succ_self _
  have hquiet : ∀ es : List Event, (es = [] ∨ es = [.closed w.nextFd]) →
      ∀ e ∈ es, Event.isLogin e = false := by
    rintro es (rfl | rfl) e he
    · cases he
    · rw [List.mem_singleton.mp he]
      rfl
  cases h with
  | full hs hn ho =>
    refine ⟨hgiven _ (.inr rfl) hn ho, fun j fd hfd ↦ ?_⟩
    rw [hs] at hfd ⊢
    rw [ho, lastLogin_append (hquiet _ (.inr rfl))]
    exact hw.login j fd hfd
  | slot k es _ _ hself hother _ _ _ hn ho hes =>
    refine ⟨hgiven es hes hn ho, fun j fd hfd ↦ ?_⟩
    rw [ho, lastLogin_append (hquiet es hes)]
    by_cases hj : j = k
    · subst hj
      rw [hself] at hfd ⊢
      obtain rfl := Option.some.inj hfd
      exact hfresh
    · rw [hother j hj] at hfd ⊢
      exact hw.login j fd hfd

theorem linked_initial : Linked World.initial := by
  refine ⟨?_, ?_⟩
  · intro e he
    cases he
  · intro j fd h
    cases h

structure Consistent (w : World) : Prop where
  sockets : Sockets w
  queues : Queues w
  linked : Linked w

theorem Effect.consistent (h : Effect verify g i w w') (hw : Consistent w) : Consistent w' :=
  ⟨Effect.sockets h hw.sockets, Effect.queues h hw.queues, Effect.linked h hw.sockets hw.linked⟩

theorem Chain.carry {P : World → Prop}
    (hstep : ∀ v v', Effect verify g i v v' → Consistent v → P v → P v')
    (h : Chain verify g i w w') (hw : Consistent w) (hp : P w) : Consistent w' ∧ P w' :=
  Chain.invariant (P := fun v ↦ Consistent v ∧ P v)
    (fun v v' he hv ↦ ⟨Effect.consistent he hv.1, hstep v v' he hv.1 hv.2⟩) h ⟨hw, hp⟩

theorem Chain.consistent (h : Chain verify g i w w') (hw : Consistent w) : Consistent w' :=
  Chain.invariant (fun _ _ ↦ Effect.consistent) h hw

theorem Turn.linked {x : Input} (h : Turn verify w x w') (hs : Sound w) (hw : Linked w) :
    Linked w' := by
  cases h with
  | accept _ _ _ h => exact Accepted.linked h hw
  | idle _ _ _ _ _ h => exact h ▸ hw
  | handled _ _ _ _ _ _ _ hchain _ =>
    exact (Chain.consistent hchain ⟨hs.sockets, hs.queues, hw⟩).linked

structure Steady (w : World) : Prop where
  sound : Sound w
  linked : Linked w

theorem Steady.consistent (h : Steady w) : Consistent w :=
  ⟨h.sound.sockets, h.sound.queues, h.linked⟩

theorem step_steady (hw : Steady w) (x : Input) : Steady (step verify w x) :=
  ⟨(step_turn hw.sound x).sound hw.sound, Turn.linked (step_turn hw.sound x) hw.sound hw.linked⟩

theorem steady_initial : Steady World.initial := ⟨sound_initial, linked_initial⟩

theorem reach_steady (xs : List Input) : Steady (reach verify xs) :=
  Runs.run_invariant (fun v x hv ↦ step_steady (w := v) hv x) steady_initial xs

/-- What a turn keeps of a steady server holds after every run. -/
theorem reach_invariant {P : World → Prop} (hinit : P World.initial)
    (hturn : ∀ v x v', Steady v → Turn verify v x v' → P v → P v') (xs : List Input) :
    P (reach verify xs) := by
  have h : Steady (reach verify xs) ∧ P (reach verify xs) := by
    refine Runs.run_invariant (Q := fun v ↦ Steady v ∧ P v) (fun v x hv ↦ ?_)
      ⟨steady_initial, hinit⟩ xs
    exact ⟨step_steady hv.1 x, hturn v x _ hv.1 (step_turn hv.1.sound x) hv.2⟩
  exact h.2

end CChat.Server.History
