import CChat.Library.Traces
import CChat.Server.Delivery

namespace CChat.Server.Challenges

open CChat.Library CChat.Library.Circular CChat.Library.Traces CChat.Protocol.Types
  CChat.Protocol.Wire State Network Users Queue Handlers Loop Effects HandlerEffects Views Steps
  Invariants History Delivery

variable {verify : Signature → Challenge → Key → Bool} {g : Guards} {i : ℕ} {w w' : World}

def Issued (out : List Event) : Event → Prop
  | .login fd _ _ challenge _ => ∃ type payload entry, .frame fd type payload entry ∈ out ∧
      challenge.toList <:+: payload
  | _ => True

def Event.answered : Event → Option (Fd × Challenge)
  | .login fd _ _ challenge _ => some (fd, challenge)
  | _ => none

structure AnswersChallenges (out : List Event) : Prop where
  issued : Justified Issued out
  once : (out.filterMap Event.answered).Nodup

def ShortBeforeLogin (out : List Event) : Event → Prop
  | .frame _ _ payload _ => (∃ e ∈ out, Event.isLogin e = true) ∨ payload.length < challengeSize
  | _ => True

theorem Linked.loggedIn (hw : Linked w) (hs : Sockets w) {j : ℕ}
    (hj : (w.server.clients j).authenticated = true) : ∃ e ∈ w.out, Event.isLogin e = true := by
  obtain ⟨fd, hfd⟩ := hs.authenticated j hj
  obtain ⟨s, c, k, hmem⟩ := lastLogin_some (hw.authenticated hfd hj)
  exact ⟨_, hmem, rfl⟩

theorem Cause.short {e : Event} (h : Cause verify g i w e) (hw : Consistent w) :
    ShortBeforeLogin w.out e := by
  have hlogged : (w.server.clients i).authenticated = true → ∃ e ∈ w.out, Event.isLogin e = true :=
    fun hi ↦ Linked.loggedIn hw.linked hw.sockets hi
  cases h with
  | emission e he =>
    cases he with
    | request => trivial
    | reply fd type payload _ _ hshort => exact hshort.imp_left hlogged
    | torn => trivial
    | direct _ _ _ _ _ _ hi => exact .inl (hlogged hi)
    | status _ _ _ hi => exact .inl (hlogged hi)
  | login => trivial
  | queued => trivial
  | delivered _ _ hi => exact .inl (hlogged hi)
  | closed => trivial

theorem Effect.short (h : Effect verify g i w w') (hw : Consistent w)
    (hs : Justified ShortBeforeLogin w.out) : Justified ShortBeforeLogin w'.out := by
  obtain ho | ⟨e, ho, hcause⟩ := Effect.cause h
  · rw [ho]
    exact hs
  · rw [ho]
    exact hs.concat (Cause.short hcause hw)

theorem reach_short (xs : List Input) :
    Justified ShortBeforeLogin (reach verify xs).out := by
  refine reach_invariant (P := fun v ↦ Justified ShortBeforeLogin v.out) .nil ?_ xs
  intro v x v' hs h hw
  cases h with
  | accept _ _ _ h =>
    obtain ho | ho := Accepted.out h
    · rw [ho]
      exact hw
    · rw [ho]
      exact hw.concat trivial
  | idle _ _ _ _ _ h => exact h ▸ hw
  | handled _ _ _ _ _ _ _ hchain _ =>
    exact (Chain.carry (P := fun v ↦ Justified ShortBeforeLogin v.out)
      (fun _ _ he hv ↦ Effect.short he hv) hchain hs.consistent hw).2

/-- The first login of a history cannot have been preceded by its challenge. -/
theorem unanswered {out : List Event} (hshort : Justified ShortBeforeLogin out)
    (hissued : Justified Issued out) : ∀ e ∈ out, Event.isLogin e = false := by
  induction out using List.reverseRecOn with
  | nil => simp
  | append_singleton out e ih =>
    have hold := ih hshort.of_append hissued.of_append
    intro d hd
    rw [List.mem_append, List.mem_singleton] at hd
    obtain hd | rfl := hd
    · exact hold d hd
    cases d with
    | login fd name s challenge key =>
      obtain ⟨type, payload, entry, hframe, hinfix⟩ := hissued out _ [] rfl
      obtain ⟨pre, post, hsplit⟩ := List.append_of_mem hframe
      have hlen := hinfix.length_le
      rw [challenge.toList_length] at hlen
      obtain ⟨e', he', hlogin⟩ | hlt := hshort.of_append pre _ post hsplit
      · have hmem : e' ∈ out := by
          rw [hsplit]
          exact List.mem_append_left _ he'
        rw [hold e' hmem] at hlogin
        cases hlogin
      · omega
    | _ => rfl

def NoLogin (verify : Signature → Challenge → Key → Bool) (w : World) : Input → Prop
  | .accept _ _ => True
  | .receive i stream env => (w.server.clients i).connected = true →
      ∀ username, ¬ AcceptsLogin verify w i stream env username

theorem step_noLogin {x : Input} (hs : Steady w) (hx : NoLogin verify w x)
    (hw : ∀ e ∈ w.out, Event.isLogin e = false) :
    ∀ e ∈ (step verify w x).out, Event.isLogin e = false := by
  have hone : ∀ (v : World) (es : List Event), (∀ e ∈ v.out, Event.isLogin e = false) →
      (∀ e ∈ es, Event.isLogin e = false) → ∀ e ∈ v.out ++ es, Event.isLogin e = false := by
    intro v es hv hes e he
    exact (List.mem_append.mp he).elim (hv e) (hes e)
  cases step_turn hs.sound x with
  | accept _ _ _ h =>
    obtain ho | ho := Accepted.out h
    · rw [ho]
      exact hw
    · rw [ho]
      exact hone w _ hw (by simp [Event.isLogin])
  | idle _ _ _ _ _ h => rw [h]; exact hw
  | handled i stream env fd hin hconn hfd hchain hend =>
    rw [hin] at hx
    refine Chain.invariant (P := fun v ↦ ∀ e ∈ v.out, Event.isLogin e = false) ?_ hchain hw
    intro v v' he hv
    cases Effect.identity he with
    | same es _ ho hes =>
      rw [ho]
      exact hone v es hv hes
    | login username _ _ _ hg => exact absurd hg.1 (hx hconn username)
    | logout _ _ _ ho =>
      rw [ho]
      exact hv
    | close _ _ _ ho =>
      rw [ho]
      exact hone v _ hv (closedEvents_isLogin _)

theorem Chain.login_mem (h : Chain verify g i w w') (hw : ∃ e ∈ w.out, Event.isLogin e = true) :
    ∃ e ∈ w'.out, Event.isLogin e = true := by
  obtain ⟨es, hes⟩ := Chain.grows h
  obtain ⟨e, he, hlogin⟩ := hw
  exact ⟨e, hes ▸ List.mem_append_left _ he, hlogin⟩

theorem step_login {x : Input} (hs : Steady w) (hx : ¬ NoLogin verify w x) :
    ∃ e ∈ (step verify w x).out, Event.isLogin e = true := by
  cases x with
  | accept => exact absurd trivial hx
  | receive i stream env =>
    simp only [NoLogin, not_forall, not_not] at hx
    obtain ⟨hconn, username, hlogin⟩ := hx
    obtain ⟨fd, hfd⟩ := hs.sound.sockets.connected i hconn
    obtain ⟨v, response, hturn, hchain, hfd', hauth, hname, _⟩ :=
      login_turn hfd hconn hs.sound.sockets.running hlogin
    have hv := Chain.consistent hchain hs.consistent
    have hrest : Chain verify .any i v (reply (deliverQueuedMessages v i).2 i .loginResponse
        response).2 := by
      refine Relation.ReflTransGen.trans (deliverQueuedMessages_chain v hauth)
        (reply_chain _ _ _ ⟨by decide, by decide⟩ (.inl ?_))
      rw [(identity_neutral.deliverQueuedMessages v i i).authenticated, hauth]
    rw [step_receive stream env hconn, hturn]
    exact Chain.login_mem hrest (Linked.loggedIn hv.linked hv.sockets hauth)

theorem step_login_mem {x : Input} (hs : Steady w) (hw : ∃ e ∈ w.out, Event.isLogin e = true) :
    ∃ e ∈ (step verify w x).out, Event.isLogin e = true := by
  obtain ⟨e, he, hlogin⟩ := hw
  cases @step_turn verify w hs.sound x with
  | accept _ _ _ h =>
    obtain ho | ho := Accepted.out h
    · exact ⟨e, ho ▸ he, hlogin⟩
    · exact ⟨e, ho ▸ List.mem_append_left _ he, hlogin⟩
  | idle _ _ _ _ _ h => exact ⟨e, by rw [h]; exact he, hlogin⟩
  | handled _ _ _ _ _ _ _ hchain _ => exact Chain.login_mem hchain ⟨e, he, hlogin⟩

/-- Logins answer issued, unused challenges in exactly the runs in which the
server accepts no login at all. -/
theorem answersChallenges_iff (verify : Signature → Challenge → Key → Bool) (xs : List Input) :
    AnswersChallenges (reach verify xs).out ↔
      Runs.Along (step verify) (NoLogin verify) World.initial xs := by
  refine ⟨fun h ↦ ?_, fun h ↦ ?_⟩
  · refine Runs.along_of_unmarked (Q := Steady) (R := fun v ↦ ∃ e ∈ v.out, Event.isLogin e = true)
      (fun v x hv ↦ step_steady hv x) (fun v x hv ↦ step_login_mem hv)
      (fun v x hv ↦ step_login hv) steady_initial ?_
    rintro ⟨e, he, hlogin⟩
    rw [unanswered (reach_short xs) h.issued e he] at hlogin
    cases hlogin
  · have hquiet : Steady (reach verify xs) ∧ ∀ e ∈ (reach verify xs).out, Event.isLogin e = false :=
      (Runs.Along.always (Q := fun v ↦ Steady v ∧ ∀ e ∈ v.out, Event.isLogin e = false)
        (fun v x hv hx ↦ ⟨step_steady hv.1 x, step_noLogin hv.1 hx hv.2⟩)
        ⟨steady_initial, by intro e he; cases he⟩ h).last
    refine ⟨fun pre e post hsplit ↦ ?_, ?_⟩
    · have hmem : e ∈ (reach verify xs).out := by
        rw [hsplit]
        simp
      have he := hquiet.2 e hmem
      cases e with
      | login => cases he
      | _ => trivial
    · have hnil : (reach verify xs).out.filterMap Event.answered = [] := by
        rw [List.filterMap_eq_nil_iff]
        intro e he
        have hlogin := hquiet.2 e he
        cases e with
        | login => cases hlogin
        | _ => rfl
      rw [hnil]
      exact List.nodup_nil

def firstLogin : List Input :=
  [.accept (Block.zero _) true,
    .receive 0 (registerPacket (text "alice") (List.replicate 32 7)) .quiet,
    .receive 0 (loginPacket (text "alice") (List.replicate 64 0)) .quiet]

theorem firstLogin_unanswered : ¬ AnswersChallenges (reach (fun _ _ _ ↦ true) firstLogin).out := by
  intro h
  have hlogin : ((reach (fun _ _ _ ↦ true) firstLogin).out.any Event.isLogin) = true := by
    decide +kernel
  obtain ⟨e, he, hislogin⟩ := List.any_eq_true.mp hlogin
  rw [unanswered (reach_short firstLogin) h.issued e he] at hislogin
  cases hislogin

end CChat.Server.Challenges
