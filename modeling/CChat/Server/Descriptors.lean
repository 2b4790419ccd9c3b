import Mathlib.Data.List.Pairwise
import Mathlib.Data.Finset.Card
import CChat.Server.History

namespace CChat.Server.Descriptors

open CChat.Library CChat.Library.Circular CChat.Protocol.Types State Network Users Queue Handlers
  Loop Effects HandlerEffects Views Steps Invariants History

variable {verify : Signature → Challenge → Key → Bool} {g : Guards} {i : ℕ} {w w' : World}

def Event.Leaves (e e' : Event) : Prop := ∀ fd, e = .closed fd → Event.fd e' ≠ some fd

def Open (w : World) (fd : Fd) : Prop :=
  ∃ j, (w.server.clients j).connected = true ∧ (w.server.clients j).socketFd = some fd

def Closed (w : World) (fd : Fd) : Prop := .closed fd ∈ w.out

inductive SocketView (i : ℕ) (w w' : World) : Prop
  | kept (es : List Event)
      (hs : ∀ j, (w'.server.clients j).socketFd = (w.server.clients j).socketFd)
      (hself : (w'.server.clients i).connected = true → (w.server.clients i).connected = true)
      (hother : ∀ j, j ≠ i →
        (w'.server.clients j).connected = (w.server.clients j).connected)
      (hauth : ∀ j, (w'.server.clients j).authenticated = true → j = i ∨
        (w.server.clients j).authenticated = true)
      (ho : w'.out = w.out ++ es) (hes : ∀ e ∈ es, ∀ fd, e ≠ .closed fd)
      (hown : ∀ e ∈ es, ∀ fd, Event.fd e = some fd → ∃ j,
        (w.server.clients j).socketFd = some fd ∧
          (j = i ∨ (w.server.clients j).authenticated = true))
  | closed (hself : w'.server.clients i = closedClient (w.server.clients i))
      (hother : ∀ j, j ≠ i → w'.server.clients j = w.server.clients j)
      (ho : w'.out = w.out ++ closedEvents (w.server.clients i).socketFd)

theorem Emission.open {e : Event} (h : Emission w i e) (fd : Fd) : e ≠ .closed fd := by
  cases h <;> exact fun heq ↦ by cases heq

theorem Effect.events (h : Effect verify g i w w') :
    (w'.server = (w.modifyClient i closedClient).server ∧
      w'.out = w.out ++ closedEvents (w.server.clients i).socketFd) ∨
    ∃ es, w'.out = w.out ++ es ∧ (∀ e ∈ es, ∀ fd, e ≠ .closed fd) ∧
      ∀ e ∈ es, Cause verify g i w e := by
  have hnone : w'.out = w.out → ∃ es, w'.out = w.out ++ es ∧ (∀ e ∈ es, ∀ fd, e ≠ .closed fd) ∧
      ∀ e ∈ es, Cause verify g i w e :=
    fun ho ↦ ⟨[], by rw [ho, List.append_nil], by simp, by simp⟩
  have hone : ∀ e, w'.out = w.out ++ [e] → (∀ fd, e ≠ .closed fd) → Cause verify g i w e →
      ∃ es, w'.out = w.out ++ es ∧ (∀ e ∈ es, ∀ fd, e ≠ .closed fd) ∧
        ∀ e ∈ es, Cause verify g i w e :=
    fun e ho he hc ↦ ⟨[e], ho, by simpa using he, by simpa using hc⟩
  cases h with
  | silent h => exact .inr (hnone h.out)
  | emit e he _ _ ho => exact .inr (hone e ho (Emission.open he) (.emission e he))
  | login u s fd k hg hk hv hfd _ _ ho =>
    exact .inr (hone _ ho (fun _ heq ↦ by cases heq) (.login u s fd k hg hk hv hfd))
  | enqueue _ m _ _ _ _ _ _ _ _ _ _ _ _ ho =>
    exact .inr (hone _ ho (fun _ heq ↦ by cases heq) (.queued m))
  | deliver fd m hi hcount hm _ hfd _ _ ho =>
    exact .inr (hone _ ho (fun _ heq ↦ by cases heq) (.delivered fd m hi hcount hm hfd))
  | close _ hs _ ho => exact .inl ⟨hs, ho⟩
  | tune _ _ _ _ _ _ ho => exact .inr (hnone ho)
  | setStatus _ _ _ _ _ _ ho => exact .inr (hnone ho)
  | register _ _ _ _ _ _ _ _ ho => exact .inr (hnone ho)
  | nextId _ _ _ ho => exact .inr (hnone ho)
  | spoil _ _ _ _ _ _ ho => exact .inr (hnone ho)
  | skip _ _ _ _ _ ho => exact .inr (hnone ho)
  | logout _ _ _ ho => exact .inr (hnone ho)

theorem Effect.socketView (h : Effect verify g i w w') : SocketView i w w' := by
  obtain ⟨hs, ho⟩ | ⟨es, ho, hopen, hcause⟩ := Effect.events h
  · exact .closed (modifyClient_at hs) (modifyClient_off hs) ho
  · have hown : ∀ e ∈ es, ∀ fd, Event.fd e = some fd → ∃ j,
        (w.server.clients j).socketFd = some fd ∧
          (j = i ∨ (w.server.clients j).authenticated = true) :=
      fun e he fd hfd ↦ Cause.socket (hcause e he) hfd
    cases Effect.identity h with
    | same _ hids =>
      exact .kept es (fun j ↦ (hids j).socketFd) (fun hc ↦ (hids i).connected ▸ hc)
        (fun j _ ↦ (hids j).connected) (fun j ha ↦ .inr ((hids j).authenticated ▸ ha)) ho hopen hown
    | login _ _ _ _ _ _ _ _ hself hother =>
      refine .kept es (fun j ↦ ?_) (fun hc ↦ by rw [hself] at hc; exact hc)
        (fun j hj ↦ by rw [hother j hj]) (fun j ha ↦ ?_) ho hopen hown
      · by_cases hj : j = i
        · rw [hj, hself]
        · rw [hother j hj]
      · by_cases hj : j = i
        · exact .inl hj
        · exact .inr (hother j hj ▸ ha)
    | logout _ hself hother =>
      refine .kept es (fun j ↦ ?_) (fun hc ↦ by rw [hself] at hc; cases hc)
        (fun j hj ↦ by rw [hother j hj]) (fun j ha ↦ ?_) ho hopen hown
      · by_cases hj : j = i
        · rw [hj, hself]
        · rw [hother j hj]
      · by_cases hj : j = i
        · exact .inl hj
        · exact .inr (hother j hj ▸ ha)
    | close _ hself hother ho' => exact .closed hself hother ho'

/-- The descriptors while the handler of a slot works: nothing follows a
closing, the sockets in use are open and none that was given out is lost. -/
structure Accounted (w : World) (i : ℕ) : Prop where
  last : w.out.Pairwise Event.Leaves
  used : ∀ j fd, (w.server.clients j).socketFd = some fd →
    j = i ∨ (w.server.clients j).connected = true ∨ (w.server.clients j).authenticated = true →
      ¬ Closed w fd
  found : ∀ fd < w.nextFd, Closed w fd ∨ ∃ j, (w.server.clients j).socketFd = some fd ∧
    (j = i ∨ (w.server.clients j).connected = true)

theorem pairwise_leaves {out es : List Event} (h : out.Pairwise Event.Leaves)
    (hes : es.Pairwise Event.Leaves)
    (hopen : ∀ e ∈ es, ∀ fd, Event.fd e = some fd → .closed fd ∉ out) :
    (out ++ es).Pairwise Event.Leaves := by
  refine List.pairwise_append.mpr ⟨h, hes, fun e he e' he' fd heq hfd ↦ ?_⟩
  exact hopen e' he' fd hfd (heq ▸ he)

theorem Effect.accounted (h : Effect verify g i w w') (hs : Sockets w) (hw : Accounted w i) :
    Accounted w' i := by
  have hnext := (Effect.table h).2.2
  cases Effect.socketView h with
  | kept es hsame hself hother hauth ho hopen hown =>
    have hclosed : ∀ fd, Closed w' fd ↔ Closed w fd := by
      intro fd
      rw [Closed, Closed, ho, List.mem_append]
      exact or_iff_left (fun hmem ↦ hopen _ hmem fd rfl)
    refine ⟨?_, fun j fd hfd hj ↦ ?_, fun fd hlt ↦ ?_⟩
    · rw [ho]
      refine pairwise_leaves hw.last ?_ (fun e he fd hfd ↦ ?_)
      · exact List.pairwise_iff_forall_sublist.mpr
          (fun hsub fd heq ↦ absurd heq (hopen _ (hsub.subset List.mem_cons_self) fd))
      · obtain ⟨j, hj, hown⟩ := hown e he fd hfd
        exact hw.used j fd hj (hown.imp_right .inr)
    · rw [hclosed]
      refine hw.used j fd ((hsame j).symm.trans hfd) ?_
      by_cases hji : j = i
      · exact .inl hji
      · obtain hj | hj | hj := hj
        · exact .inl hj
        · exact .inr (.inl ((hother j hji).symm.trans hj))
        · exact (hauth j hj).imp_right .inr
    · rw [hclosed]
      obtain hold | ⟨j, hfd, hj⟩ := hw.found fd (hnext ▸ hlt)
      · exact .inl hold
      · refine .inr ⟨j, (hsame j).trans hfd, ?_⟩
        by_cases hji : j = i
        · exact .inl hji
        · exact hj.imp_right (fun hc ↦ (hother j hji).trans hc)
  | closed hself hother ho =>
    have hfree : (w'.server.clients i).socketFd = none := by
      rw [hself]
      rfl
    have hclosed : ∀ fd, Closed w' fd ↔ Closed w fd ∨ (w.server.clients i).socketFd = some fd := by
      intro fd
      rw [Closed, Closed, ho, List.mem_append]
      cases (w.server.clients i).socketFd with
      | none => simp [closedEvents]
      | some fd' => simp [closedEvents, eq_comm]
    refine ⟨?_, fun j fd hfd hj ↦ ?_, fun fd hlt ↦ ?_⟩
    · rw [ho]
      refine pairwise_leaves hw.last ?_ (fun e he fd hfd ↦ ?_)
      · cases (w.server.clients i).socketFd with
        | none => exact .nil
        | some fd => exact List.pairwise_singleton _ _
      · cases hsocket : (w.server.clients i).socketFd with
        | none =>
          rw [hsocket] at he
          cases he
        | some fd' =>
          rw [hsocket] at he
          obtain rfl := List.mem_singleton.mp he
          exact hw.used i fd (hsocket.trans hfd) (.inl rfl)
    · have hji : j ≠ i := by
        rintro rfl
        rw [hfree] at hfd
        cases hfd
      rw [hother j hji] at hfd hj
      rw [hclosed]
      rintro (hold | hown)
      · exact hw.used j fd hfd hj hold
      · exact hji (hs.distinct j i fd hfd hown)
    · rw [hclosed]
      obtain hold | ⟨j, hfd, hj⟩ := hw.found fd (hnext ▸ hlt)
      · exact .inl (.inl hold)
      · by_cases hji : j = i
        · exact .inl (.inr (hji ▸ hfd))
        · refine .inr ⟨j, ?_, .inr ?_⟩
          · rw [hother j hji]
            exact hfd
          · rw [hother j hji]
            exact hj.resolve_left hji

structure AtRest (w : World) : Prop where
  last : w.out.Pairwise Event.Leaves
  used : ∀ j fd, (w.server.clients j).socketFd = some fd →
    (w.server.clients j).connected = true → ¬ Closed w fd
  found : ∀ fd < w.nextFd, Closed w fd ∨ Open w fd

theorem initial_atRest : AtRest World.initial :=
  ⟨.nil, fun _ _ h ↦ (by cases h), fun _ h ↦ absurd h (Nat.not_lt_zero _)⟩

theorem AtRest.accounted (h : AtRest w) (hs : Settled w)
    (hi : (w.server.clients i).connected = true) : Accounted w i := by
  refine ⟨h.last, fun j fd hfd hj ↦ h.used j fd hfd ?_, fun fd hlt ↦ ?_⟩
  · obtain rfl | hc | ha := hj
    · exact hi
    · exact hc
    · exact hs j ha
  · exact (h.found fd hlt).imp_right (fun ⟨j, hc, hfd⟩ ↦ ⟨j, hfd, .inr hc⟩)

theorem acceptClient_out {challenge : Challenge} {created : Bool}
    (hslot : freeSlot w.server = some i) : (acceptClient w challenge created).out =
      w.out ++ if created then [] else [.closed w.nextFd] := by
  unfold acceptClient
  rw [hslot]
  cases created with
  | true => exact (List.append_nil _).symm
  | false => rfl

/-- A descriptor that is given out is new, and nothing was heard of it. -/
theorem Linked.unheard (hw : Linked w) : ¬ Closed w w.nextFd :=
  fun h ↦ Nat.lt_irrefl _ (hw.given _ h _ rfl)

theorem closing_leaves (hw : Linked w) (h : w.out.Pairwise Event.Leaves) :
    (w.out ++ [Event.closed w.nextFd]).Pairwise Event.Leaves := by
  refine pairwise_leaves h (List.pairwise_singleton _ _) (fun e he fd hfd hmem ↦ ?_)
  rw [List.mem_singleton.mp he] at hfd
  exact Linked.unheard hw (Option.some.inj hfd ▸ hmem)

theorem accept_atRest (hw : Steady w) (h : AtRest w) (challenge : Challenge) (created : Bool) :
    AtRest (acceptClient w challenge created) := by
  cases hslot : freeSlot w.server with
  | none =>
    obtain ⟨hserver, hnext⟩ := acceptClient_full challenge created hslot
    have hout : (acceptClient w challenge created).out = w.out ++ [.closed w.nextFd] := by
      unfold acceptClient
      rw [hslot]
      rfl
    refine ⟨?_, fun j fd hfd hc hmem ↦ ?_, fun fd hlt ↦ ?_⟩
    · rw [hout]
      exact closing_leaves hw.linked h.last
    · rw [hserver] at hfd hc
      rw [Closed, hout, List.mem_append, List.mem_singleton] at hmem
      obtain hold | hnew := hmem
      · exact h.used j fd hfd hc hold
      · obtain rfl : fd = w.nextFd := by injection hnew
        exact Nat.lt_irrefl _ (hw.sound.sockets.socket j _ hfd).1
    · rw [hnext] at hlt
      rw [Closed, Open, hout, hserver, List.mem_append, List.mem_singleton]
      obtain hold | rfl := Nat.lt_succ_iff_lt_or_eq.mp hlt
      · exact (h.found fd hold).imp_left .inl
      · exact .inl (.inr rfl)
  | some i =>
    obtain ⟨hself, hother, hnext⟩ := acceptClient_slot challenge created hslot
    have hout := @acceptClient_out _ _ challenge created hslot
    have hfree := (freeSlot_some hslot).2
    have hopen : ∀ fd, Open w fd → Open (acceptClient w challenge created) fd := by
      rintro fd ⟨j, hc, hfd⟩
      have hj : j ≠ i := fun heq ↦ by rw [heq, hfree] at hc; cases hc
      exact ⟨j, by rw [hother j hj]; exact hc, by rw [hother j hj]; exact hfd⟩
    have hclosed : ∀ fd, Closed (acceptClient w challenge created) fd ↔
        Closed w fd ∨ created = false ∧ fd = w.nextFd := by
      intro fd
      rw [Closed, Closed, hout, List.mem_append]
      cases created with
      | true => simp
      | false => simp
    refine ⟨?_, fun j fd hfd hc ↦ ?_, fun fd hlt ↦ ?_⟩
    · rw [hout]
      cases created with
      | true =>
        rw [if_pos rfl, List.append_nil]
        exact h.last
      | false => exact closing_leaves hw.linked h.last
    · rw [hclosed]
      by_cases hj : j = i
      · rw [hj, hself] at hfd hc
        obtain rfl : w.nextFd = fd := Option.some.inj hfd
        rintro (hold | ⟨hfalse, _⟩)
        · exact Linked.unheard hw.linked hold
        · have hc' : created = true := hc
          rw [hfalse] at hc'
          cases hc'
      · rw [hother j hj] at hfd hc
        rintro (hold | ⟨_, rfl⟩)
        · exact h.used j fd hfd hc hold
        · exact Nat.lt_irrefl _ (hw.sound.sockets.socket j _ hfd).1
    · rw [hnext] at hlt
      rw [hclosed]
      obtain hold | rfl := Nat.lt_succ_iff_lt_or_eq.mp hlt
      · exact (h.found fd hold).imp .inl (hopen fd)
      · cases created with
        | true => exact .inr ⟨i, by rw [hself], by rw [hself]; rfl⟩
        | false => exact .inl (.inr ⟨rfl, rfl⟩)

theorem step_atRest (hw : Steady w) (h : AtRest w) (x : Input) : AtRest (step verify w x) := by
  cases x with
  | accept challenge created => exact accept_atRest hw h challenge created
  | receive i stream env =>
    cases @step_turn verify _ hw.sound (.receive i stream env) with
    | accept _ _ hx => cases hx
    | idle _ _ _ _ _ hidle => rwa [hidle]
    | handled i' _ _ fd hx hconn _ hchain hend =>
      have hacc : Accounted (step verify w (.receive i stream env)) i' := by
        refine (Chain.invariant (P := fun v ↦ Sockets v ∧ Accounted v i')
          (fun v v' he hv ↦ ⟨Effect.sockets he hv.1, Effect.accounted he hv.1 hv.2⟩) hchain
          ⟨hw.sound.sockets, h.accounted hw.sound.settled hconn⟩).2
      refine ⟨hacc.last, fun j fd hfd hc ↦ hacc.used j fd hfd (.inr (.inl hc)), fun fd hlt ↦ ?_⟩
      obtain hold | ⟨j, hfd, hj⟩ := hacc.found fd hlt
      · exact .inl hold
      · refine .inr ⟨j, ?_, hfd⟩
        obtain rfl | hc := hj
        · obtain ⟨hc, _⟩ | ⟨⟨c, hc⟩, _⟩ := hend
          · exact hc
          · rw [hc] at hfd
            cases hfd
        · exact hc

theorem reach_atRest (xs : List Input) : AtRest (reach verify xs) := by
  have h : Steady (reach verify xs) ∧ AtRest (reach verify xs) :=
    Runs.run_invariant (Q := fun w ↦ Steady w ∧ AtRest w)
      (fun _ x hv ↦ ⟨step_steady hv.1 x, step_atRest hv.1 hv.2 x⟩)
      ⟨steady_initial, initial_atRest⟩ xs
  exact h.2

theorem open_le (hw : Sockets w) (fds : Finset Fd) (h : ∀ fd ∈ fds, Open w fd) :
    fds.card ≤ maxClients := by
  choose! slot hslot using h
  refine (Finset.card_le_card_of_injOn slot (t := Finset.range maxClients) (fun fd hfd ↦ ?_)
    (fun fd hfd fd' hfd' heq ↦ ?_)).trans (Finset.card_range _).le
  · exact Finset.mem_coe.mpr (Finset.mem_range.mpr
      (Nat.lt_of_lt_of_le (hw.socket _ _ (hslot fd hfd).2).2 hw.count_le))
  · have hsame := (hslot fd hfd).2
    rw [heq, (hslot fd' hfd').2] at hsame
    exact (Option.some.inj hsame).symm

/-- Over any run, every accepted descriptor either is the socket of exactly one
connection or was closed, once, and nothing was read from it or written to it
afterwards; no more than `MAX_CLIENTS` are open at a time. -/
theorem descriptors_accounted (xs : List Input) :
    (∀ fd, fd < (reach verify xs).nextFd ↔
      Closed (reach verify xs) fd ∨ Open (reach verify xs) fd) ∧
    (∀ fd, Closed (reach verify xs) fd → ¬ Open (reach verify xs) fd) ∧
    (∀ j k fd, ((reach verify xs).server.clients j).socketFd = some fd →
      ((reach verify xs).server.clients k).socketFd = some fd → j = k) ∧
    (reach verify xs).out.Pairwise Event.Leaves ∧
    ((Finset.range (reach verify xs).nextFd).filter
      (fun fd ↦ .closed fd ∉ (reach verify xs).out)).card ≤ maxClients := by
  have hsteady := @reach_steady verify xs
  have hrest := @reach_atRest verify xs
  refine ⟨fun fd ↦ ⟨hrest.found fd, ?_⟩, fun fd hclosed ⟨j, hc, hfd⟩ ↦ hrest.used j fd hfd hc hclosed,
    hsteady.sound.sockets.distinct, hrest.last,
    open_le hsteady.sound.sockets _ (fun fd hfd ↦ ?_)⟩
  · rintro (hclosed | ⟨j, _, hfd⟩)
    · exact hsteady.linked.given _ hclosed fd rfl
    · exact (hsteady.sound.sockets.socket j fd hfd).1
  · obtain ⟨hlt, hopen⟩ := Finset.mem_filter.mp hfd
    exact (hrest.found fd (Finset.mem_range.mp hlt)).resolve_left hopen

end CChat.Server.Descriptors
