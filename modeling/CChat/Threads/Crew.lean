import CChat.Threads.Messages

namespace CChat.Threads.Crew

open CChat.Library CChat.Protocol.Types CChat.Server.State CChat.Server.Users CChat.Server.Effects
  CChat.Server.Views CChat.Server.Steps CChat.Server.Unchanged Machine Sections Messages
open CChat.Server.Loop hiding Input step reach
open CChat.Server.Invariants hiding Turn step_turn

variable {verify : Signature → Challenge → Key → Bool} {m m' : Pool} {w w' : World} {i : ℕ}
  {c c' : Control} {h : Fd} {x : Input}

/-- No connection is put into a slot whose handler is still at work. -/
def vacant (m : Pool) : Input → Bool
  | .accept _ _ => m.held .clients || (freeSlot m.world.server).all (fun i ↦
      (List.range m.world.nextFd).all (fun h ↦ (m.handlers h).all (fun handler ↦
        decide (handler.slot = i → handler.control = .done))))
  | _ => true

/-- Every handler at work has a slot of its own, the one with its connection. -/
structure Manned (m : Pool) : Prop where
  socket : ∀ j fd, (m.world.server.clients j).socketFd = some fd →
    fd < m.world.nextFd ∧ j < m.world.server.clientCount
  distinct : ∀ j k fd, (m.world.server.clients j).socketFd = some fd →
    (m.world.server.clients k).socketFd = some fd → j = k
  owner : ∀ h handler, m.handlers h = some handler → handler.control ≠ .done →
    (m.world.server.clients handler.slot).socketFd = some h
  bounded : ∀ h handler, m.handlers h = some handler → h < m.world.nextFd

theorem initial_manned : Manned Pool.initial := by
  refine ⟨fun j fd hfd ↦ ?_, fun j k fd hfd ↦ ?_, fun h handler hh ↦ ?_, fun h handler hh ↦ ?_⟩
  · cases hfd
  · cases hfd
  · cases hh
  · cases hh

theorem Section.others (hs : Section verify w i c w') {j : ℕ} (hj : j ≠ i) :
    SameIdentity (w.server.clients j) (w'.server.clients j) := by
  cases hs with
  | still h => exact h.clients j
  | added username key _ _ hw =>
    rw [hw]
    unfold addUser
    split_ifs <;> exact .refl _
  | login _ _ _ _ _ hs =>
    rw [modifyClient_off hs j hj]
    exact .refl _
  | status k status _ hw =>
    rw [hw]
    exact .refl _
  | hangUp _ hw =>
    rw [hw, modifyClient_other _ _ hj]
    exact .refl _
  | shut _ hs =>
    rw [modifyClient_off hs j hj]
    exact .refl _

theorem Section.socket (hs : Section verify w i c w') :
    (w'.server.clients i).socketFd = (w.server.clients i).socketFd ∨
      c = .shutting ∧ (w'.server.clients i).socketFd = none := by
  cases hs with
  | still h => exact .inl (h.clients i).socketFd
  | added username key _ _ hw =>
    rw [hw]
    unfold addUser
    split_ifs <;> exact .inl rfl
  | login _ _ _ _ _ hs => exact .inl (by rw [modifyClient_at hs])
  | status k status _ hw => exact .inl (by rw [hw]; rfl)
  | hangUp _ hw => exact .inl (by rw [hw, modifyClient_self])
  | shut hc hs => exact .inr ⟨hc, by rw [modifyClient_at hs]; rfl⟩

theorem Section.clientCount (hs : Section verify w i c w') :
    w'.server.clientCount = w.server.clientCount := by
  cases hs with
  | still h => exact h.clientCount
  | added username key _ _ hw =>
    rw [hw]
    unfold addUser
    split_ifs <;> rfl
  | login _ _ _ _ _ hs => rw [hs]; rfl
  | status k status _ hw => rw [hw]; rfl
  | hangUp _ hw => rw [hw]; rfl
  | shut _ hs => rw [hs]; rfl

/-- A handler keeps its connection, or it closes it and is done. -/
theorem Manned.put (hm : Manned m) (hh : m.handlers h = some ⟨i, c⟩)
    (hothers : ∀ j, j ≠ i → (w'.server.clients j).socketFd = (m.world.server.clients j).socketFd)
    (hself : (w'.server.clients i).socketFd = (m.world.server.clients i).socketFd ∧
        (c = .done → c' = .done) ∨
      c ≠ .done ∧ (w'.server.clients i).socketFd = none ∧ c' = .done)
    (hcount : w'.server.clientCount = m.world.server.clientCount)
    (hn : m.world.nextFd ≤ w'.nextFd) : Manned (m.put h i (w', c')) := by
  have hback : ∀ j fd, (w'.server.clients j).socketFd = some fd →
      (m.world.server.clients j).socketFd = some fd := by
    intro j fd hfd
    by_cases hj : j = i
    · subst hj
      obtain ⟨hsame, _⟩ | ⟨_, hnone, _⟩ := hself
      · exact hsame ▸ hfd
      · rw [hnone] at hfd
        cases hfd
    · exact hothers j hj ▸ hfd
  have hold : ∀ h' handler, (m.put h i (w', c')).handlers h' = some handler →
      h' = h ∧ handler = ⟨i, c'⟩ ∨ h' ≠ h ∧ m.handlers h' = some handler := by
    intro h' handler hh'
    by_cases heq : h' = h
    · subst heq
      have hnew : some (⟨i, c'⟩ : Handler) = some handler :=
        (Function.update_self h' _ m.handlers).symm.trans hh'
      exact .inl ⟨rfl, (Option.some.inj hnew).symm⟩
    · exact .inr ⟨heq, (Function.update_of_ne heq _ m.handlers).symm.trans hh'⟩
  refine ⟨fun j fd hfd ↦ ?_, fun j k fd hj hk ↦ ?_, fun h' handler hh' hne ↦ ?_,
    fun h' handler hh' ↦ ?_⟩
  · have hs := hm.socket j fd (hback j fd hfd)
    exact ⟨Nat.lt_of_lt_of_le hs.1 hn, hcount ▸ hs.2⟩
  · exact hm.distinct j k fd (hback j fd hj) (hback k fd hk)
  · obtain ⟨rfl, rfl⟩ | ⟨hother, hh''⟩ := hold h' handler hh'
    · obtain ⟨hsame, hdone⟩ | ⟨_, _, hdone⟩ := hself
      · exact hsame.trans (hm.owner h' _ hh (fun heq ↦ hne (hdone heq)))
      · exact absurd hdone hne
    · have howner := hm.owner h' handler hh'' hne
      by_cases hslot : handler.slot = i
      · obtain ⟨hsame, _⟩ | ⟨hwork, _, _⟩ := hself
        · rw [hslot] at howner ⊢
          exact hsame.trans howner
        · rw [hslot] at howner
          exact absurd (Option.some.inj (howner.symm.trans (hm.owner h _ hh hwork))) hother
      · exact (hothers _ hslot).trans howner
  · obtain ⟨rfl, _⟩ | ⟨_, hh''⟩ := hold h' handler hh'
    · exact Nat.lt_of_lt_of_le (hm.bounded h' _ hh) hn
    · exact Nat.lt_of_lt_of_le (hm.bounded h' handler hh'') hn

theorem vacant_slot (hm : Manned m) {challenge : Challenge} {created : Bool}
    (hheld : m.held .clients = false) (hx : vacant m (.accept challenge created) = true)
    (hslot : freeSlot m.world.server = some i) {handler : Handler}
    (hh : m.handlers h = some handler) (hne : handler.control ≠ .done) : handler.slot ≠ i := by
  intro heq
  rw [vacant, hheld, Bool.false_or, hslot] at hx
  have hall := List.all_eq_true.mp hx h (List.mem_range.mpr (hm.bounded h handler hh))
  rw [hh] at hall
  exact hne ((of_decide_eq_true hall) heq)

inductive Joined (m : Pool) (challenge : Challenge) (m' : Pool) : Prop
  | full (hs : m'.world.server = m.world.server) (hn : m'.world.nextFd = m.world.nextFd + 1)
      (ho : m'.world.out = m.world.out ++ [.closed m.world.nextFd])
      (hh : m'.handlers = m.handlers)
  | slot (i : ℕ) (created : Bool) (es : List Event) (hi : freeSlot m.world.server = some i)
      (hself : m'.world.server.clients i =
        { freshClient m.world.nextFd challenge with connected := created })
      (hother : ∀ j, j ≠ i → m'.world.server.clients j = m.world.server.clients j)
      (hcount : m'.world.server.clientCount = max (i + 1) m.world.server.clientCount)
      (husers : m'.world.server.users = m.world.server.users ∧
        m'.world.server.userCount = m.world.server.userCount)
      (hn : m'.world.nextFd = m.world.nextFd + 1) (ho : m'.world.out = m.world.out ++ es)
      (hes : ∀ e ∈ es, e = .closed m.world.nextFd)
      (hh : m'.handlers = if created then
        Function.update m.handlers m.world.nextFd (some ⟨i, .testing⟩) else m.handlers)

theorem acceptHandler_joined (m : Pool) (challenge : Challenge) (created : Bool) :
    Joined m challenge (acceptHandler m challenge created) := by
  obtain hslot | ⟨i, hslot⟩ := Option.eq_none_or_eq_some (freeSlot m.world.server)
  · refine .full ?_ ?_ ?_ ?_
    · rw [acceptHandler_world]
      exact (acceptClient_full challenge created hslot).1
    · rw [acceptHandler_world]
      exact (acceptClient_full challenge created hslot).2
    · rw [acceptHandler_world]
      unfold acceptClient
      rw [hslot]
      rfl
    · unfold acceptHandler
      rw [hslot]
  · obtain ⟨hself, hother, hnext⟩ := acceptClient_slot challenge created hslot
    have hrest : (acceptClient m.world challenge created).server.clientCount =
          (if i ≥ m.world.server.clientCount then i + 1 else m.world.server.clientCount) ∧
        ((acceptClient m.world challenge created).server.users = m.world.server.users ∧
          (acceptClient m.world challenge created).server.userCount = m.world.server.userCount) ∧
        (acceptClient m.world challenge created).out =
          m.world.out ++ if created then [] else [.closed m.world.nextFd] := by
      unfold acceptClient
      rw [hslot]
      cases created with
      | true => exact ⟨rfl, ⟨rfl, rfl⟩, (List.append_nil _).symm⟩
      | false => exact ⟨rfl, ⟨rfl, rfl⟩, rfl⟩
    obtain ⟨hcount, husers, hout⟩ := hrest
    refine .slot i created (if created then [] else [.closed m.world.nextFd]) hslot ?_ ?_ ?_ ?_
      ?_ ?_ (fun e he ↦ ?_) ?_
    · rw [acceptHandler_world]
      exact hself
    · rw [acceptHandler_world]
      exact hother
    · rw [acceptHandler_world, hcount]
      split <;> omega
    · rw [acceptHandler_world]
      exact husers
    · rw [acceptHandler_world]
      exact hnext
    · rw [acceptHandler_world]
      exact hout
    · cases created with
      | true => cases he
      | false => exact List.mem_singleton.mp he
    · unfold acceptHandler
      rw [hslot]
      dsimp only
      generalize acceptClient m.world challenge created = w
      cases created <;> rfl

theorem Joined.manned {challenge : Challenge} (hj : Joined m challenge m') (hm : Manned m)
    (hfree : ∀ i, freeSlot m.world.server = some i → ∀ h handler, m.handlers h = some handler →
      handler.control ≠ .done → handler.slot ≠ i) : Manned m' := by
  cases hj with
  | full hs hn _ hh =>
    refine ⟨fun j fd hfd ↦ ?_, fun j k fd hj hk ↦ ?_, fun h handler hh' hne ↦ ?_,
      fun h handler hh' ↦ ?_⟩
    · rw [hs] at hfd ⊢
      rw [hn]
      exact ⟨Nat.lt_succ_of_lt (hm.socket j fd hfd).1, (hm.socket j fd hfd).2⟩
    · rw [hs] at hj hk
      exact hm.distinct j k fd hj hk
    · rw [hs]
      exact hm.owner h handler (hh ▸ hh') hne
    · rw [hn]
      exact Nat.lt_succ_of_lt (hm.bounded h handler (hh ▸ hh'))
  | slot i created es hi hself hother hcount husers hn ho hes hh =>
    have hback : ∀ j fd, (m'.world.server.clients j).socketFd = some fd →
        j = i ∧ fd = m.world.nextFd ∨ (m.world.server.clients j).socketFd = some fd := by
      intro j fd hfd
      by_cases hj : j = i
      · subst hj
        rw [hself] at hfd
        exact .inl ⟨rfl, (Option.some.inj hfd).symm⟩
      · exact .inr (hother j hj ▸ hfd)
    have hold : ∀ h handler, m'.handlers h = some handler →
        h = m.world.nextFd ∧ handler.slot = i ∨ m.handlers h = some handler := by
      intro h handler hh'
      rw [hh] at hh'
      split at hh'
      · by_cases hfd : h = m.world.nextFd
        · subst hfd
          rw [Function.update_self, Option.some.injEq] at hh'
          exact .inl ⟨rfl, by rw [← hh']⟩
        · exact .inr (Function.update_of_ne hfd _ m.handlers ▸ hh')
      · exact .inr hh'
    refine ⟨fun j fd hfd ↦ ?_, fun j k fd hj hk ↦ ?_, fun h handler hh' hne ↦ ?_,
      fun h handler hh' ↦ ?_⟩
    · rw [hn, hcount]
      obtain ⟨rfl, rfl⟩ | hfd := hback j fd hfd
      · exact ⟨Nat.lt_succ_self _, Nat.lt_of_lt_of_le (Nat.lt_succ_self _) (Nat.le_max_left _ _)⟩
      · have hs := hm.socket j fd hfd
        exact ⟨Nat.lt_succ_of_lt hs.1, Nat.lt_of_lt_of_le hs.2 (Nat.le_max_right _ _)⟩
    · obtain ⟨rfl, rfl⟩ | hold' := hback j fd hj
      · obtain ⟨rfl, _⟩ | hk := hback k _ hk
        · rfl
        · exact absurd rfl (Nat.ne_of_lt (hm.socket k _ hk).1)
      · obtain ⟨rfl, rfl⟩ | hk := hback k fd hk
        · exact absurd rfl (Nat.ne_of_lt (hm.socket j _ hold').1)
        · exact hm.distinct j k fd hold' hk
    · obtain ⟨rfl, hslot⟩ | hh' := hold h handler hh'
      · rw [hslot, hself]
        rfl
      · rw [hother _ (hfree i hi h handler hh' hne)]
        exact hm.owner h handler hh' hne
    · rw [hn]
      obtain ⟨rfl, _⟩ | hh' := hold h handler hh'
      · exact Nat.lt_succ_self _
      · exact Nat.lt_succ_of_lt (hm.bounded h handler hh')

theorem Turn.manned (ht : Turn verify m x m') (hw : Rings m.world) (hm : Manned m)
    (hx : vacant m x = true) : Manned m' := by
  cases ht with
  | idle h => rwa [h]
  | accept challenge created hacc hheld h =>
    rw [h]
    subst hacc
    exact (acceptHandler_joined m challenge created).manned hm
      (fun i hi h handler hh hne ↦ vacant_slot hm hheld hx hi hh hne)
  | receive h stream i _ hh h' =>
    have hids := (takeRequest_admitted m.world i stream).identity
    obtain ⟨es, hes⟩ := takeRequest_plain m.world i stream
    have hcount : (takeRequest m.world i stream).2.server.clientCount =
        m.world.server.clientCount := by
      obtain ⟨r, hr⟩ := (takeRequest_admitted m.world i stream).server
      rw [hr]
      rfl
    rw [h', ← Prod.mk.eta (p := receiveRequest m.world i stream), receiveRequest_world]
    exact hm.put hh (fun j _ ↦ (hids j).1.socketFd)
      (.inl ⟨(hids i).1.socketFd, fun hdone ↦ by cases hdone⟩) hcount hes.nextFd.ge
  | go h i c _ hh _ h' =>
    have hs := @proceed_section verify m.world i c
    obtain ⟨es, hes⟩ := @proceed_handled verify m.world hw i c
    rw [h', ← Prod.mk.eta (p := proceed verify m.world i c)]
    refine hm.put hh (fun j hj ↦ (Section.others hs hj).socketFd) ?_ (Section.clientCount hs)
      hes.nextFd
    obtain hsame | ⟨rfl, hnone⟩ := Section.socket hs
    · refine .inl ⟨hsame, fun hdone ↦ ?_⟩
      rw [hdone]
      rfl
    · exact .inr ⟨by simp, hnone, rfl⟩
  | environment env _ h =>
    rw [h]
    exact ⟨hm.socket, hm.distinct, hm.owner, hm.bounded⟩

theorem initial_rings : Rings World.initial := fun _ ↦
  Circular.zero_wellFormed (by decide) _

/-- As long as no connection is put into a slot whose handler is at work, every
handler has a slot of its own. -/
theorem manned_always (xs : List Input)
    (h : Runs.Along (step verify) (fun m x ↦ vacant m x = true) Pool.initial xs) :
    Runs.Always (step verify) (fun m ↦ Rings m.world ∧ Manned m) Pool.initial xs := by
  refine Runs.Along.always (fun m x hm hx ↦ ⟨?_, ?_⟩) ⟨initial_rings, initial_manned⟩ h
  · obtain ⟨i, es, hes⟩ := @step_handled verify m hm.1 x
    exact hes.rings
  · exact Turn.manned (step_turn m x) hm.1 hm.2 hx

end CChat.Threads.Crew
