import CChat.Server.Invariants

namespace CChat.Threads.Slots

open CChat.Library CChat.Library.Circular CChat.Protocol.Types CChat.Server.State CChat.Server.Users
  CChat.Server.Handlers CChat.Server.Loop CChat.Server.Steps CChat.Server.Invariants

/-- Where a handler thread stands: before the loop test, before `recv`, in the
loop body, and before each of the three parts of the closing block. -/
inductive Phase
  | testing | receiving | handling | leaving | disconnecting | clearing | ended
deriving DecidableEq

def Phase.holdsSocket : Phase → Bool
  | .testing => true
  | .receiving => true
  | .handling => true
  | .leaving => true
  | _ => false

structure Handler where
  slot : ℕ
  phase : Phase
deriving DecidableEq

inductive UseKind
  | read | answer | close | disconnect | clear
deriving DecidableEq

structure Use where
  handler : Fd
  kind : UseKind
  target : Option Fd
deriving DecidableEq

/-- The server with its handler threads, each named by the connection it was
started for. `holder` is the connection that was last given a slot. -/
structure Table where
  world : World
  handlers : Fd → Option Handler
  holder : ℕ → Option Fd
  uses : List Use

def Table.initial : Table := ⟨World.initial, fun _ ↦ none, fun _ ↦ none, []⟩

inductive Act
  | test | receive (message : Bool) | answer | logout | next | refuse | close | disconnect | clear
deriving DecidableEq

inductive Input
  | accept (challenge : Challenge) (created : Bool)
  | act (handler : Fd) (a : Act)

def closeDescriptor (w : World) (i : ℕ) : World :=
  (closeSocket (goOffline w i) i).modifyClient i (fun c ↦ { c with socketFd := none })

def markDisconnected (w : World) (i : ℕ) : World :=
  w.modifyClient i (fun c ↦ { c with connected := false })

def clearSession (w : World) (i : ℕ) : World :=
  w.modifyClient i (fun c ↦
    { c with authenticated := false, username := Username.empty, queue := reset c.queue })

def Table.move (t : Table) (h : Fd) (k : Handler) (phase : Phase) (w : World) (us : List Use) :
    Table :=
  ⟨w, Function.update t.handlers h (some ⟨k.slot, phase⟩), t.holder, t.uses ++ us⟩

def act (t : Table) (h : Fd) (k : Handler) (a : Act) : Table :=
  let w := t.world
  let c := w.server.clients k.slot
  match a, k.phase with
  | .test, .testing =>
    t.move h k (if c.connected && w.server.running then .receiving else .leaving) w []
  | .receive message, .receiving =>
    t.move h k (if message then .handling else .leaving) w [⟨h, .read, c.socketFd⟩]
  | .answer, .handling => t.move h k .handling w [⟨h, .answer, c.socketFd⟩]
  | .logout, .handling =>
    t.move h k .testing (handleLogout w k.slot).2 [⟨h, .disconnect, t.holder k.slot⟩]
  | .next, .handling => t.move h k .testing w []
  | .refuse, .handling => t.move h k .leaving w [⟨h, .answer, c.socketFd⟩]
  | .close, .leaving =>
    t.move h k .disconnecting (closeDescriptor w k.slot)
      (if c.socketFd.isSome then [⟨h, .close, c.socketFd⟩] else [])
  | .disconnect, .disconnecting =>
    t.move h k .clearing (markDisconnected w k.slot) [⟨h, .disconnect, t.holder k.slot⟩]
  | .clear, .clearing =>
    t.move h k .ended (clearSession w k.slot) [⟨h, .clear, t.holder k.slot⟩]
  | _, _ => t

def accept (t : Table) (challenge : Challenge) (created : Bool) : Table :=
  let w := acceptClient t.world challenge created
  match freeSlot t.world.server with
  | none => { t with world := w }
  | some i =>
    { t with
      world := w
      handlers := if created then
        Function.update t.handlers t.world.nextFd (some ⟨i, .testing⟩) else t.handlers
      holder := Function.update t.holder i (some t.world.nextFd) }

def step (t : Table) : Input → Table
  | .accept challenge created => accept t challenge created
  | .act h a =>
    match t.handlers h with
    | none => t
    | some k => act t h k a

/-- The closing block in one piece is its three parts in turn. -/
theorem terminate_parts (w : World) (i : ℕ) :
    clearSession (markDisconnected (closeDescriptor w i) i) i = terminate w i := by
  simp [clearSession, markDisconnected, closeDescriptor, terminate, World.modifyClient]

/-- Every slot has at most one live handler, and a live handler's slot and
descriptor are those of the connection it was started for, as everything it
used so far was. -/
structure Owned (t : Table) : Prop where
  single : ∀ h k h' k', t.handlers h = some k → t.handlers h' = some k' → k.phase ≠ .ended →
    k'.phase ≠ .ended → k.slot = k'.slot → h = h'
  holder : ∀ h k, t.handlers h = some k → k.phase ≠ .ended → t.holder k.slot = some h
  descriptor : ∀ h k, t.handlers h = some k → k.phase.holdsSocket = true →
    (t.world.server.clients k.slot).socketFd = some h
  uses : ∀ u ∈ t.uses, u.target = some u.handler

/-- A connection that is accepted does not get the slot of a handler that is
still at work: one that stored `connected = false` and has not returned. -/
def Undisturbed (t : Table) : Input → Prop
  | .accept _ _ => ∀ i ∈ freeSlot t.world.server, ∀ h k, t.handlers h = some k → k.slot = i →
    k.phase = .ended
  | .act _ _ => True

inductive Moved (t : Table) (h : Fd) (k : Handler) (t' : Table) : Prop
  | stay (ht : t' = t)
  | move (phase : Phase) (w : World) (us : List Use) (ht : t' = t.move h k phase w us)
      (hlive : k.phase ≠ .ended)
      (hother : ∀ j, j ≠ k.slot → w.server.clients j = t.world.server.clients j)
      (hnext : w.nextFd = t.world.nextFd)
      (hsocket : phase.holdsSocket = true → k.phase.holdsSocket = true ∧
        (w.server.clients k.slot).socketFd = (t.world.server.clients k.slot).socketFd)
      (huses : ∀ u ∈ us, u.handler = h ∧ (u.target = t.holder k.slot ∨
        k.phase.holdsSocket = true ∧ u.target = (t.world.server.clients k.slot).socketFd))

theorem closeDescriptor_frame (w : World) (i : ℕ) :
    (∀ j, j ≠ i → (closeDescriptor w i).server.clients j = w.server.clients j) ∧
      (closeDescriptor w i).nextFd = w.nextFd := by
  obtain ⟨hchain, hclients⟩ := @goOffline_chain (fun _ _ _ ↦ false) .any i w
  have hsocket : (closeSocket (goOffline w i) i).server = (goOffline w i).server ∧
      (closeSocket (goOffline w i) i).nextFd = (goOffline w i).nextFd := by
    unfold closeSocket
    split <;> exact ⟨rfl, rfl⟩
  refine ⟨fun j hj ↦ ?_, hsocket.2.trans (Chain.table hchain).2.2⟩
  rw [closeDescriptor, modifyClient_other _ _ hj, hsocket.1, hclients]

theorem act_moved (t : Table) (h : Fd) (k : Handler) (a : Act) : Moved t h k (act t h k a) := by
  have hstep : ∀ phase us, k.phase.holdsSocket = true →
      (∀ u ∈ us, u.handler = h ∧ (u.target = t.holder k.slot ∨ k.phase.holdsSocket = true ∧
        u.target = (t.world.server.clients k.slot).socketFd)) →
      Moved t h k (t.move h k phase t.world us) := by
    intro phase us hholds hus
    have hlive : k.phase ≠ .ended := by
      intro hended
      rw [hended] at hholds
      cases hholds
    exact .move phase t.world us rfl hlive (fun _ _ ↦ rfl) rfl (fun _ ↦ ⟨hholds, rfl⟩) hus
  have hclose : ∀ phase f us, k.phase ≠ .ended → phase.holdsSocket = false →
      (∀ u ∈ us, u.handler = h ∧ (u.target = t.holder k.slot ∨ k.phase.holdsSocket = true ∧
        u.target = (t.world.server.clients k.slot).socketFd)) →
      Moved t h k (t.move h k phase (t.world.modifyClient k.slot f) us) := by
    intro phase f us hlive hphase hus
    refine .move phase _ us rfl hlive (fun j hj ↦ modifyClient_other _ _ hj) rfl ?_ hus
    rw [hphase]
    intro hfalse
    cases hfalse
  unfold act
  dsimp only
  split
  next hk => exact hstep _ _ (by rw [hk]; rfl) (by simp)
  next hk => exact hstep _ _ (by rw [hk]; rfl) (by simp [hk, Phase.holdsSocket])
  next hk => exact hstep _ _ (by rw [hk]; rfl) (by simp [hk, Phase.holdsSocket])
  next hk =>
    refine .move _ _ _ rfl (by rw [hk]; decide) (fun j hj ↦ modifyClient_other _ _ hj) rfl ?_
      (by simp)
    intro _
    exact ⟨by rw [hk]; rfl, by rw [handleLogout, modifyClient_self]⟩
  next hk => exact hstep _ _ (by rw [hk]; rfl) (by simp)
  next hk => exact hstep _ _ (by rw [hk]; rfl) (by simp [hk, Phase.holdsSocket])
  next hk =>
    obtain ⟨hother, hnext⟩ := closeDescriptor_frame t.world k.slot
    refine .move _ _ _ rfl (by rw [hk]; decide) hother hnext ?_ ?_
    · intro hfalse
      cases hfalse
    · intro u hu
      split at hu
      · rw [List.mem_singleton.mp hu, hk]
        exact ⟨rfl, .inr ⟨rfl, rfl⟩⟩
      · cases hu
  next hk => exact hclose _ _ _ (by rw [hk]; decide) rfl (by simp)
  next hk => exact hclose _ _ _ (by rw [hk]; decide) rfl (by simp)
  · exact .stay rfl

def Started (t : Table) : Prop := ∀ h k, t.handlers h = some k → h < t.world.nextFd

theorem Moved.started {t t' : Table} {h : Fd} {k : Handler} (hm : Moved t h k t')
    (hk : t.handlers h = some k) (ht : Started t) : Started t' := by
  cases hm with
  | stay heq => exact heq ▸ ht
  | move phase w us heq _ _ hnext =>
    subst heq
    intro h' k' hk'
    have hnext' : (t.move h k phase w us).world.nextFd = t.world.nextFd := hnext
    rw [hnext']
    by_cases hh : h' = h
    · exact hh ▸ ht h k hk
    · exact ht h' k' ((Function.update_of_ne hh _ _).symm.trans hk')

theorem Moved.owned {t t' : Table} {h : Fd} {k : Handler} (hm : Moved t h k t')
    (hk : t.handlers h = some k) (ht : Owned t) : Owned t' := by
  cases hm with
  | stay heq => exact heq ▸ ht
  | move phase w us heq hlive hother _ hsocket huses =>
    subst heq
    have hself : (t.move h k phase w us).handlers h = some ⟨k.slot, phase⟩ := Function.update_self ..
    have hrest : ∀ h', h' ≠ h → (t.move h k phase w us).handlers h' = t.handlers h' :=
      fun h' hh ↦ Function.update_of_ne hh ..
    have hback : ∀ h' k', (t.move h k phase w us).handlers h' = some k' → k'.phase ≠ .ended →
        ∃ k₀, t.handlers h' = some k₀ ∧ k₀.phase ≠ .ended ∧ k₀.slot = k'.slot := by
      intro h' k' hk' hlive'
      by_cases hh : h' = h
      · subst hh
        rw [hself] at hk'
        cases hk'
        exact ⟨k, hk, hlive, rfl⟩
      · rw [hrest h' hh] at hk'
        exact ⟨k', hk', hlive', rfl⟩
    refine ⟨?_, ?_, ?_, ?_⟩
    · intro h₁ k₁ h₂ k₂ hk₁ hk₂ hl₁ hl₂ hslot
      obtain ⟨k₁', ho₁, hl₁', hs₁⟩ := hback h₁ k₁ hk₁ hl₁
      obtain ⟨k₂', ho₂, hl₂', hs₂⟩ := hback h₂ k₂ hk₂ hl₂
      exact ht.single h₁ k₁' h₂ k₂' ho₁ ho₂ hl₁' hl₂' (hs₁.trans (hslot.trans hs₂.symm))
    · intro h' k' hk' hlive'
      obtain ⟨k₀, ho, hl, hs⟩ := hback h' k' hk' hlive'
      rw [← hs]
      exact ht.holder h' k₀ ho hl
    · intro h' k' hk' hholds
      by_cases hh : h' = h
      · subst hh
        rw [hself] at hk'
        cases hk'
        obtain ⟨hheld, hsame⟩ := hsocket hholds
        exact hsame.trans (ht.descriptor h' k hk hheld)
      · rw [hrest h' hh] at hk'
        have hlive' : k'.phase ≠ .ended := by
          intro hended
          rw [hended] at hholds
          cases hholds
        have hslot : k'.slot ≠ k.slot := fun hs ↦ hh (ht.single h' k' h k hk' hk hlive' hlive hs)
        have hsame : (t.move h k phase w us).world.server.clients k'.slot =
            t.world.server.clients k'.slot := hother k'.slot hslot
        rw [hsame]
        exact ht.descriptor h' k' hk' hholds
    · intro u hu
      obtain hold | hnew := List.mem_append.mp hu
      · exact ht.uses u hold
      · obtain ⟨hhandler, htarget | ⟨hheld, htarget⟩⟩ := huses u hnew
        · rw [hhandler, htarget, ht.holder h k hk hlive]
        · rw [hhandler, htarget, ht.descriptor h k hk hheld]

theorem accept_handlers {t : Table} {i : ℕ} {challenge : Challenge} {created : Bool}
    (hslot : freeSlot t.world.server = some i) {h : Fd} {k : Handler}
    (hk : (accept t challenge created).handlers h = some k) :
    h = t.world.nextFd ∧ k = ⟨i, .testing⟩ ∨ t.handlers h = some k := by
  unfold accept at hk
  rw [hslot] at hk
  dsimp only at hk
  split at hk
  · by_cases hh : h = t.world.nextFd
    · subst hh
      rw [Function.update_self] at hk
      exact .inl ⟨rfl, (Option.some.inj hk).symm⟩
    · rw [Function.update_of_ne hh] at hk
      exact .inr hk
  · exact .inr hk

theorem accept_slot {t : Table} {i : ℕ} (challenge : Challenge) (created : Bool)
    (hslot : freeSlot t.world.server = some i) :
    (accept t challenge created).world = acceptClient t.world challenge created ∧
      (accept t challenge created).holder =
        Function.update t.holder i (some t.world.nextFd) ∧
      (accept t challenge created).uses = t.uses := by
  unfold accept
  rw [hslot]
  dsimp only
  exact ⟨rfl, rfl, rfl⟩

theorem accept_full {t : Table} (challenge : Challenge) (created : Bool)
    (hslot : freeSlot t.world.server = none) :
    accept t challenge created =
      { t with world := acceptClient t.world challenge created } := by
  unfold accept
  rw [hslot]

theorem step_act {t : Table} {h : Fd} {k : Handler} (a : Act) (hk : t.handlers h = some k) :
    step t (.act h a) = act t h k a := by
  simp only [step, hk]

theorem step_act_none {t : Table} {h : Fd} (a : Act) (hk : t.handlers h = none) :
    step t (.act h a) = t := by
  simp only [step, hk]

theorem step_started {t : Table} (x : Input) (ht : Started t) : Started (step t x) := by
  cases x with
  | accept challenge created =>
    intro h k hk
    rw [step] at hk ⊢
    cases hslot : freeSlot t.world.server with
    | none =>
      rw [accept_full challenge created hslot] at hk ⊢
      dsimp only at hk ⊢
      rw [(acceptClient_full challenge created hslot).2]
      exact Nat.lt_succ_of_lt (ht h k hk)
    | some i =>
      rw [(accept_slot challenge created hslot).1, (acceptClient_slot challenge created hslot).2.2]
      obtain ⟨rfl, _⟩ | hold := accept_handlers hslot hk
      · exact Nat.lt_succ_self _
      · exact Nat.lt_succ_of_lt (ht h k hold)
  | act h a =>
    cases hk : t.handlers h with
    | none =>
      rw [step_act_none a hk]
      exact ht
    | some k =>
      rw [step_act a hk]
      exact (act_moved t h k a).started hk ht

theorem accept_owned {t : Table} {i : ℕ} {challenge : Challenge} {created : Bool}
    (hslot : freeSlot t.world.server = some i) (ht : Owned t)
    (hfree : ∀ h k, t.handlers h = some k → k.slot = i → k.phase = .ended) :
    Owned (accept t challenge created) := by
  obtain ⟨hworld, hholder, huses⟩ := accept_slot challenge created hslot
  obtain ⟨hself, hother, _⟩ := acceptClient_slot challenge created hslot
  have hold : ∀ h k, t.handlers h = some k → k.phase ≠ .ended → k.slot ≠ i :=
    fun h k hk hlive hi ↦ hlive (hfree h k hk hi)
  refine ⟨?_, ?_, ?_, ?_⟩
  · intro h k h' k' hk hk' hlive hlive' hsame
    obtain ⟨rfl, rfl⟩ | hk := accept_handlers hslot hk
    · obtain ⟨rfl, _⟩ | hk' := accept_handlers hslot hk'
      · rfl
      · exact absurd hsame.symm (hold h' k' hk' hlive')
    · obtain ⟨rfl, rfl⟩ | hk' := accept_handlers hslot hk'
      · exact absurd hsame (hold h k hk hlive)
      · exact ht.single h k h' k' hk hk' hlive hlive' hsame
  · intro h k hk hlive
    rw [hholder]
    obtain ⟨rfl, rfl⟩ | hk := accept_handlers hslot hk
    · exact Function.update_self ..
    · rw [Function.update_of_ne (hold h k hk hlive)]
      exact ht.holder h k hk hlive
  · intro h k hk hholds
    rw [hworld]
    obtain ⟨rfl, rfl⟩ | hk := accept_handlers hslot hk
    · dsimp only
      rw [hself]
      rfl
    · have hlive : k.phase ≠ .ended := by
        intro hended
        rw [hended] at hholds
        cases hholds
      rw [hother k.slot (hold h k hk hlive)]
      exact ht.descriptor h k hk hholds
  · rw [huses]
    exact ht.uses

theorem step_owned {t : Table} {x : Input} (ht : Owned t) (hx : Undisturbed t x) :
    Owned (step t x) := by
  cases x with
  | accept challenge created =>
    rw [step]
    cases hslot : freeSlot t.world.server with
    | none =>
      rw [accept_full challenge created hslot]
      refine ⟨ht.single, ht.holder, fun h k hk hholds ↦ ?_, ht.uses⟩
      dsimp only
      rw [(acceptClient_full challenge created hslot).1]
      exact ht.descriptor h k hk hholds
    | some i => exact accept_owned hslot ht (hx i hslot)
  | act h a =>
    cases hk : t.handlers h with
    | none =>
      rw [step_act_none a hk]
      exact ht
    | some k =>
      rw [step_act a hk]
      exact (act_moved t h k a).owned hk ht

/-- A handler at work whose slot is given away has lost it to a later connection. -/
theorem undisturbed_of_owned {t : Table} {x : Input} (hs : Started t) (hx : Owned (step t x)) :
    Undisturbed t x := by
  cases x with
  | accept challenge created =>
    rw [step] at hx
    intro i hslot h k hk hi
    by_contra hlive
    have hne : h ≠ t.world.nextFd := Nat.ne_of_lt (hs h k hk)
    have hk' : (accept t challenge created).handlers h = some k := by
      unfold accept
      rw [hslot]
      dsimp only
      split
      · rw [Function.update_of_ne hne, hk]
      · exact hk
    have hheld := hx.holder h k hk' hlive
    rw [(accept_slot challenge created hslot).2.1, hi, Function.update_self] at hheld
    exact hne (Option.some.inj hheld).symm
  | act => trivial

theorem owned_initial : Owned Table.initial := by
  refine ⟨?_, ?_, ?_, ?_⟩
  · intro h k h' k' hk
    cases hk
  · intro h k hk
    cases hk
  · intro h k hk
    cases hk
  · intro u hu
    cases hu

theorem started_initial : Started Table.initial := by
  intro h k hk
  cases hk

/-- The handlers stay with their own connections in every state of a run exactly
when no connection of the run is given the slot of a handler still at work. -/
theorem owned_iff (xs : List Input) :
    Runs.Always step Owned Table.initial xs ↔
      Runs.Along step Undisturbed Table.initial xs := by
  refine ⟨fun h ↦ ?_, fun h ↦ ?_⟩
  · have hstarted : Runs.Always step Started Table.initial xs :=
      Runs.always_invariant (fun t x ht ↦ step_started x ht) started_initial xs
    exact (h.and hstarted).along (fun t x ht ht' ↦ undisturbed_of_owned ht.2 ht'.1)
  · exact h.always (fun t x ht hx ↦ step_owned ht hx) owned_initial

def takenOver : List Input :=
  [.accept (Block.zero _) true, .act 0 .test, .act 0 (.receive true), .act 0 .logout,
    .accept (Block.zero _) true, .act 0 .test, .act 0 (.receive false), .act 0 .close]

theorem takenOver_closes : ¬ Runs.Always step Owned Table.initial takenOver := by
  intro h
  have hclosed : (⟨0, .close, some 1⟩ : Use) ∈ (Runs.run step Table.initial takenOver).uses := by
    decide +kernel
  have htarget := h.last.uses _ hclosed
  cases htarget

end CChat.Threads.Slots
