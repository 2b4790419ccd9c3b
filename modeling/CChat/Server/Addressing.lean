import CChat.Library.Traces
import CChat.Server.Delivery

namespace CChat.Server.Addressing

open CChat.Library CChat.Library.Circular CChat.Library.Traces CChat.Protocol.Types
  CChat.Protocol.Wire State Network Users Queue Handlers Loop Effects HandlerEffects Views Steps
  Invariants History Delivery

variable {verify : Signature → Challenge → Key → Bool} {g : Guards} {i : ℕ} {w w' : World}

def HandedTo (out : List Event) : Event → Prop
  | .frame fd _ _ (some m) => lastLogin out fd = some m.recipient
  | _ => True

instance (out : List Event) : (e : Event) → Decidable (HandedTo out e)
  | .frame fd _ _ (some m) => inferInstanceAs (Decidable (lastLogin out fd = some m.recipient))
  | .frame _ _ _ none => isTrue trivial
  | .request .. => isTrue trivial
  | .torn .. => isTrue trivial
  | .login .. => isTrue trivial
  | .queued .. => isTrue trivial
  | .closed .. => isTrue trivial

/-- Every undelivered message is in a slot that carries its recipient's name,
and every delivered one went to a connection logged in as its recipient. -/
structure Addressed (w : World) : Prop where
  stored : ∀ j, ∀ m ∈ pending (w.server.clients j),
    (w.server.clients j).authenticated = true ∧ (w.server.clients j).username = m.recipient
  handed : Justified HandedTo w.out

/-- A slot's name and entries after an effect: the entries are gone, or the name
is kept and new entries bear it, or a login has put another name over them. -/
theorem Effect.addressee (h : Effect verify g i w w') (hq : Queues w) (j : ℕ) :
    pending (w'.server.clients j) = [] ∨
      (w'.server.clients j).username = (w.server.clients j).username ∧
        (∀ m ∈ pending (w'.server.clients j), m ∈ pending (w.server.clients j) ∨
          (w.server.clients j).username = m.recipient) ∨
      j = i ∧ g.login w (w'.server.clients j).username ∧
        pending (w'.server.clients j) = pending (w.server.clients j) := by
  have hname : ∀ m ∈ pending (w'.server.clients j), m ∈ pending (w.server.clients j) ∨
      (w.server.clients j).username = m.recipient := by
    intro m hm
    obtain hold | ⟨_, _, hholds, _⟩ := (Effect.pending h hq).origin j hm
    · exact .inl hold
    · simp only [holds, Bool.and_eq_true, decide_eq_true_eq] at hholds
      exact .inr hholds.2
  cases Effect.identity h with
  | same _ hids => exact .inr (.inl ⟨(hids j).username, hname⟩)
  | login name _ _ _ hg _ _ _ hself hother ho =>
    by_cases hj : j = i
    · subst hj
      refine .inr (.inr ⟨rfl, by rw [hself]; exact hg, ?_⟩)
      rw [hself]
      rfl
    · exact .inr (.inl ⟨by rw [hother j hj], hname⟩)
  | logout _ hself hother =>
    by_cases hj : j = i
    · subst hj
      exact .inr (.inl ⟨by rw [hself], hname⟩)
    · exact .inr (.inl ⟨by rw [hother j hj], hname⟩)
  | close _ hself hother =>
    by_cases hj : j = i
    · subst hj
      rw [hself]
      exact .inl (window_reset _)
    · exact .inr (.inl ⟨by rw [hother j hj], hname⟩)

theorem Cause.handedTo {e : Event} (h : Cause verify g i w e) (hw : Consistent w)
    (ha : Addressed w) : HandedTo w.out e := by
  cases h with
  | emission e he => cases he <;> trivial
  | login => trivial
  | queued => trivial
  | delivered fd m hi hcount hm hfd =>
    have hmem : m ∈ pending (w.server.clients i) := by
      rw [pending, window_cons (hw.queues.ring i) hcount, hm]
      exact List.mem_cons_self
    have hlast := hw.linked.authenticated hfd hi
    rw [(ha.stored i m hmem).2] at hlast
    exact hlast
  | closed => trivial

theorem Effect.named (h : Effect verify g i w w') (hq : Queues w) {j : ℕ}
    (hlogin : j = i → ∀ name, g.login w name →
      name = (w.server.clients i).username ∨ pending (w.server.clients i) = [])
    (hj : ∀ m ∈ pending (w.server.clients j), (w.server.clients j).username = m.recipient) :
    ∀ m ∈ pending (w'.server.clients j), (w'.server.clients j).username = m.recipient := by
  intro m hm
  obtain hnil | ⟨hname, hmem⟩ | ⟨rfl, hg, hsame⟩ := Effect.addressee h hq j
  · rw [hnil] at hm
    cases hm
  · rw [hname]
    exact (hmem m hm).elim (hj m) id
  · rw [hsame] at hm
    obtain hname | hnil := hlogin rfl _ hg
    · rw [hname]
      exact hj m hm
    · rw [hnil] at hm
      cases hm

theorem Effect.addressed (h : Effect verify g i w w') (hw : Consistent w)
    (hlogin : ∀ name, g.login w name →
      name = (w.server.clients i).username ∨ pending (w.server.clients i) = [])
    (ha : Addressed w) : Addressed w' := by
  have hq := Effect.queues h hw.queues
  refine ⟨fun j m hm ↦ ⟨hq.holder j (List.ne_nil_of_mem hm), ?_⟩, ?_⟩
  · exact Effect.named h hw.queues (fun _ ↦ hlogin) (fun n hn ↦ (ha.stored j n hn).2) m hm
  · obtain ho | ⟨e, ho, hcause⟩ := Effect.cause h
    · rw [ho]
      exact ha.handed
    · rw [ho]
      exact ha.handed.concat (Cause.handedTo hcause hw ha)

theorem Accepted.addressed {challenge : Challenge} {created : Bool}
    (h : Accepted w challenge created w') (ha : Addressed w) : Addressed w' := by
  refine ⟨?_, ?_⟩
  · cases h with
    | full hs =>
      rw [hs]
      exact ha.stored
    | slot k es _ _ hself hother =>
      intro j m hm
      by_cases hj : j = k
      · rw [hj, hself] at hm
        cases hm
      · rw [hother j hj] at hm ⊢
        exact ha.stored j m hm
  · obtain ho | ho := Accepted.out h
    · rw [ho]
      exact ha.handed
    · rw [ho]
      exact ha.handed.concat trivial

/-- A login over a queue that holds messages is under the name the slot bears. -/
def KeepsName (verify : Signature → Challenge → Key → Bool) (w : World) : Input → Prop
  | .accept _ _ => True
  | .receive i stream env => (w.server.clients i).connected = true →
      ∀ name, AcceptsLogin verify w i stream env name →
        name = (w.server.clients i).username ∨ pending (w.server.clients i) = []

theorem step_addressed {x : Input} (hs : Steady w) (ha : Addressed w)
    (hx : KeepsName verify w x) : Addressed (step verify w x) := by
  cases @step_turn verify w hs.sound x with
  | accept _ _ _ h => exact Accepted.addressed h ha
  | idle _ _ _ _ _ h => rw [h]; exact ha
  | handled i stream env fd hin hconn _ hchain _ =>
    rw [hin] at hx
    refine (Chain.carry (fun v v' he hv hav ↦ Effect.addressed he hv (fun name hg ↦ ?_) hav) hchain
      hs.consistent ha).2
    rw [hg.2.identity.username, pending, hg.2.queue]
    exact hx hconn name hg.1

/-- A login under another name leaves a message with the wrong connection, or
hands one to it. -/
theorem relogin_misdelivers {x : Input} (hs : Steady w) (ha : Addressed w)
    (hx : ¬ KeepsName verify w x) : ¬ Addressed (step verify w x) := by
  intro ha'
  cases x with
  | accept => exact hx trivial
  | receive i stream env =>
    simp only [KeepsName, not_forall, not_or] at hx
    obtain ⟨hconn, name, hlogin, hne, hnil⟩ := hx
    obtain ⟨fd, hfd⟩ := hs.sound.sockets.connected i hconn
    obtain ⟨v, response, hturn, hchain, hfd', hauth, hname, hqueue, _⟩ :=
      login_turn hfd hconn hs.sound.sockets.running hlogin
    have hv := Chain.consistent hchain hs.consistent
    obtain ⟨m, rest, hm⟩ := List.exists_cons_of_ne_nil hnil
    have hpend : pending (v.server.clients i) = m :: rest := by rw [pending, hqueue]; exact hm
    have hother : m.recipient ≠ name := by
      have hmem : m ∈ pending (w.server.clients i) := hm ▸ List.mem_cons_self
      rw [← (ha.stored i m hmem).2]
      exact Ne.symm hne
    have hdeliver := deliverLoop_head (v.server.clients i).queue.count 0 hv.queues hauth hfd' hpend
    have hunfold : deliverQueuedMessages v i =
        deliverLoop i (v.server.clients i).queue.count 0 v := by simp [deliverQueuedMessages, hauth]
    have hids := (identity_neutral.deliverQueuedMessages v i i)
    rw [hunfold] at hturn hids
    rw [step_receive stream env hconn, hturn] at ha'
    generalize deliverLoop i (v.server.clients i).queue.count 0 v = delivered at ha' hdeliver hids
    obtain hkept | ⟨post, hpost⟩ := hdeliver
    · have hfinal := (ha'.stored i m (by
        rw [reply, sendNetworkMessage_server, hkept]
        exact List.mem_cons_self)).2
      rw [reply, sendNetworkMessage_server, hids.username, hname] at hfinal
      exact hother hfinal.symm
    · obtain ⟨es, hes⟩ := Chain.grows (@reply_chain verify .any i delivered.2
        .loginResponse response ⟨by decide, by decide⟩ (.inl (hids.authenticated.trans hauth)))
      have hto : HandedTo v.out (handover fd m) := by
        refine ha'.handed v.out (handover fd m) (post ++ es) ?_
        rw [hes, hpost, List.append_assoc, List.cons_append]
      have hlast := hv.linked.authenticated hfd' hauth
      rw [hname] at hlast
      exact hother (Option.some.inj (hto.symm.trans hlast))

/-- Queued messages stay with their addressees in exactly the runs in which no
login puts another name over a queue that holds some. -/
theorem addressed_iff (verify : Signature → Challenge → Key → Bool) (xs : List Input) :
    Runs.Always (step verify) Addressed World.initial xs ↔
      Runs.Along (step verify) (KeepsName verify) World.initial xs := by
  have hsteady : Runs.Always (step verify) Steady World.initial xs :=
    Runs.always_invariant (fun v x hv ↦ step_steady (w := v) hv x) steady_initial xs
  refine ⟨fun h ↦ ?_, fun h ↦ ?_⟩
  · refine (hsteady.and h).along (fun v x hv hv' ↦ ?_)
    by_contra hx
    exact relogin_misdelivers hv.1 hv.2 hx hv'.2
  · have hboth : Runs.Always (step verify) (fun v ↦ Steady v ∧ Addressed v) World.initial xs := by
      refine Runs.Along.always (fun v x hv hx ↦ ?_) ⟨steady_initial, ?_, .nil⟩ h
      · exact ⟨step_steady hv.1 x, step_addressed hv.1 hv.2 hx⟩
      · intro j m hm
        cases hm
    exact hboth.mono (fun v hv ↦ hv.2)

def reloginRun : List Input :=
  [.accept (Block.zero _) true, .accept (Block.zero _) true,
    .receive 0 (registerPacket (text "alice") (List.replicate 32 1)) .quiet,
    .receive 1 (registerPacket (text "bob") (List.replicate 32 2)) .quiet,
    .receive 1 (registerPacket (text "eve") (List.replicate 32 3)) .quiet,
    .receive 0 (loginPacket (text "alice") (List.replicate 64 0)) .quiet,
    .receive 1 (loginPacket (text "bob") (List.replicate 64 0)) .quiet,
    .receive 0 (sendPacket (text "bob") [1, 2]) ⟨[], [some 0], []⟩,
    .receive 1 (loginPacket (text "eve") (List.replicate 64 0)) .quiet]

theorem reloginRun_misdelivers :
    ¬ Runs.Always (step fun _ _ _ ↦ true) Addressed World.initial reloginRun := by
  intro h
  have hlast := Runs.Always.last h
  rw [← reach] at hlast
  have hsplit : (reach (fun _ _ _ ↦ true) reloginRun).out =
      (reach (fun _ _ _ ↦ true) reloginRun).out.take 20 ++
        (reach (fun _ _ _ ↦ true) reloginRun).out.getD 20 (.closed 0) ::
        (reach (fun _ _ _ ↦ true) reloginRun).out.drop 21 := by decide +kernel
  have hwrong : ¬ HandedTo ((reach (fun _ _ _ ↦ true) reloginRun).out.take 20)
      ((reach (fun _ _ _ ↦ true) reloginRun).out.getD 20 (.closed 0)) := by decide +kernel
  generalize reach (fun _ _ _ ↦ true) reloginRun = w at hlast hsplit hwrong
  exact hwrong (hlast.handed _ _ _ hsplit)

end CChat.Server.Addressing
