import Mathlib.Algebra.BigOperators.Group.Finset.Basic
import Mathlib.Tactic.Abel
import CChat.Server.Addressing

namespace CChat.Server.Conservation

open CChat.Library CChat.Library.Circular CChat.Protocol.Types CChat.Protocol.Wire State Network
  Users Queue Handlers Loop Effects HandlerEffects Views Steps Invariants History Delivery
  Addressing

variable {verify : Signature → Challenge → Key → Bool} {g : Guards} {i : ℕ} {w w' : World}

/-- The message `queue_message` stored and returned 0 for. -/
def Event.accepted : Event → Option StoredMessage
  | .queued m => some m
  | _ => none

/-- The stored message a whole `INCOMING_MESSAGE` frame carries. -/
def Event.written : Event → Option StoredMessage
  | .frame _ .incomingMessage payload (some m) => if payload = queuedPayload m then some m else none
  | _ => none

def accepted (out : List Event) : Multiset StoredMessage := ↑(out.filterMap Event.accepted)

def written (out : List Event) : Multiset StoredMessage := ↑(out.filterMap Event.written)

def stored (w : World) : Multiset StoredMessage :=
  ∑ j ∈ Finset.range maxClients, (↑(pending (w.server.clients j)) : Multiset StoredMessage)

/-- The message is in a slot that carries its recipient's name, and
`deliver_queued_messages` for that slot would write it. -/
def Awaits (w : World) (j : ℕ) (m : StoredMessage) : Prop :=
  holds (w.server.clients j) m.recipient = true ∧ ∃ fd es,
    (w.server.clients j).socketFd = some fd ∧
    (deliverQueuedMessages { w with env := .quiet } j).2.out = w.out ++ es ∧ handover fd m ∈ es

/-- Message for message, what was accepted is still stored, where its recipient
gets it, or was written once. -/
structure Kept (w : World) : Prop where
  conserved : accepted w.out = stored w + written w.out
  awaited : ∀ j, ∀ m ∈ pending (w.server.clients j), Awaits w j m

theorem accepted_append (out es : List Event) :
    accepted (out ++ es) = accepted out + accepted es := by
  simp only [accepted, List.filterMap_append, Multiset.coe_add]

theorem written_append (out es : List Event) : written (out ++ es) = written out + written es := by
  simp only [written, List.filterMap_append, Multiset.coe_add]

theorem accepted_none {es : List Event} (h : ∀ e ∈ es, Event.entry e = none) : accepted es = 0 := by
  have hnil : es.filterMap Event.accepted = [] := by
    rw [List.filterMap_eq_nil_iff]
    intro e he
    have hentry := h e he
    cases e with
    | queued => cases hentry
    | _ => rfl
  rw [accepted, hnil]
  rfl

theorem written_none {es : List Event} (h : ∀ e ∈ es, Event.entry e = none) : written es = 0 := by
  have hnil : es.filterMap Event.written = [] := by
    rw [List.filterMap_eq_nil_iff]
    intro e he
    have hentry := h e he
    cases e with
    | frame fd type payload entry =>
      cases entry with
      | none => cases type <;> rfl
      | some => cases hentry
    | _ => rfl
  rw [written, hnil]
  rfl

theorem mem_stored {m : StoredMessage} :
    m ∈ stored w ↔ ∃ j, j < maxClients ∧ m ∈ pending (w.server.clients j) := by
  simp only [stored, Multiset.mem_sum, Finset.mem_range, Multiset.mem_coe]

theorem stored_congr (h : ∀ j, pending (w'.server.clients j) = pending (w.server.clients j)) :
    stored w' = stored w :=
  Finset.sum_congr rfl (fun j _ ↦ by rw [h j])

theorem stored_change {j : ℕ} (hj : j < maxClients)
    (hother : ∀ l, l ≠ j → pending (w'.server.clients l) = pending (w.server.clients l)) :
    stored w' + ↑(pending (w.server.clients j)) = stored w + ↑(pending (w'.server.clients j)) := by
  have hmem : j ∈ Finset.range maxClients := Finset.mem_range.mpr hj
  have hrest : ∑ l ∈ (Finset.range maxClients).erase j,
      (↑(pending (w'.server.clients l)) : Multiset StoredMessage) =
      ∑ l ∈ (Finset.range maxClients).erase j, ↑(pending (w.server.clients l)) :=
    Finset.sum_congr rfl (fun l hl ↦ by rw [hother l (Finset.ne_of_mem_erase hl)])
  rw [stored, stored, ← Finset.add_sum_erase _ _ hmem, ← Finset.add_sum_erase _ _ hmem, hrest]
  abel

theorem Sockets.slot_lt (hw : Sockets w) {j : ℕ} (hj : (w.server.clients j).authenticated = true) :
    j < maxClients := by
  obtain ⟨fd, hfd⟩ := hw.authenticated j hj
  exact (hw.socket j fd hfd).2.trans_le hw.count_le

/-- No effect loses or duplicates a message but a closing with a full queue. -/
theorem Effect.conserved (h : Effect verify g i w w') (hw : Consistent w)
    (hclose : g.close w → pending (w.server.clients i) = [])
    (hc : accepted w.out = stored w + written w.out) :
    accepted w'.out = stored w' + written w'.out := by
  have hquiet : ∀ es, w'.out = w.out ++ es → (∀ e ∈ es, Event.entry e = none) →
      (∀ j, pending (w'.server.clients j) = pending (w.server.clients j)) →
      accepted w'.out = stored w' + written w'.out := by
    intro es ho hes hp
    rw [ho, accepted_append, written_append, accepted_none hes, written_none hes, stored_congr hp,
      hc, add_zero, add_zero]
  cases Effect.pending h hw.queues with
  | same es hp ho hes => exact hquiet es ho hes hp
  | push j m _ _ hj _ _ _ _ hself hother ho =>
    have hauth : (w.server.clients j).authenticated = true := by
      simp only [holds, Bool.and_eq_true] at hj
      exact hj.1.2
    have hchange := stored_change (Sockets.slot_lt hw.sockets hauth) hother
    have hstored : stored w' = stored w + {m} := by
      rw [hself, ← Multiset.coe_add, ← add_assoc, add_right_comm] at hchange
      exact add_right_cancel hchange
    rw [ho, accepted_append, written_append, hstored, hc]
    have hone : accepted [.queued m] = {m} := rfl
    have hzero : written [.queued m] = 0 := rfl
    rw [hone, hzero]
    abel
  | deliver fd m hi _ hself hother ho =>
    have hchange := stored_change (Sockets.slot_lt hw.sockets hi) hother
    have hstored : stored w = stored w' + {m} := by
      rw [hself, ← Multiset.cons_coe, ← Multiset.singleton_add, ← add_assoc] at hchange
      exact (add_right_cancel hchange).symm
    have hone : written [.frame fd .incomingMessage (queuedPayload m) (some m)] = {m} := by
      simp [written, Event.written]
    have hzero : accepted [.frame fd .incomingMessage (queuedPayload m) (some m)] = 0 := rfl
    rw [ho, accepted_append, written_append, hone, hzero, hc, hstored]
    abel
  | close hg hself hother ho =>
    refine hquiet _ ho (closedEvents_entry _) (fun j ↦ ?_)
    by_cases hj : j = i
    · rw [hj, hself, hclose hg]
    · exact hother j hj

theorem Accepted.conserved {challenge : Challenge} {created : Bool}
    (h : Accepted w challenge created w') (hs : Sound w)
    (hc : accepted w.out = stored w + written w.out) :
    accepted w'.out = stored w' + written w'.out := by
  have hstored : stored w' = stored w := by
    refine stored_congr (fun j ↦ ?_)
    cases h with
    | full hsame => rw [hsame]
    | slot k es _ hfree hself hother =>
      by_cases hj : j = k
      · subst hj
        have hnil : pending (w.server.clients j) = [] := by
          by_contra hne
          rw [hs.settled j (hs.queues.holder j hne)] at hfree
          cases hfree
        rw [hself, hnil]
        rfl
      · rw [hother j hj]
  obtain ho | ho := Accepted.out h
  · rw [ho, hstored, hc]
  · have hentry : ∀ e ∈ [Event.closed w.nextFd], Event.entry e = none := by simp [Event.entry]
    rw [ho, hstored, accepted_append, written_append, accepted_none hentry, written_none hentry, hc,
      add_zero, add_zero]

theorem Consistent.awaits (hw : Consistent w) {j : ℕ} {m : StoredMessage}
    (hm : m ∈ pending (w.server.clients j)) (hj : holds (w.server.clients j) m.recipient = true) :
    Awaits w j m := by
  have hauth := hw.queues.holder j (List.ne_nil_of_mem hm)
  obtain ⟨fd, hfd⟩ := hw.sockets.authenticated j hauth
  have hquiet : Effect (fun _ _ _ ↦ true) .any j w { w with env := .quiet } :=
    .silent ⟨rfl, rfl, rfl⟩
  have hdrains := (deliverQueuedMessages_drains (i := j) (w := { w with env := .quiet })
    (Effect.consistent hquiet hw) hauth hfd (by decide : Env.quiet.Faultless)).2
  exact ⟨hj, fd, _, hfd, hdrains, List.mem_map_of_mem hm⟩

theorem Steady.awaits (hs : Steady w) {j : ℕ} {m : StoredMessage}
    (hm : m ∈ pending (w.server.clients j)) (hname : (w.server.clients j).username = m.recipient) :
    Awaits w j m := by
  have hauth := hs.sound.queues.holder j (List.ne_nil_of_mem hm)
  have hconn := hs.sound.settled j hauth
  exact Consistent.awaits hs.consistent hm (by simp [holds, hauth, hconn, hname])

/-- No connection ends on a full queue, and no login puts another name over one,
unless that request meets no failure. -/
def Retains (verify : Signature → Challenge → Key → Bool) (w : World) : Input → Prop
  | .accept _ _ => True
  | .receive i stream env => (w.server.clients i).connected = true →
      (Ends w i stream env → pending (w.server.clients i) = []) ∧
      ∀ name, AcceptsLogin verify w i stream env name →
        name = (w.server.clients i).username ∨ pending (w.server.clients i) = [] ∨ env.Faultless

instance (verify : Signature → Challenge → Key → Bool) (w : World) :
    (x : Input) → Decidable (Retains verify w x)
  | .accept _ _ => isTrue trivial
  | .receive i stream env =>
    have : Decidable (∀ name, AcceptsLogin verify w i stream env name →
        name = (w.server.clients i).username ∨ pending (w.server.clients i) = [] ∨ env.Faultless) :=
      decidable_of_iff' _ acceptsLogin_forall
    inferInstanceAs (Decidable ((w.server.clients i).connected = true → _))

theorem step_named {x : Input} (hs : Steady w)
    (hw : ∀ j, ∀ m ∈ pending (w.server.clients j), (w.server.clients j).username = m.recipient)
    (hx : Retains verify w x) (j : ℕ) :
    ∀ m ∈ pending ((step verify w x).server.clients j),
      ((step verify w x).server.clients j).username = m.recipient := by
  cases @step_turn verify w hs.sound x with
  | accept _ _ _ h =>
    cases h with
    | full hsame =>
      rw [hsame]
      exact hw j
    | slot k _ _ _ hself hother =>
      intro m hm
      by_cases hj : j = k
      · rw [hj, hself] at hm
        cases hm
      · rw [hother j hj] at hm ⊢
        exact hw j m hm
  | idle _ _ _ _ _ h => rw [h]; exact hw j
  | handled i stream env fd hin hconn hfd hchain _ =>
    subst hin
    obtain ⟨_, hname⟩ := hx hconn
    have hcarry : (j = i → ∀ name, AcceptsLogin verify w i stream env name →
        name = (w.server.clients i).username ∨ pending (w.server.clients i) = []) →
        ∀ m ∈ pending ((step verify w (.receive i stream env)).server.clients j),
          ((step verify w (.receive i stream env)).server.clients j).username = m.recipient := by
      intro hlogin
      refine (Chain.carry (P := fun v ↦ ∀ m ∈ pending (v.server.clients j),
        (v.server.clients j).username = m.recipient) (fun v v' he hv hj ↦ ?_) hchain
        hs.consistent (hw j)).2
      refine Effect.named he hv.queues (fun hji name hg ↦ ?_) hj
      rw [hg.2.identity.username, pending, hg.2.queue]
      exact hlogin hji name hg.1
    by_cases hkeep : j = i → ∀ name, AcceptsLogin verify w i stream env name →
        name = (w.server.clients i).username ∨ pending (w.server.clients i) = []
    · exact hcarry hkeep
    · simp only [not_forall, not_or] at hkeep
      obtain ⟨rfl, name, hlogin, hne, hfull⟩ := hkeep
      have hfaultless := ((hname name hlogin).resolve_left hne).resolve_left hfull
      obtain ⟨v, response, hturn, hv, hfd', hauth, _, _, henv⟩ :=
        login_turn hfd hconn hs.sound.sockets.running hlogin
      have hv' := Chain.consistent hv hs.consistent
      have hempty : pending ((step verify w (.receive j stream env)).server.clients j) = [] := by
        rw [step_receive stream env hconn, hturn, reply, sendNetworkMessage_server]
        exact (deliverQueuedMessages_drains hv' hauth hfd' (henv hfaultless)).1
      rw [hempty]
      intro m hm
      cases hm

theorem step_kept {x : Input} (hs : Steady w) (hk : Kept w) (hx : Retains verify w x) :
    Kept (step verify w x) := by
  have hnamed : ∀ j, ∀ m ∈ pending (w.server.clients j),
      (w.server.clients j).username = m.recipient := by
    intro j m hm
    have hholds := (hk.awaited j m hm).1
    simp only [holds, Bool.and_eq_true, decide_eq_true_eq] at hholds
    exact hholds.2
  refine ⟨?_, fun j m hm ↦ Steady.awaits (step_steady hs x) hm (step_named hs hnamed hx j m hm)⟩
  cases @step_turn verify w hs.sound x with
  | accept _ _ _ h => exact Accepted.conserved h hs.sound hk.conserved
  | idle _ _ _ _ _ h => rw [h]; exact hk.conserved
  | handled i stream env fd hin hconn _ hchain _ =>
    subst hin
    refine (Chain.carry (P := fun v ↦ accepted v.out = stored v + written v.out)
      (fun v v' he hv hc ↦ Effect.conserved he hv (fun hg ↦ ?_) hc) hchain hs.consistent
      hk.conserved).2
    rw [pending, hg.2]
    exact (hx hconn).1 hg.1

theorem kept_initial : Kept World.initial := by
  refine ⟨?_, ?_⟩
  · have hstored : stored World.initial = 0 := Finset.sum_eq_zero (fun j _ ↦ rfl)
    rw [hstored]
    rfl
  · intro j m hm
    cases hm

/-- In a run that never drops a full queue, an accepted message is at all times
stored for its recipient or written, and exactly one of the two. -/
theorem queue_kept (verify : Signature → Challenge → Key → Bool) (xs : List Input)
    (h : Runs.Along (step verify) (Retains verify) World.initial xs) :
    Runs.Always (step verify) Kept World.initial xs := by
  have hboth : Runs.Always (step verify) (fun v ↦ Steady v ∧ Kept v) World.initial xs :=
    Runs.Along.always (fun v x hv hx ↦ ⟨step_steady hv.1 x, step_kept hv.1 hv.2 hx⟩)
      ⟨steady_initial, kept_initial⟩ h
  exact hboth.mono (fun v hv ↦ hv.2)

def deliveredRun : List Input :=
  [.accept (Block.zero _) true, .accept (Block.zero _) true,
    .receive 0 (registerPacket (text "alice") (List.replicate 32 1)) .quiet,
    .receive 1 (registerPacket (text "bob") (List.replicate 32 2)) .quiet,
    .receive 0 (loginPacket (text "alice") (List.replicate 64 0)) .quiet,
    .receive 1 (loginPacket (text "bob") (List.replicate 64 0)) .quiet,
    .receive 0 (sendPacket (text "bob") [1, 2]) ⟨[], [none, some 3], []⟩,
    .receive 1 (packet 0x05 []) .quiet, .receive 1 (packet 0x08 []) .quiet]

theorem deliveredRun_kept :
    Runs.Always (step fun _ _ _ ↦ true) Kept World.initial deliveredRun :=
  queue_kept _ deliveredRun (by decide +kernel)

theorem Kept.found (hs : Steady w) (hk : Kept w) {e : Event} {m : StoredMessage} (he : e ∈ w.out)
    (hm : Event.accepted e = some m) :
    (∃ j < w.server.clientCount, m ∈ pending (w.server.clients j)) ∨
      ∃ e ∈ w.out, Event.written e = some m := by
  have hmem : m ∈ accepted w.out := by
    rw [accepted, Multiset.mem_coe]
    exact List.mem_filterMap.mpr ⟨e, he, hm⟩
  rw [hk.conserved, Multiset.mem_add, mem_stored] at hmem
  obtain ⟨j, _, hpend⟩ | hwritten := hmem
  · obtain ⟨fd, hfd⟩ := hs.sound.sockets.authenticated j
      (hs.sound.queues.holder j (List.ne_nil_of_mem hpend))
    exact .inl ⟨j, (hs.sound.sockets.socket j fd hfd).2, hpend⟩
  · obtain ⟨e', he', hm'⟩ := List.mem_filterMap.mp (Multiset.mem_coe.mp hwritten)
    exact .inr ⟨e', he', hm'⟩

def lostRun : List Input := deliveredRun.take 7 ++ [.receive 1 [] .quiet]

theorem lostRun_loses : ¬ Runs.Always (step fun _ _ _ ↦ true) Kept World.initial lostRun := by
  intro h
  have hlast := Runs.Always.last h
  have hsteady := @reach_steady (fun _ _ _ ↦ true) lostRun
  rw [← reach] at hlast
  have hqueued : (reach (fun _ _ _ ↦ true) lostRun).out.any
      (fun e ↦ (Event.accepted e).isSome) = true := by decide +kernel
  have hempty : ∀ j < (reach (fun _ _ _ ↦ true) lostRun).server.clientCount,
      pending ((reach (fun _ _ _ ↦ true) lostRun).server.clients j) = [] := by decide +kernel
  have hunwritten : ∀ e ∈ (reach (fun _ _ _ ↦ true) lostRun).out, Event.written e = none := by
    decide +kernel
  generalize reach (fun _ _ _ ↦ true) lostRun = w at hlast hsteady hqueued hempty hunwritten
  obtain ⟨e, he, hsome⟩ := List.any_eq_true.mp hqueued
  obtain ⟨m, hm⟩ := Option.isSome_iff_exists.mp hsome
  obtain ⟨j, hj, hpend⟩ | ⟨e', he', hwritten⟩ := hlast.found hsteady he hm
  · rw [hempty j hj] at hpend
    cases hpend
  · rw [hunwritten e' he'] at hwritten
    cases hwritten

end CChat.Server.Conservation
