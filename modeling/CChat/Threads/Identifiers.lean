import CChat.Library.Counter
import CChat.Threads.Messages

namespace CChat.Threads.Identifiers

open CChat.Library CChat.Library.Circular CChat.Library.Counter CChat.Protocol.Types CChat.Protocol.Wire
  CChat.Server.State CChat.Server.Queue CChat.Server.Handlers Machine Sections Messages
open CChat.Server.Invariants hiding Turn step_turn

variable {verify : Signature → Challenge → Key → Bool} {w w' : World} {i : ℕ} {c : Control}
  {es : List Event} {r : ℕ}

def Control.isDrawing : Control → Bool
  | .drawing _ _ => true
  | _ => false

/-- A run of the server with the number of the request each handler is at, that
is the number of the input that brought it. The history is kept with the
numbers of the requests it was written for, and for every message id that was
drawn it is kept for which request, and whether `handle_send_message` itself
drew it. -/
structure Trace where
  pool : Pool
  clock : ℕ
  request : Fd → ℕ
  notes : List (ℕ × Event)
  drawn : List (ℕ × Bool)

def Trace.initial : Trace := ⟨Pool.initial, 0, fun _ ↦ 0, [], []⟩

def takesUp (m : Pool) (h : Fd) : Input → Bool
  | .receive h' _ =>
    decide (h' = h) && (m.handlers h).any (fun handler ↦ decide (handler.control = .reading))
  | _ => false

def Trace.requests (t : Trace) (x : Input) (h : Fd) : ℕ :=
  if takesUp t.pool h x then t.clock + 1 else t.request h

def Trace.number (t : Trace) : Input → ℕ
  | .receive _ _ => t.clock + 1
  | .go h => t.request h
  | _ => 0

def drawnBy (w w' : World) (p : ℕ × Bool) (drawn : List (ℕ × Bool)) : List (ℕ × Bool) :=
  if w'.server.nextMessageId = w.server.nextMessageId then drawn else drawn ++ [p]

variable (verify) in
def observe (t : Trace) (x : Input) : Trace :=
  let m := step verify t.pool x
  { pool := m
    clock := t.clock + 1
    request := t.requests x
    notes := t.notes ++
      (m.world.out.drop t.pool.world.out.length).map (fun e ↦ (t.number x, e))
    drawn := drawnBy t.pool.world m.world (t.number x, Control.isDrawing (stepping t.pool x))
      t.drawn }

variable (verify) in
def watch (xs : List Input) : Trace := Runs.run (observe verify) Trace.initial xs

def messageId (payload : Bytes) : ℕ := BigEndian.value (payload.take 4)

def ackStatus (payload : Bytes) : UInt8 := (payload.drop 4).headD 0

/-- A message that was noted for request `n` belongs to request `r`: that is
the one it was sent for, or the one its entry was stored for. -/
def About (notes : List (ℕ × Event)) (n : ℕ) (entry : Option StoredMessage) (r : ℕ) : Prop :=
  match entry with
  | none => n = r
  | some m => (r, .queued m) ∈ notes

/-- Message ids identify messages. -/
structure Identified (notes : List (ℕ × Event)) : Prop where
  correlated : ∀ r fd ack e n fd' payload entry, (r, .frame fd .messageAck ack e) ∈ notes →
    ackStatus ack = 1 ∨ ackStatus ack = 2 →
    (n, .frame fd' .incomingMessage payload entry) ∈ notes →
    (messageId ack = messageId payload ↔ About notes n entry r)
  distinct : ∀ r fd ack e r' fd' ack' e', (r, .frame fd .messageAck ack e) ∈ notes →
    (r', .frame fd' .messageAck ack' e') ∈ notes → messageId ack = messageId ack' → r = r'

/-- No message that was acknowledged as sent or stored came out of a queue. -/
def Uncrossed (notes : List (ℕ × Event)) : Prop :=
  ∀ r fd ack e n fd' payload m, (r, .frame fd .messageAck ack e) ∈ notes →
    ackStatus ack = 1 ∨ ackStatus ack = 2 →
    (n, .frame fd' .incomingMessage payload (some m)) ∈ notes → (r, .queued m) ∉ notes

theorem messageId_bytes (id : UInt32) (bs : Bytes) :
    messageId (BigEndian.bytes 4 id.toNat ++ bs) = id.toNat := by
  have hlt : id.toNat < 256 ^ 4 := id.toNat_lt
  rw [messageId, List.take_left' (BigEndian.bytes_length 4 _), BigEndian.value_bytes_of_lt hlt]

theorem drawnBy_append (w w' : World) (p : ℕ × Bool) (drawn : List (ℕ × Bool)) :
    drawnBy w w' p drawn = drawn ∨ drawnBy w w' p drawn = drawn ++ [p] := by
  unfold drawnBy
  split
  · exact .inl rfl
  · exact .inr rfl

theorem drawnBy_drawn {p q : ℕ × Bool} {drawn : List (ℕ × Bool)} {id : UInt32}
    (h : Drawn drawn q id) : Drawn (drawnBy w w' p drawn) q id := by
  obtain hsame | happend := drawnBy_append w w' p drawn
  · rwa [hsame]
  · rw [happend]
    exact h.append [p]

theorem succ_ne (id : UInt32) : id + 1 ≠ id := by
  intro h
  have hnat := congrArg UInt32.toNat h
  have hlt := id.toNat_lt
  simp only [UInt32.toNat_add, UInt32.reduceToNat] at hnat
  omega

def Meant (notes : List (ℕ × Event)) (drawn : List (ℕ × Bool)) (r : ℕ) : Event → Prop
  | .frame _ .messageAck payload _ =>
    ∃ id status, payload = ackPayload id status ∧ Drawn drawn (r, true) id
  | .frame _ .incomingMessage payload none =>
    ∃ id, messageId payload = id.toNat ∧ Drawn drawn (r, true) id
  | .frame _ .incomingMessage payload (some m) =>
    payload = queuedPayload m ∧ ∃ r', (r', .queued m) ∈ notes
  | .queued m => Drawn drawn (r, false) m.messageId
  | _ => True

def Holds (drawn : List (ℕ × Bool)) (r : ℕ) : Control → Prop
  | .seekingRecipient _ _ => r ≠ 0 ∧ (r, true) ∉ drawn
  | .drawing _ _ => r ≠ 0 ∧ (r, true) ∉ drawn
  | .locating id _ _ => Drawn drawn (r, true) id
  | .sending id _ _ _ => Drawn drawn (r, true) id
  | .queueing id _ _ => Drawn drawn (r, true) id
  | .storing id _ _ _ => Drawn drawn (r, true) id
  | .replying .messageAck payload =>
    ∃ id status, payload = ackPayload id status ∧ Drawn drawn (r, true) id
  | .replying .incomingMessage _ => False
  | _ => True

theorem Meant.mono {notes : List (ℕ × Event)} {drawn : List (ℕ × Bool)} {e : Event}
    {p : ℕ × Bool} (h : Meant notes drawn r e) (more : List (ℕ × Event)) :
    Meant (notes ++ more) (drawnBy w w' p drawn) r e := by
  cases e with
  | frame fd type payload entry =>
    cases type with
    | messageAck =>
      obtain ⟨id, status, hpayload, hid⟩ := h
      exact ⟨id, status, hpayload, drawnBy_drawn hid⟩
    | incomingMessage =>
      cases entry with
      | none =>
        obtain ⟨id, hpayload, hid⟩ := h
        exact ⟨id, hpayload, drawnBy_drawn hid⟩
      | some m =>
        obtain ⟨hpayload, r', hr'⟩ := h
        exact ⟨hpayload, r', List.mem_append_left _ hr'⟩
    | _ => trivial
  | queued m => exact drawnBy_drawn h
  | _ => trivial

theorem Holds.keep {drawn : List (ℕ × Bool)} {p : ℕ × Bool} (h : Holds drawn r c)
    (hp : r ≠ 0 → p ≠ (r, true)) : Holds (drawnBy w w' p drawn) r c := by
  have hfresh : r ≠ 0 ∧ (r, true) ∉ drawn →
      r ≠ 0 ∧ (r, true) ∉ drawnBy w w' p drawn := by
    rintro ⟨hr, hnone⟩
    refine ⟨hr, fun hmem ↦ ?_⟩
    obtain hsame | happend := drawnBy_append w w' p drawn
    · exact hnone (hsame ▸ hmem)
    · rw [happend, List.mem_append, List.mem_singleton] at hmem
      exact hmem.elim hnone (fun heq ↦ hp hr heq.symm)
  cases c with
  | seekingRecipient recipient data => exact hfresh h
  | drawing recipient data => exact hfresh h
  | locating id recipient data => exact drawnBy_drawn h
  | sending id recipient data j => exact drawnBy_drawn h
  | queueing id recipient data => exact drawnBy_drawn h
  | storing id recipient data j => exact drawnBy_drawn h
  | replying type payload =>
    cases type with
    | messageAck =>
      obtain ⟨id, status, hpayload, hid⟩ := h
      exact ⟨id, status, hpayload, drawnBy_drawn hid⟩
    | incomingMessage => exact h
    | _ => trivial
  | _ => trivial

structure Ledger (w : World) (notes : List (ℕ × Event)) (drawn : List (ℕ × Bool)) : Prop where
  nextMessageId : w.server.nextMessageId = ticket drawn.length
  rings : Rings w
  once : Once (fun p : ℕ × Bool ↦ p.2 = true) drawn
  meant : ∀ p ∈ notes, Meant notes drawn p.1 p.2
  pending : ∀ j, ∀ m ∈ CChat.Server.Invariants.pending (w.server.clients j),
    ∃ r, (r, .queued m) ∈ notes

theorem Told.meant {notes more : List (ℕ × Event)} {drawn : List (ℕ × Bool)} {e : Event}
    (h : Told w i c w' e) (hw : Ledger w notes drawn) (hc : Holds drawn r c) :
    Meant (notes ++ more) (drawnBy w w' (r, Control.isDrawing c) drawn) r e := by
  cases h with
  | other e he =>
    cases e with
    | frame fd type payload entry => cases type <;> trivial
    | queued m => cases he
    | _ => trivial
  | reply fd type payload heq =>
    subst heq
    cases type with
    | messageAck =>
      obtain ⟨id, status, hpayload, hid⟩ := hc
      exact ⟨id, status, hpayload, drawnBy_drawn hid⟩
    | incomingMessage => exact hc.elim
    | _ => trivial
  | direct fd id recipient sender now data j heq =>
    subst heq
    exact ⟨id, messageId_bytes id _, drawnBy_drawn hc⟩
  | queued m heq hid hnext =>
    obtain ⟨id, recipient, data, j, rfl⟩ := heq
    have hne : w'.server.nextMessageId ≠ w.server.nextMessageId := hnext ▸ succ_ne _
    rw [Meant, drawnBy, if_neg hne, hid, hw.nextMessageId]
    exact drawn_last drawn (r, false)
  | fetched fd m _ hm =>
    obtain ⟨r', hr'⟩ := hw.pending i m hm
    exact ⟨rfl, r', List.mem_append_left _ hr'⟩
  | _ => trivial

theorem Handled.ledger {notes : List (ℕ × Event)} {drawn : List (ℕ × Bool)}
    (h : Handled w i c es w') (hw : Ledger w notes drawn) (hc : Holds drawn r c) :
    Ledger w' (notes ++ es.map (fun e ↦ (r, e)))
      (drawnBy w w' (r, Control.isDrawing c) drawn) := by
  refine ⟨?_, h.rings, ?_, ?_, ?_⟩
  · obtain hsame | hnext := h.nextMessageId
    · rw [drawnBy, if_pos hsame, hsame, hw.nextMessageId]
    · have hne : w'.server.nextMessageId ≠ w.server.nextMessageId := hnext ▸ succ_ne _
      rw [drawnBy, if_neg hne, hnext, hw.nextMessageId, List.length_append, List.length_singleton,
        ticket_succ]
  · obtain hsame | happend := drawnBy_append w w' (r, Control.isDrawing c) drawn
    · rw [hsame]
      exact hw.once
    · rw [happend]
      refine hw.once.append (fun hdrawing ↦ ?_)
      cases c with
      | drawing recipient data => exact hc.2
      | _ => cases hdrawing
  · intro p hp
    obtain hp | hp := List.mem_append.mp hp
    · exact (hw.meant p hp).mono _
    · obtain ⟨e, he, rfl⟩ := List.mem_map.mp hp
      exact Told.meant (h.told e he) hw hc
  · intro j m hm
    obtain hold | hnew := h.pending j m hm
    · obtain ⟨r', hr'⟩ := hw.pending j m hold
      exact ⟨r', List.mem_append_left _ hr'⟩
    · exact ⟨r, List.mem_append_right _ (List.mem_map_of_mem hnew)⟩

theorem proceed_holds {drawn : List (ℕ × Bool)}
    (hnext : w.server.nextMessageId = ticket drawn.length) (hc : Holds drawn r c) :
    Holds (drawnBy w (proceed verify w i c).1 (r, Control.isDrawing c) drawn) r
      (proceed verify w i c).2 := by
  cases c with
  | replying type payload => trivial
  | seekingRecipient recipient data =>
    have hkeep : Holds (drawnBy w w (r, false) drawn) r (.drawing recipient data) :=
      Holds.keep hc (fun _ h ↦ by cases h)
    simp only [proceed]
    split
    · trivial
    · exact hkeep
  | drawing recipient data =>
    have hne : (drawMessageId w).2.server.nextMessageId ≠ w.server.nextMessageId := succ_ne _
    simp only [proceed]
    rw [Holds, drawnBy, if_neg hne, drawMessageId, hnext]
    exact drawn_last drawn (r, true)
  | locating id recipient data =>
    simp only [proceed]
    split
    · exact drawnBy_drawn hc
    · exact drawnBy_drawn hc
  | sending id recipient data j =>
    simp only [proceed]
    split
    · exact ⟨id, 0, rfl, drawnBy_drawn hc⟩
    · split
      · exact ⟨id, 1, rfl, drawnBy_drawn hc⟩
      · exact drawnBy_drawn hc
  | queueing id recipient data =>
    simp only [proceed]
    split
    · exact ⟨id, 2, rfl, drawnBy_drawn hc⟩
    · split
      · exact ⟨id, 2, rfl, drawnBy_drawn hc⟩
      · exact drawnBy_drawn hc
  | storing id recipient data j => exact ⟨id, 2, rfl, drawnBy_drawn hc⟩
  | announcing username status after =>
    simp only [proceed]
    split
    · cases after <;> trivial
    · trivial
  | sweeping username status j after =>
    simp only [proceed]
    split
    · split <;> trivial
    · cases after <;> trivial
  | _ =>
    simp only [proceed]
    repeat' split
    all_goals trivial

theorem route_holds {drawn : List (ℕ × Bool)} (hr : r ≠ 0) (hnone : (r, true) ∉ drawn)
    (authenticated : Bool) (type : UInt8) (payload : Bytes) :
    Holds drawn r (route authenticated type payload) :=
  route_of (P := Holds drawn r) _ _ _ (fun _ ↦ trivial) (fun _ _ ↦ trivial) (fun _ _ ↦ trivial)
    (fun _ ↦ trivial) (fun _ _ ↦ ⟨hr, hnone⟩) trivial (fun _ ↦ trivial) (fun _ ↦ trivial) trivial

theorem Ledger.identified_iff {notes : List (ℕ × Event)} {drawn : List (ℕ × Bool)}
    (hw : Ledger w notes drawn) (hfew : drawn.length < 2 ^ 32) :
    Identified notes ↔ Uncrossed notes := by
  have hack : ∀ {r fd ack e}, (r, Event.frame fd .messageAck ack e) ∈ notes →
      ∃ id, messageId ack = id.toNat ∧ Drawn drawn (r, true) id := by
    intro r fd ack e h
    obtain ⟨id, status, rfl, hid⟩ := hw.meant _ h
    exact ⟨id, messageId_bytes id _, hid⟩
  have hcopy : ∀ {n fd payload m}, (n, Event.frame fd .incomingMessage payload (some m)) ∈ notes →
      messageId payload = m.messageId.toNat ∧
        ∀ r, Drawn drawn (r, true) m.messageId → False := by
    intro n fd payload m h
    obtain ⟨rfl, r', hr'⟩ := hw.meant _ h
    refine ⟨messageId_bytes _ _, fun r hr ↦ ?_⟩
    cases hr.owner (hw.meant _ hr') hfew
  constructor
  · intro h r fd ack e n fd' payload m ha hs hm hq
    obtain ⟨id, hid, hdrawn⟩ := hack ha
    obtain ⟨hpayload, hnone⟩ := hcopy hm
    have hsame := (h.correlated r fd ack e n fd' payload (some m) ha hs hm).mpr hq
    rw [hid, hpayload] at hsame
    exact hnone r (UInt32.toNat_inj.mp hsame ▸ hdrawn)
  · intro h
    refine ⟨fun r fd ack e n fd' payload entry ha hs hm ↦ ?_,
      fun r fd ack e r' fd' ack' e' ha ha' hsame ↦ ?_⟩
    · obtain ⟨id, hid, hdrawn⟩ := hack ha
      cases entry with
      | none =>
        obtain ⟨id', hid', hdrawn'⟩ := hw.meant _ hm
        rw [hid, hid', About]
        constructor
        · intro hsame
          have howner := hdrawn'.owner (UInt32.toNat_inj.mp hsame ▸ hdrawn) hfew
          exact (Prod.mk.inj howner).1
        · rintro rfl
          rw [hdrawn.value hdrawn' hw.once rfl]
      | some m =>
        obtain ⟨hpayload, hnone⟩ := hcopy hm
        rw [hid, hpayload]
        constructor
        · intro hsame
          exact (hnone r (UInt32.toNat_inj.mp hsame ▸ hdrawn)).elim
        · intro hq
          exact absurd hq (h r fd ack e n fd' payload m ha hs hm)
    · obtain ⟨id, hid, hdrawn⟩ := hack ha
      obtain ⟨id', hid', hdrawn'⟩ := hack ha'
      rw [hid, hid'] at hsame
      have howner := hdrawn.owner (UInt32.toNat_inj.mp hsame ▸ hdrawn') hfew
      exact (Prod.mk.inj howner).1

/-- What holds of every run: the draws account for the history, no two handlers
are at one request, and each knows its own id. -/
structure Numbered (t : Trace) : Prop where
  ledger : Ledger t.pool.world t.notes t.drawn
  clock : ∀ h, t.request h ≤ t.clock
  apart : ∀ h h', t.request h = t.request h' → t.request h ≠ 0 → h = h'
  drawn : ∀ p ∈ t.drawn, p.1 ≤ t.clock
  holds : ∀ h handler, t.pool.handlers h = some handler →
    Holds t.drawn (t.request h) handler.control

theorem initial_numbered : Numbered Trace.initial := by
  refine ⟨⟨rfl, fun j ↦ zero_wellFormed (by decide) _, once_nil _, by simp [Trace.initial], ?_⟩,
    fun h ↦ Nat.le_refl 0, fun h h' _ hne ↦ absurd rfl hne, by simp [Trace.initial],
    fun h handler hh ↦ by cases hh⟩
  intro j m hm
  cases hm

theorem takesUp_receive {m : Pool} {h : Fd} {x : Input} (hx : takesUp m h x = true) :
    (∃ stream, x = .receive h stream) ∧
      ∀ handler, m.handlers h = some handler → handler.control = .reading := by
  cases x with
  | receive h' stream =>
    simp only [takesUp, Bool.and_eq_true, decide_eq_true_eq] at hx
    obtain ⟨rfl, hreading⟩ := hx
    refine ⟨⟨stream, rfl⟩, fun handler hh ↦ ?_⟩
    simpa [hh] using hreading
  | _ => cases hx

theorem Trace.requests_cases (t : Trace) (x : Input) (h : Fd) :
    t.requests x h = t.request h ∨ t.requests x h = t.clock + 1 ∧ (∃ stream, x = .receive h stream) ∧
      ∀ handler, t.pool.handlers h = some handler → handler.control = .reading := by
  unfold Trace.requests
  split
  next htakes => exact .inr ⟨rfl, takesUp_receive htakes⟩
  · exact .inl rfl

theorem Trace.requests_apart {t : Trace} (ht : Numbered t) (x : Input) (h h' : Fd)
    (hsame : t.requests x h = t.requests x h') (hne : t.requests x h ≠ 0) : h = h' := by
  have hclock := ht.clock h
  have hclock' := ht.clock h'
  obtain hold | ⟨hnew, ⟨stream, rfl⟩, _⟩ := t.requests_cases x h
  · obtain hold' | ⟨hnew', _⟩ := t.requests_cases x h'
    · exact ht.apart h h' (by omega) (by omega)
    · omega
  · obtain hold' | ⟨_, ⟨stream', heq⟩, _⟩ := t.requests_cases (.receive h stream) h'
    · omega
    · cases heq
      rfl

theorem stepping_holds {t : Trace} (ht : Numbered t) (x : Input) :
    Holds t.drawn (t.number x) (stepping t.pool x) := by
  cases x with
  | go h =>
    rw [stepping, Trace.number]
    cases hh : t.pool.handlers h with
    | none => trivial
    | some handler => exact ht.holds h handler hh
  | _ => trivial

theorem observe_ledger {t : Trace} (ht : Numbered t) (x : Input) :
    Ledger (observe verify t x).pool.world (observe verify t x).notes
      (observe verify t x).drawn := by
  obtain ⟨i, es, hes⟩ := @step_handled verify t.pool ht.ledger.rings x
  have hdrop : (step verify t.pool x).world.out.drop t.pool.world.out.length = es := by
    rw [hes.out, List.drop_left]
  rw [observe]
  dsimp only
  rw [hdrop]
  exact Handled.ledger hes ht.ledger (stepping_holds ht x)

/-- A handler that takes no step knows after it what it knew before. -/
theorem observe_keeps {t : Trace} (ht : Numbered t) {x : Input} {h : Fd} {handler : Handler}
    (hh : t.pool.handlers h = some handler) (hx : x ≠ .go h) :
    Holds (observe verify t x).drawn ((observe verify t x).request h) handler.control := by
  obtain hsame | ⟨_, _, hreading⟩ := t.requests_cases x h
  · have hrequest : (observe verify t x).request h = t.request h := hsame
    rw [hrequest]
    refine Holds.keep (ht.holds h handler hh) (fun hne heq ↦ ?_)
    obtain ⟨hnumber, hdrawing⟩ := Prod.mk.inj heq
    cases x with
    | go h' =>
      have hnumber' : t.request h' = t.request h := hnumber
      exact hx (congrArg Input.go (ht.apart h' h hnumber' (hnumber' ▸ hne)))
    | _ => cases hdrawing
  · rw [hreading handler hh]
    trivial

theorem observe_holds {t : Trace} (ht : Numbered t) (x : Input) :
    ∀ h handler, (observe verify t x).pool.handlers h = some handler →
      Holds (observe verify t x).drawn ((observe verify t x).request h) handler.control := by
  refine Turn.handlers (@step_turn verify t.pool x)
    (P := fun h handler ↦ t.pool.handlers h = some handler)
    (Q := fun h handler ↦
      Holds (observe verify t x).drawn ((observe verify t x).request h) handler.control)
    (fun hm h handler hh ↦ ?_) (fun h handler hh hx _ ↦ observe_keeps ht hh hx)
    (fun _ _ ↦ trivial) (fun h i stream hx hh hm _ ↦ ?_) (fun h i c hx hh hm _ ↦ ?_)
    (fun _ _ hh ↦ hh)
  · have hdrawn : (observe verify t x).drawn = t.drawn := by
      rw [observe, hm]
      exact if_pos rfl
    obtain hsame | ⟨_, _, hreading⟩ := t.requests_cases x h
    · have hrequest : (observe verify t x).request h = t.request h := hsame
      rw [hdrawn, hrequest]
      exact ht.holds h handler hh
    · rw [hreading handler hh]
      trivial
  · have hrequest : (observe verify t x).request h = t.clock + 1 := by
      simp [observe, Trace.requests, hx, takesUp, hh]
    have hnew : (t.clock + 1, true) ∉ t.drawn := fun hmem ↦ by
      have := ht.drawn _ hmem
      omega
    rw [hrequest]
    refine Holds.keep ?_ (fun _ heq ↦ ?_)
    · unfold receiveRequest
      dsimp only
      split
      · trivial
      · exact route_holds (by omega) hnew _ _ _
    · rw [hx] at heq
      cases heq
  · have hrequest : (observe verify t x).request h = t.request h := by
      simp [observe, Trace.requests, hx, takesUp]
    have hdrawn : (observe verify t x).drawn = drawnBy t.pool.world
        (proceed verify t.pool.world i c).1 (t.request h, Control.isDrawing c) t.drawn := by
      rw [observe, hm, hx, Trace.number, stepping, hh]
      rfl
    rw [hrequest, hdrawn]
    exact proceed_holds ht.ledger.nextMessageId (ht.holds h _ hh)

theorem observe_numbered {t : Trace} (ht : Numbered t) (x : Input) :
    Numbered (observe verify t x) := by
  refine ⟨observe_ledger ht x, fun h ↦ ?_, fun h h' ↦ Trace.requests_apart ht x h h', ?_,
    observe_holds ht x⟩
  · have hclock := ht.clock h
    have hnow : (observe verify t x).clock = t.clock + 1 := rfl
    obtain hsame | ⟨hnew, _⟩ := t.requests_cases x h
    · have hrequest : (observe verify t x).request h = t.request h := hsame
      omega
    · have hrequest : (observe verify t x).request h = t.clock + 1 := hnew
      omega
  · have hnumber : t.number x ≤ t.clock + 1 := by
      cases x with
      | receive h stream => exact Nat.le_refl _
      | go h => exact Nat.le_succ_of_le (ht.clock h)
      | _ => exact Nat.zero_le _
    intro p hp
    obtain hsame | happend := drawnBy_append t.pool.world (step verify t.pool x).world
      (t.number x, Control.isDrawing (stepping t.pool x)) t.drawn
    · have hold : p ∈ t.drawn := hsame ▸ hp
      exact Nat.le_succ_of_le (ht.drawn p hold)
    · have hmem : p ∈ t.drawn ++ [(t.number x, Control.isDrawing (stepping t.pool x))] :=
        happend ▸ hp
      obtain hold | hlast := List.mem_append.mp hmem
      · exact Nat.le_succ_of_le (ht.drawn p hold)
      · rw [List.mem_singleton.mp hlast]
        exact hnumber

theorem watch_numbered (xs : List Input) : Numbered (watch verify xs) :=
  Runs.run_invariant (Q := Numbered) (fun _ x ht ↦ observe_numbered ht x) initial_numbered xs

theorem watch_reach (xs : List Input) : (watch verify xs).pool = reach verify xs ∧
    (watch verify xs).notes.map Prod.snd = (reach verify xs).world.out := by
  have hpool : ∀ t, (Runs.run (observe verify) t xs).pool = Runs.run (step verify) t.pool xs := by
    induction xs with
    | nil => exact fun _ ↦ rfl
    | cons x xs ih => exact fun t ↦ ih (observe verify t x)
  have hnotes : ∀ t x, Numbered t ∧ t.notes.map Prod.snd = t.pool.world.out →
      Numbered (observe verify t x) ∧
        (observe verify t x).notes.map Prod.snd = (observe verify t x).pool.world.out := by
    rintro t x ⟨ht, ho⟩
    obtain ⟨i, es, hes⟩ := @step_handled verify t.pool ht.ledger.rings x
    refine ⟨observe_numbered ht x, ?_⟩
    simp only [observe, List.map_append, List.map_map, ho, hes.out, List.drop_left]
    congr 1
    exact List.map_id es
  have hall := Runs.run_invariant (Q := fun t ↦ Numbered t ∧ t.notes.map Prod.snd = t.pool.world.out)
    hnotes ⟨initial_numbered, rfl⟩ xs
  exact ⟨hpool Trace.initial, hall.2.trans (congrArg (fun m : Pool ↦ m.world.out) (hpool Trace.initial))⟩

/-- Ids identify messages exactly as long as nothing that was acknowledged
comes out of a queue. -/
theorem identified_iff (xs : List Input) (hfew : (watch verify xs).drawn.length < 2 ^ 32) :
    Identified (watch verify xs).notes ↔ Uncrossed (watch verify xs).notes :=
  (watch_numbered xs).ledger.identified_iff hfew

def emptyHanded (m : Pool) : Input → Bool
  | .go h => (m.handlers h).all (fun handler ↦ match handler.control with
    | .delivering => decide ((m.world.server.clients handler.slot).queue.count = 0)
    | .fetching => decide ((m.world.server.clients handler.slot).queue.count = 0)
    | _ => true)
  | _ => true

def Event.isCopy : Event → Bool
  | .frame _ .incomingMessage _ (some _) => true
  | _ => false

theorem Told.uncopied {e : Event} (h : Told w i c w' e)
    (hc : c = .delivering ∨ c = .fetching → (w.server.clients i).queue.count = 0) :
    Event.isCopy e = false := by
  cases h with
  | other e he =>
    cases e with
    | frame fd type payload entry =>
      cases type with
      | incomingMessage => cases he
      | _ => rfl
    | _ => rfl
  | reply fd type payload => cases type <;> rfl
  | fetched fd m hfetch hm =>
    have hnone : CChat.Server.Invariants.pending (w.server.clients i) = [] := by
      rw [CChat.Server.Invariants.pending, ← List.length_eq_zero_iff, window_length, hc hfetch]
    rw [hnone] at hm
    cases hm
  | _ => rfl

theorem step_uncopied {m : Pool} (hw : Rings m.world) {x : Input} (hx : emptyHanded m x = true) :
    ∃ es, (step verify m x).world.out = m.world.out ++ es ∧
      ∀ e ∈ es, Event.isCopy e = false := by
  have hother : ∀ {i es w'}, Handled m.world i .done es w' →
      ∃ es, w'.out = m.world.out ++ es ∧ ∀ e ∈ es, Event.isCopy e = false :=
    fun h ↦ ⟨_, h.out, fun e he ↦ Told.uncopied (h.told e he) (fun hc ↦ by simp at hc)⟩
  cases step_turn m x with
  | idle h =>
    rw [h]
    exact hother (i := 0) ((Plain.refl _).handled hw)
  | accept challenge created _ _ h =>
    rw [h, acceptHandler_world]
    obtain ⟨es, hes⟩ := acceptClient_handled (i := 0) (c := .done) hw challenge created
    exact hother hes
  | receive h stream i _ _ hm =>
    rw [hm, Pool.put, receiveRequest_world]
    obtain ⟨es, hes⟩ := takeRequest_plain m.world i stream
    exact hother (i := i) (hes.handled hw)
  | go h i c hgo hh _ hm =>
    rw [hm]
    obtain ⟨es, hes⟩ := @proceed_handled verify m.world hw i c
    refine ⟨es, hes.out, fun e he ↦ Told.uncopied (hes.told e he) ?_⟩
    rw [hgo, emptyHanded, hh] at hx
    rintro (rfl | rfl)
    · simpa using hx
    · simpa using hx
  | environment env _ hm =>
    rw [hm]
    exact hother (i := 0) (environment_handled hw env)

/-- Message ids identify messages in every run in which nothing is handed over
from a queue: what `queue_message` stores has an id of its own. -/
theorem messageId_identifies (verify : Signature → Challenge → Key → Bool) (xs : List Input)
    (h : Runs.Along (observe verify) (fun t x ↦ emptyHanded t.pool x = true) Trace.initial xs) :
    Runs.Always (observe verify) (fun t ↦ t.drawn.length < 2 ^ 32 → Identified t.notes)
      Trace.initial xs := by
  have hstep : ∀ t x, (Numbered t ∧ ∀ p ∈ t.notes, Event.isCopy p.2 = false) →
      emptyHanded t.pool x = true →
      Numbered (observe verify t x) ∧
        ∀ p ∈ (observe verify t x).notes, Event.isCopy p.2 = false := by
    rintro t x ⟨ht, hnotes⟩ hx
    obtain ⟨es, ho, hes⟩ := @step_uncopied verify t.pool ht.ledger.rings x hx
    refine ⟨observe_numbered ht x, fun p hp ↦ ?_⟩
    rw [observe] at hp
    dsimp only at hp
    rw [ho, List.drop_left] at hp
    obtain hp | hp := List.mem_append.mp hp
    · exact hnotes p hp
    · obtain ⟨e, he, rfl⟩ := List.mem_map.mp hp
      exact hes e he
  have hall := Runs.Along.always hstep
    ⟨initial_numbered, by simp [Trace.initial]⟩ h
  refine hall.mono (fun t ht hfew ↦ (ht.1.ledger.identified_iff hfew).mpr ?_)
  intro r fd ack e n fd' payload m _ _ hm
  cases ht.2 _ hm

def aliceWrites : List Input :=
  [.accept (Block.zero _) true, .go 0,
    .receive 0 (registerPacket (text "alice") (List.replicate 32 1)), .go 0, .go 0, .go 0,
    .receive 0 (loginPacket (text "alice") (List.replicate signatureSize 0))] ++
  List.replicate 10 (.go 0) ++
  [.receive 0 (sendPacket (text "alice") [1, 2]), .go 0, .go 0, .go 0]

def alice : Username := Username.ofBytes (text "alice")

def aliceSends : List Input := aliceWrites ++ [.go 0, .go 0]

theorem messageId_identifies_alice :
    Identified (watch (fun _ _ _ ↦ true) aliceSends).notes ∧
      (18, .frame 0 .messageAck (ackPayload 1 1) none) ∈
        (watch (fun _ _ _ ↦ true) aliceSends).notes ∧
      (18, .frame 0 .incomingMessage (directPayload 1 alice 0 [1, 2]) none) ∈
        (watch (fun _ _ _ ↦ true) aliceSends).notes := by
  refine ⟨?_, by decide +kernel, by decide +kernel⟩
  exact (messageId_identifies (fun _ _ _ ↦ true) aliceSends (by decide +kernel)).last
    (by decide +kernel)

def aliceFetches : List Input := aliceWrites ++ [.environment ⟨[], [some 0], []⟩] ++
  List.replicate 5 (.go 0) ++ [.receive 0 (packet 0x05 []), .go 0]

/-- The acknowledgement says 1, the message it acknowledges 2. -/
theorem fetched_misidentified :
    ¬ ((watch (fun _ _ _ ↦ true) aliceFetches).drawn.length < 2 ^ 32 →
      Identified (watch (fun _ _ _ ↦ true) aliceFetches).notes) := by
  intro h
  have hack : (18, .frame 0 .messageAck (ackPayload 1 2) none) ∈
      (watch (fun _ _ _ ↦ true) aliceFetches).notes := by decide +kernel
  have hcopy : (28, .frame 0 .incomingMessage (queuedPayload
      ⟨2, alice, alice, 0, 2, some [1, 2], false⟩)
      (some ⟨2, alice, alice, 0, 2, some [1, 2], false⟩)) ∈
      (watch (fun _ _ _ ↦ true) aliceFetches).notes := by decide +kernel
  have hstored : (18, .queued ⟨2, alice, alice, 0, 2, some [1, 2], false⟩) ∈
      (watch (fun _ _ _ ↦ true) aliceFetches).notes := by decide +kernel
  have hsame := ((h (by decide +kernel)).correlated _ _ _ _ _ _ _ _ hack (.inr rfl) hcopy).mpr
    hstored
  exact absurd hsame (by decide +kernel)

end CChat.Threads.Identifiers
