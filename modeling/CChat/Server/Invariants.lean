import CChat.Server.Steps

namespace CChat.Server.Invariants

open CChat.Library CChat.Library.Circular CChat.Protocol.Types State Network Users Queue Handlers
  Loop Effects HandlerEffects Views Steps

variable {verify : Signature → Challenge → Key → Bool} {g : Guards} {i : ℕ} {w w' : World}

def pending (c : ClientConnection) : List StoredMessage := window messageQueueSize c.queue

structure Waiting (m : StoredMessage) : Prop where
  delivered : m.delivered = false
  data : ∃ data, m.encryptedData = some data ∧ m.encryptedLen = data.length ∧ 0 < data.length

structure Sockets (w : World) : Prop where
  running : w.server.running = true
  count_le : w.server.clientCount ≤ maxClients
  socket : ∀ j fd, (w.server.clients j).socketFd = some fd →
    fd < w.nextFd ∧ j < w.server.clientCount
  distinct : ∀ j k fd, (w.server.clients j).socketFd = some fd →
    (w.server.clients k).socketFd = some fd → j = k
  connected : ∀ j, (w.server.clients j).connected = true →
    ∃ fd, (w.server.clients j).socketFd = some fd
  authenticated : ∀ j, (w.server.clients j).authenticated = true →
    ∃ fd, (w.server.clients j).socketFd = some fd

structure Queues (w : World) : Prop where
  ring : ∀ j, WellFormed messageQueueSize (w.server.clients j).queue
  waiting : ∀ j, ∀ m ∈ pending (w.server.clients j), Waiting m
  holder : ∀ j, pending (w.server.clients j) ≠ [] → (w.server.clients j).authenticated = true

theorem IdentityView.socket (h : IdentityView verify g i w w') (j : ℕ) :
    (w'.server.clients j).socketFd = (w.server.clients j).socketFd ∧
        ((w'.server.clients j).connected = true → (w.server.clients j).connected = true) ∧
        ((w'.server.clients j).authenticated = true → (w.server.clients j).authenticated = true ∨
          ∃ fd, (w.server.clients j).socketFd = some fd) ∨
      (w'.server.clients j).socketFd = none ∧ (w'.server.clients j).connected = false ∧
        (w'.server.clients j).authenticated = false := by
  have hkeep : w'.server.clients j = w.server.clients j →
      (w'.server.clients j).socketFd = (w.server.clients j).socketFd ∧
        ((w'.server.clients j).connected = true → (w.server.clients j).connected = true) ∧
        ((w'.server.clients j).authenticated = true → (w.server.clients j).authenticated = true ∨
          ∃ fd, (w.server.clients j).socketFd = some fd) := by
    intro hj
    rw [hj]
    exact ⟨rfl, id, .inl⟩
  cases h with
  | same _ hids =>
    refine .inl ⟨(hids j).socketFd, ?_, ?_⟩
    · rw [(hids j).connected]
      exact id
    · rw [(hids j).authenticated]
      exact .inl
  | login _ _ fd _ _ _ _ hfd hself hother =>
    by_cases hj : j = i
    · subst hj
      rw [hself]
      exact .inl ⟨rfl, id, fun _ ↦ .inr ⟨fd, hfd⟩⟩
    · exact .inl (hkeep (hother j hj))
  | logout _ hself hother =>
    by_cases hj : j = i
    · subst hj
      rw [hself]
      exact .inl ⟨rfl, fun h ↦ by simp at h, .inl⟩
    · exact .inl (hkeep (hother j hj))
  | close _ hself hother =>
    by_cases hj : j = i
    · subst hj
      rw [hself]
      exact .inr ⟨rfl, rfl, rfl⟩
    · exact .inl (hkeep (hother j hj))

theorem Effect.sockets (h : Effect verify g i w w') (hw : Sockets w) : Sockets w' := by
  have hids := IdentityView.socket (Effect.identity h)
  obtain ⟨hcount, hrun, hnext⟩ := Effect.table h
  have hback : ∀ j fd, (w'.server.clients j).socketFd = some fd →
      (w.server.clients j).socketFd = some fd := by
    intro j fd hfd
    obtain ⟨hs, _⟩ | ⟨hs, _⟩ := hids j
    · rw [← hs, hfd]
    · rw [hs] at hfd
      cases hfd
  refine ⟨hrun.trans hw.running, hcount ▸ hw.count_le, ?_, ?_, ?_, ?_⟩
  · intro j fd hfd
    rw [hnext, hcount]
    exact hw.socket j fd (hback j fd hfd)
  · exact fun j k fd hj hk ↦ hw.distinct j k fd (hback j fd hj) (hback k fd hk)
  · intro j hj
    obtain ⟨hs, hc, _⟩ | ⟨_, hc, _⟩ := hids j
    · rw [hs]
      exact hw.connected j (hc hj)
    · rw [hc] at hj
      cases hj
  · intro j hj
    obtain ⟨hs, _, ha⟩ | ⟨_, _, ha⟩ := hids j
    · rw [hs]
      exact (ha hj).elim (hw.authenticated j) id
    · rw [ha] at hj
      cases hj

theorem IdentityView.keeps (h : IdentityView verify g i w w') (j : ℕ)
    (hj : (w.server.clients j).authenticated = true) :
    (w'.server.clients j).authenticated = true ∨ pending (w'.server.clients j) = [] := by
  cases h with
  | same _ hids => exact .inl ((hids j).authenticated.trans hj)
  | login _ _ _ _ _ _ _ _ hself hother =>
    by_cases hi : j = i
    · subst hi
      rw [hself]
      exact .inl rfl
    · exact .inl (by rw [hother j hi, hj])
  | logout _ hself hother =>
    by_cases hi : j = i
    · subst hi
      rw [hself]
      exact .inl hj
    · exact .inl (by rw [hother j hi, hj])
  | close _ hself hother =>
    by_cases hi : j = i
    · subst hi
      rw [hself]
      exact .inr (window_reset _)
    · exact .inl (by rw [hother j hi, hj])

inductive PendingView (g : Guards) (i : ℕ) (w w' : World) : Prop
  | same (es : List Event) (hp : ∀ j, pending (w'.server.clients j) = pending (w.server.clients j))
      (ho : w'.out = w.out ++ es) (hes : ∀ e ∈ es, Event.entry e = none)
  | push (j : ℕ) (m : StoredMessage) (data : Bytes)
      (hi : (w.server.clients i).authenticated = true)
      (hj : holds (w.server.clients j) m.recipient = true)
      (hasked : Asked w i m.recipient data) (hsender : m.sender = (w.server.clients i).username)
      (hdata : m.encryptedData = some data) (hwait : Waiting m)
      (hself : pending (w'.server.clients j) = pending (w.server.clients j) ++ [m])
      (hother : ∀ l, l ≠ j → pending (w'.server.clients l) = pending (w.server.clients l))
      (ho : w'.out = w.out ++ [.queued m])
  | deliver (fd : Fd) (m : StoredMessage) (hi : (w.server.clients i).authenticated = true)
      (hfd : (w.server.clients i).socketFd = some fd)
      (hself : pending (w.server.clients i) = m :: pending (w'.server.clients i))
      (hother : ∀ l, l ≠ i → pending (w'.server.clients l) = pending (w.server.clients l))
      (ho : w'.out = w.out ++ [.frame fd .incomingMessage (queuedPayload m) (some m)])
  | close (hg : g.close w) (hself : pending (w'.server.clients i) = [])
      (hother : ∀ l, l ≠ i → pending (w'.server.clients l) = pending (w.server.clients l))
      (ho : w'.out = w.out ++ closedEvents (w.server.clients i).socketFd)

theorem Queues.head_waiting (hw : Queues w) (hcount : 0 < (w.server.clients i).queue.count) :
    Waiting ((w.server.clients i).queue.cells (w.server.clients i).queue.head) := by
  refine hw.waiting i _ ?_
  rw [pending, window_cons (hw.ring i) hcount]
  exact List.mem_cons_self

theorem Effect.pending (h : Effect verify g i w w') (hw : Queues w) : PendingView g i w w' := by
  have hlist : ∀ {l}, (w'.server.clients l).queue = (w.server.clients l).queue →
      Invariants.pending (w'.server.clients l) = Invariants.pending (w.server.clients l) := by
    intro l hl
    rw [Invariants.pending, Invariants.pending, hl]
  cases Effect.queue h with
  | same es hq ho hes => exact .same es (fun j ↦ hlist (hq j)) ho hes
  | push j m data hi hj ha hs hd hlen hpos hfresh hroom hself hother ho =>
    refine .push j m data hi hj ha hs hd ⟨hfresh, data, hd, hlen, hpos⟩ ?_ (fun l hl ↦ hlist (hother l hl)) ho
    rw [Invariants.pending, hself, push_window (hw.ring j) hroom]
    rfl
  | spoil j m hroom hself hother ho =>
    refine .same [] (fun l ↦ ?_) (by rw [ho, List.append_nil]) (by simp)
    by_cases hl : l = j
    · subst hl
      rw [Invariants.pending, hself, writeTail_window (hw.ring l) hroom]
      rfl
    · exact hlist (hother l hl)
  | deliver fd m hi hcount hm hfresh hfd hself hother ho =>
    refine .deliver fd m hi hfd ?_ (fun l hl ↦ hlist (hother l hl)) ho
    rw [Invariants.pending, Invariants.pending, hself, window_cons (hw.ring i) hcount,
      writeHead_advance_window (hw.ring i) hcount, hm]
  | skip hcount hold =>
    rw [(hw.head_waiting hcount).delivered] at hold
    cases hold
  | close hg hself hother ho =>
    refine .close hg ?_ (fun l hl ↦ hlist (hother l hl)) ho
    rw [Invariants.pending, hself, window_reset]

theorem Effect.ring (h : Effect verify g i w w') (hw : Queues w) (j : ℕ) :
    WellFormed messageQueueSize (w'.server.clients j).queue := by
  have hoff : ∀ {k}, (∀ l, l ≠ k → (w'.server.clients l).queue = (w.server.clients l).queue) →
      WellFormed messageQueueSize (w'.server.clients k).queue →
      WellFormed messageQueueSize (w'.server.clients j).queue := by
    intro k hother hk
    by_cases hj : j = k
    · exact hj ▸ hk
    · rw [hother j hj]
      exact hw.ring j
  cases Effect.queue h with
  | same _ hq => exact hq j ▸ hw.ring j
  | push k m _ _ _ _ _ _ _ _ _ hroom hself hother =>
    exact hoff hother (hself ▸ push_wellFormed (hw.ring k) hroom m)
  | spoil k m _ hself hother => exact hoff hother (hself ▸ writeTail_wellFormed (hw.ring k) m)
  | deliver _ m _ hcount _ _ _ hself hother =>
    exact hoff hother (hself ▸ advanceHead_wellFormed (writeHead_wellFormed (hw.ring i) _) hcount)
  | skip hcount _ hself hother =>
    exact hoff hother (hself ▸ advanceHead_wellFormed (hw.ring i) hcount)
  | close _ hself hother => exact hoff hother (hself ▸ reset_wellFormed (by decide) _)

theorem PendingView.origin (h : PendingView g i w w') (j : ℕ) {m : StoredMessage}
    (hm : m ∈ Invariants.pending (w'.server.clients j)) :
    m ∈ Invariants.pending (w.server.clients j) ∨
      ∃ data, (w.server.clients i).authenticated = true ∧
        holds (w.server.clients j) m.recipient = true ∧ Asked w i m.recipient data ∧
        m.sender = (w.server.clients i).username ∧ m.encryptedData = some data ∧
        Waiting m := by
  have hoff : ∀ {k}, (∀ l, l ≠ k → Invariants.pending (w'.server.clients l) =
      Invariants.pending (w.server.clients l)) →
      (j = k → m ∈ Invariants.pending (w.server.clients k)) →
      m ∈ Invariants.pending (w.server.clients j) := by
    intro k hother hk
    by_cases hj : j = k
    · exact hj ▸ hk hj
    · exact hother j hj ▸ hm
  cases h with
  | same _ hp => exact .inl (hp j ▸ hm)
  | push k n data hi hj ha hs hd hwait hself hother =>
    by_cases hk : j = k
    · subst hk
      rw [hself, List.mem_append, List.mem_singleton] at hm
      obtain hm | rfl := hm
      · exact .inl hm
      · exact .inr ⟨data, hi, hj, ha, hs, hd, hwait⟩
    · exact .inl (hother j hk ▸ hm)
  | deliver _ n _ _ hself hother =>
    refine .inl (hoff hother (fun hj ↦ ?_))
    rw [hself]
    exact List.mem_cons_of_mem _ (hj ▸ hm)
  | close _ hself hother =>
    refine .inl (hoff hother (fun hj ↦ ?_))
    rw [hj, hself] at hm
    cases hm

theorem Effect.queues (h : Effect verify g i w w') (hw : Queues w) : Queues w' := by
  have hview := Effect.pending h hw
  refine ⟨Effect.ring h hw, fun j m hm ↦ ?_, fun j hj ↦ ?_⟩
  · obtain hold | ⟨_, _, _, _, _, _, hwait⟩ := hview.origin j hm
    · exact hw.waiting j m hold
    · exact hwait
  · obtain ⟨m, hm⟩ := List.exists_mem_of_ne_nil _ hj
    have hauth : (w.server.clients j).authenticated = true := by
      obtain hold | ⟨_, _, hholds, _⟩ := hview.origin j hm
      · exact hw.holder j (List.ne_nil_of_mem hold)
      · simp only [holds, Bool.and_eq_true] at hholds
        exact hholds.1.2
    exact (IdentityView.keeps (Effect.identity h) j hauth).resolve_right hj

theorem Chain.invariant {P : World → Prop} (hstep : ∀ v v', Effect verify g i v v' → P v → P v')
    (h : Chain verify g i w w') (hw : P w) : P w' := by
  induction h with
  | refl => exact hw
  | tail _ he ih => exact hstep _ _ he ih

theorem Chain.sockets (h : Chain verify g i w w') (hw : Sockets w) : Sockets w' :=
  Chain.invariant (fun _ _ ↦ Effect.sockets) h hw

theorem Chain.queues (h : Chain verify g i w w') (hw : Queues w) : Queues w' :=
  Chain.invariant (fun _ _ ↦ Effect.queues) h hw

def Settled (w : World) : Prop :=
  ∀ j, (w.server.clients j).authenticated = true → (w.server.clients j).connected = true

structure Sound (w : World) : Prop where
  sockets : Sockets w
  queues : Queues w
  settled : Settled w

inductive Accepted (w : World) (challenge : Challenge) (created : Bool) (w' : World) : Prop
  | full (hs : w'.server = w.server) (hn : w'.nextFd = w.nextFd + 1)
      (ho : w'.out = w.out ++ [.closed w.nextFd])
  | slot (i : ℕ) (es : List Event) (hi : i < maxClients)
      (hfree : (w.server.clients i).connected = false)
      (hself : w'.server.clients i = { freshClient w.nextFd challenge with connected := created })
      (hother : ∀ j, j ≠ i → w'.server.clients j = w.server.clients j)
      (hcount : w'.server.clientCount = max (i + 1) w.server.clientCount)
      (hrun : w'.server.running = w.server.running)
      (husers : w'.server.users = w.server.users ∧ w'.server.userCount = w.server.userCount ∧
        w'.server.nextMessageId = w.server.nextMessageId)
      (hn : w'.nextFd = w.nextFd + 1) (ho : w'.out = w.out ++ es)
      (hes : es = [] ∨ es = [.closed w.nextFd])

theorem freeSlot_some {s : ServerState} {i : ℕ} (h : freeSlot s = some i) :
    i < maxClients ∧ (s.clients i).connected = false := by
  unfold freeSlot at h
  have hp := List.find?_some h
  have hm := List.mem_of_find?_eq_some h
  exact ⟨List.mem_range.mp hm, by simpa using hp⟩

theorem acceptClient_full {w : World} (challenge : Challenge) (created : Bool)
    (h : freeSlot w.server = none) :
    (acceptClient w challenge created).server = w.server ∧
      (acceptClient w challenge created).nextFd = w.nextFd + 1 := by
  unfold acceptClient
  rw [h]
  exact ⟨rfl, rfl⟩

theorem acceptClient_slot {w : World} {i : ℕ} (challenge : Challenge) (created : Bool)
    (h : freeSlot w.server = some i) :
    (acceptClient w challenge created).server.clients i =
        { freshClient w.nextFd challenge with connected := created } ∧
      (∀ j, j ≠ i → (acceptClient w challenge created).server.clients j = w.server.clients j) ∧
      (acceptClient w challenge created).nextFd = w.nextFd + 1 := by
  unfold acceptClient
  rw [h]
  dsimp only
  split
  next hcreated =>
    refine ⟨?_, fun j hj ↦ ?_, rfl⟩
    · simp [World.modifyClient, freshClient, hcreated]
    · simp [World.modifyClient, Function.update_of_ne hj]
  next hcreated =>
    refine ⟨?_, fun j hj ↦ ?_, rfl⟩
    · simp [World.modifyClient, World.emit, hcreated]
    · simp [World.modifyClient, World.emit, Function.update_of_ne hj]

theorem acceptClient_accepted (w : World) (challenge : Challenge) (created : Bool) :
    Accepted w challenge created (acceptClient w challenge created) := by
  cases hslot : freeSlot w.server with
  | none =>
    obtain ⟨hserver, hnext⟩ := acceptClient_full challenge created hslot
    refine .full hserver hnext ?_
    unfold acceptClient
    rw [hslot]
    rfl
  | some i =>
    obtain ⟨hlt, hfree⟩ := freeSlot_some hslot
    obtain ⟨hself, hother, hnext⟩ := acceptClient_slot challenge created hslot
    have hcount : ∀ n, (if i ≥ n then i + 1 else n) = max (i + 1) n := by
      intro n
      split <;> omega
    have hrest : (acceptClient w challenge created).server.clientCount =
          max (i + 1) w.server.clientCount ∧
        (acceptClient w challenge created).server.running = w.server.running ∧
        ((acceptClient w challenge created).server.users = w.server.users ∧
          (acceptClient w challenge created).server.userCount = w.server.userCount ∧
          (acceptClient w challenge created).server.nextMessageId = w.server.nextMessageId) ∧
        ∃ es, (acceptClient w challenge created).out = w.out ++ es ∧
          (es = [] ∨ es = [.closed w.nextFd]) := by
      unfold acceptClient
      rw [hslot]
      dsimp only
      split
      · exact ⟨hcount _, rfl, ⟨rfl, rfl, rfl⟩, [], (List.append_nil _).symm, .inl rfl⟩
      · exact ⟨hcount _, rfl, ⟨rfl, rfl, rfl⟩, _, rfl, .inr rfl⟩
    obtain ⟨hclients, hrun, husers, es, hout, hes⟩ := hrest
    exact .slot i es hlt hfree hself hother hclients hrun husers hnext hout hes

theorem Accepted.out {challenge : Challenge} {created : Bool}
    (h : Accepted w challenge created w') : w'.out = w.out ∨ w'.out = w.out ++ [.closed w.nextFd] := by
  cases h with
  | full _ _ ho => exact .inr ho
  | slot _ es _ _ _ _ _ _ _ _ ho hes =>
    obtain rfl | rfl := hes
    · exact .inl (ho.trans (List.append_nil _))
    · exact .inr ho

theorem Accepted.sockets {challenge : Challenge} {created : Bool}
    (h : Accepted w challenge created w') (hs : Sockets w) : Sockets w' := by
  cases h with
  | full hsame hn _ =>
    refine ⟨by rw [hsame, hs.running], by rw [hsame]; exact hs.count_le, ?_, ?_, ?_, ?_⟩
    · intro j fd hfd
      rw [hsame] at hfd ⊢
      rw [hn]
      exact ⟨Nat.lt_succ_of_lt (hs.socket j fd hfd).1, (hs.socket j fd hfd).2⟩
    · rw [hsame]
      exact hs.distinct
    · rw [hsame]
      exact hs.connected
    · rw [hsame]
      exact hs.authenticated
  | slot i es hi _ hself hother hcount hrun _ hn _ _ =>
    have hback : ∀ j fd, (w'.server.clients j).socketFd = some fd →
        j = i ∧ fd = w.nextFd ∨ j ≠ i ∧ (w.server.clients j).socketFd = some fd := by
      intro j fd hfd
      by_cases hj : j = i
      · subst hj
        rw [hself] at hfd
        exact .inl ⟨rfl, (Option.some.inj hfd).symm⟩
      · exact .inr ⟨hj, hother j hj ▸ hfd⟩
    refine ⟨hrun.trans hs.running, ?_, ?_, ?_, ?_, ?_⟩
    · have hle := hs.count_le
      rw [hcount]
      omega
    · intro j fd hfd
      rw [hn, hcount]
      obtain ⟨hj, hnew⟩ | ⟨_, hold⟩ := hback j fd hfd
      · subst hj hnew
        exact ⟨Nat.lt_succ_self _, Nat.lt_of_lt_of_le (Nat.lt_succ_self _) (Nat.le_max_left _ _)⟩
      · have h := hs.socket j fd hold
        exact ⟨Nat.lt_succ_of_lt h.1, Nat.lt_of_lt_of_le h.2 (Nat.le_max_right _ _)⟩
    · intro j k fd hj hk
      obtain ⟨hji, hnew⟩ | ⟨_, hold⟩ := hback j fd hj
      · obtain ⟨hki, _⟩ | ⟨_, hold'⟩ := hback k fd hk
        · rw [hji, hki]
        · exact absurd hnew (Nat.ne_of_lt (hs.socket k fd hold').1)
      · obtain ⟨_, hnew⟩ | ⟨_, hold'⟩ := hback k fd hk
        · exact absurd hnew (Nat.ne_of_lt (hs.socket j fd hold).1)
        · exact hs.distinct j k fd hold hold'
    · intro j hj
      by_cases hji : j = i
      · exact ⟨w.nextFd, by rw [hji, hself]; rfl⟩
      · rw [hother j hji] at hj ⊢
        exact hs.connected j hj
    · intro j hj
      by_cases hji : j = i
      · exact ⟨w.nextFd, by rw [hji, hself]; rfl⟩
      · rw [hother j hji] at hj ⊢
        exact hs.authenticated j hj

theorem Accepted.queues {challenge : Challenge} {created : Bool}
    (h : Accepted w challenge created w') (hq : Queues w) : Queues w' := by
  cases h with
  | full hsame =>
    exact ⟨by rw [hsame]; exact hq.ring, by rw [hsame]; exact hq.waiting,
      by rw [hsame]; exact hq.holder⟩
  | slot i _ _ _ hself hother =>
    have hempty : pending (w'.server.clients i) = [] := by
      rw [hself]
      rfl
    refine ⟨fun j ↦ ?_, fun j m hm ↦ ?_, fun j hj ↦ ?_⟩
    · by_cases hji : j = i
      · rw [hji, hself]
        exact zero_wellFormed (by decide) _
      · rw [hother j hji]
        exact hq.ring j
    · by_cases hji : j = i
      · rw [hji, hempty] at hm
        cases hm
      · rw [hother j hji] at hm
        exact hq.waiting j m hm
    · by_cases hji : j = i
      · exact absurd hempty (hji ▸ hj)
      · rw [hother j hji] at hj ⊢
        exact hq.holder j hj

theorem Accepted.settled {challenge : Challenge} {created : Bool}
    (h : Accepted w challenge created w') (hw : Settled w) : Settled w' := by
  intro j hj
  cases h with
  | full hsame =>
    rw [hsame] at hj ⊢
    exact hw j hj
  | slot i _ _ _ hself hother =>
    by_cases hji : j = i
    · rw [hji, hself] at hj
      cases hj
    · rw [hother j hji] at hj ⊢
      exact hw j hj

theorem Accepted.sound {challenge : Challenge} {created : Bool}
    (h : Accepted w challenge created w') (hw : Sound w) : Sound w' :=
  ⟨Accepted.sockets h hw.sockets, Accepted.queues h hw.queues, Accepted.settled h hw.settled⟩

theorem sound_initial : Sound World.initial := by
  refine ⟨⟨rfl, by decide, ?_, ?_, ?_, ?_⟩, ⟨?_, ?_, ?_⟩, ?_⟩
  · intro j fd h
    cases h
  · intro j k fd h
    cases h
  · intro j h
    cases h
  · intro j h
    cases h
  · exact fun _ ↦ zero_wellFormed (by decide) _
  · intro j m h
    cases h
  · exact fun j h ↦ absurd rfl h
  · intro j h
    cases h

theorem Chain.others (h : Chain verify g i w w') (j : ℕ) (hj : j ≠ i) :
    SameIdentity (w.server.clients j) (w'.server.clients j) := by
  induction h with
  | refl => exact .refl _
  | @tail v v' _ he ih =>
    refine ih.trans ?_
    cases Effect.identity he with
    | same _ hids => exact hids j
    | login _ _ _ _ _ _ _ _ _ hother => exact hother j hj ▸ .refl _
    | logout _ _ hother => exact hother j hj ▸ .refl _
    | close _ _ hother => exact hother j hj ▸ .refl _

variable (verify) in
inductive Turn (w : World) (x : Input) (w' : World) : Prop
  | accept (challenge : Challenge) (created : Bool) (hx : x = .accept challenge created)
      (h : Accepted w challenge created w')
  | idle (i : ℕ) (stream : Bytes) (env : Env) (hx : x = .receive i stream env)
      (hconn : (w.server.clients i).connected = false) (h : w' = w)
  | handled (i : ℕ) (stream : Bytes) (env : Env) (fd : Fd) (hx : x = .receive i stream env)
      (hconn : (w.server.clients i).connected = true)
      (hfd : (w.server.clients i).socketFd = some fd)
      (h : Chain verify (turnGuards verify w i stream env) i w w')
      (hend : (w'.server.clients i).connected = true ∧ ¬ Ends w i stream env ∨
        (∃ c, w'.server.clients i = closedClient c) ∧ Ends w i stream env)

theorem step_turn (hw : Sound w) (x : Input) : Turn verify w x (step verify w x) := by
  cases x with
  | accept challenge created =>
    exact .accept challenge created rfl (acceptClient_accepted w challenge created)
  | receive i stream env =>
    cases hconn : (w.server.clients i).connected with
    | false =>
      refine .idle i stream env rfl hconn ?_
      simp only [step, hconn]
      rfl
    | true =>
      obtain ⟨fd, hfd⟩ := hw.sockets.connected i hconn
      obtain ⟨hchain, hend⟩ := @clientHandler_chain verify i w fd stream env hfd hconn
        hw.sockets.running
      rw [step_receive stream env hconn]
      exact .handled i stream env fd rfl hconn hfd hchain hend

theorem Turn.sound {x : Input} (h : Turn verify w x w') (hw : Sound w) : Sound w' := by
  cases h with
  | accept _ _ _ h => exact h.sound hw
  | idle _ _ _ _ _ h => exact h ▸ hw
  | handled i _ _ _ _ _ _ hchain hend =>
    refine ⟨Chain.sockets hchain hw.sockets, Chain.queues hchain hw.queues, fun j hj ↦ ?_⟩
    by_cases hji : j = i
    · subst hji
      obtain ⟨hconn, _⟩ | ⟨⟨c, hc⟩, _⟩ := hend
      · exact hconn
      · rw [hc] at hj
        cases hj
    · have hsame := Chain.others hchain j hji
      rw [hsame.connected]
      exact hw.settled j (hsame.authenticated ▸ hj)

end CChat.Server.Invariants
