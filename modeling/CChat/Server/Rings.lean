import CChat.Library.Fifo
import CChat.Library.Runs
import CChat.Server.Handlers

namespace CChat.Server.Rings

open CChat.Library CChat.Library.Circular CChat.Protocol.Types CChat.Protocol.Wire State Network
  Users Queue Handlers

variable {i : ℕ} {w : World} {ring : Buffer StoredMessage}

def cleared : Buffer StoredMessage := ClientConnection.zero.queue

def Undelivered (m : StoredMessage) : Prop :=
  m.delivered = false ∧ ∃ data, m.encryptedData = some data ∧ data.length = m.encryptedLen

def Vacant (m : StoredMessage) : Prop := m.encryptedData = none

def entries (ring : Buffer StoredMessage) : List StoredMessage := window messageQueueSize ring

def place (w : World) (i : ℕ) (ring : Buffer StoredMessage) : World :=
  w.modifyClient i (fun c ↦ { c with queue := ring })

/-- A call on the queue of a slot, in whatever world it is made: who is logged
in, which allocations fail and what each `send` takes is the world's choice. -/
inductive Call
  | queue (w : World) (recipient sender : Username) (data : Bytes)
  | deliver (w : World)

def perform (i : ℕ) (ring : Buffer StoredMessage) : Call → Buffer StoredMessage
  | .queue w recipient sender data =>
    ((queueMessage (place w i ring) recipient sender data).2.server.clients i).queue
  | .deliver w => ((deliverQueuedMessages (place w i ring) i).2.server.clients i).queue

def entry (w : World) (recipient sender : Username) (data : Bytes) : StoredMessage :=
  ⟨w.server.nextMessageId, sender, recipient, (time w).1, data.length, some data, false⟩

def Stores (w : World) (i : ℕ) (recipient : Username) (data : Bytes) : Prop :=
  findClientByUsername w.server recipient = some i ∧ data ≠ [] ∧ Env.allocates w.env 0 = true

instance (w : World) (i : ℕ) (recipient : Username) (data : Bytes) :
    Decidable (Stores w i recipient data) :=
  inferInstanceAs (Decidable (_ ∧ _ ∧ _))

def attempt (fd : Option Fd) (w : World) (m : StoredMessage) : Bool × World :=
  let allocated := malloc w
  if !allocated.1 then (false, allocated.2)
  else
    let sent := sendNetworkMessage allocated.2 fd .incomingMessage (queuedPayload m) (some m)
    (decide (sent.1 = 0), sent.2)

/-- What the call is for: the queue is a list that holds `MESSAGE_QUEUE_SIZE`
messages at most. -/
def onList (i : ℕ) (xs : List StoredMessage) : Call → List StoredMessage
  | .queue w recipient sender data =>
    if Stores w i recipient data then
      Fifo.enqueue messageQueueSize (entry w recipient sender data) xs
    else xs
  | .deliver w =>
    if (w.server.clients i).authenticated then
      (Fifo.drain (attempt (w.server.clients i).socketFd) w xs).1
    else xs

@[simp] theorem place_self (w : World) (i : ℕ) (ring : Buffer StoredMessage) :
    (place w i ring).server.clients i = { w.server.clients i with queue := ring } := by
  rw [place, modifyClient_self]

theorem findClientByUsername_place (w : World) (i : ℕ) (ring : Buffer StoredMessage)
    (username : Username) :
    findClientByUsername (place w i ring).server username =
      findClientByUsername w.server username := by
  have hsame : ∀ j, holds ((place w i ring).server.clients j) username =
      holds (w.server.clients j) username := by
    intro j
    by_cases hj : j = i
    · rw [hj, place_self]
      rfl
    · rw [place, modifyClient_other w _ hj]
  unfold findClientByUsername
  simp only [hsame]
  rfl

theorem place_env (w : World) (i : ℕ) (ring : Buffer StoredMessage) :
    (place w i ring).env = w.env ∧ (place w i ring).server.nextMessageId = w.server.nextMessageId :=
  ⟨rfl, rfl⟩

theorem time_server_irrelevant (w : World) (s : ServerState) :
    (time { w with server := s }).1 = (time w).1 := by
  unfold time
  dsimp only
  split <;> rfl

theorem queueMessage_elsewhere {w : World} {i : ℕ} {recipient : Username} (sender : Username)
    (data : Bytes) (hfind : findClientByUsername w.server recipient ≠ some i) :
    (queueMessage w recipient sender data).2.server.clients i = w.server.clients i := by
  by_cases hlength : data.length = 0
  · simp [queueMessage, hlength]
  cases hj : findClientByUsername w.server recipient with
  | none => simp [queueMessage, hj]
  | some j =>
    have hne : i ≠ j := by
      rintro rfl
      exact hfind hj
    by_cases hroom : (w.server.clients j).queue.count < messageQueueSize
    · have hsilent := (time_silent (drawMessageId w).2).trans (malloc_silent _)
      rw [queueMessage_eq hj hlength hroom]
      dsimp only
      split
      · rw [modifyClient_other _ _ hne, hsilent.server]
        rfl
      · rw [emit_server, modifyClient_other _ _ hne, hsilent.server]
        rfl
    · simp [queueMessage, hj, Nat.le_of_not_lt hroom]

/-- What a call of `queue_message` gives back and does to the ring of the slot. -/
inductive Queued (w : World) (i : ℕ) (ring : Buffer StoredMessage) (recipient sender : Username)
    (data : Bytes) (result : ℤ) (ring' : Buffer StoredMessage) : Prop
  | elsewhere (hfind : findClientByUsername w.server recipient ≠ some i) (h : ring' = ring)
  | refused (hfull : data = [] ∨ messageQueueSize ≤ ring.count) (hr : result = -1)
      (h : ring' = ring)
  | noRoom (m : StoredMessage) (hroom : ring.count < messageQueueSize)
      (halloc : Env.allocates w.env 0 = false) (hm : Vacant m) (hr : result = -1)
      (h : ring' = writeTail ring m)
  | stored (hroom : ring.count < messageQueueSize) (hstores : Stores w i recipient data)
      (hr : result = 0) (h : ring' = push messageQueueSize ring (entry w recipient sender data))

theorem queueMessage_queued (w : World) (i : ℕ) (ring : Buffer StoredMessage)
    (recipient sender : Username) (data : Bytes) :
    Queued w i ring recipient sender data (queueMessage (place w i ring) recipient sender data).1
      (perform i ring (.queue w recipient sender data)) := by
  have hself := place_self w i ring
  by_cases hdata : data = []
  · refine .refused (.inl hdata) ?_ ?_
    · simp [queueMessage, hdata]
    · simp [perform, queueMessage, hdata]
  have hlength : data.length ≠ 0 := fun h ↦ hdata (List.eq_nil_of_length_eq_zero h)
  by_cases hfind : findClientByUsername w.server recipient = some i
  · by_cases hfull : messageQueueSize ≤ ring.count
    · refine .refused (.inr hfull) ?_ ?_
      · simp [queueMessage, hlength, findClientByUsername_place, hfind, hfull]
      · simp [perform, queueMessage, hlength, findClientByUsername_place, hfind, hfull]
    · have hroom : ring.count < messageQueueSize := Nat.lt_of_not_le hfull
      have hfind' := (findClientByUsername_place w i ring recipient).trans hfind
      have hroom' : ((place w i ring).server.clients i).queue.count < messageQueueSize := by
        rw [hself]
        exact hroom
      have halloc := copy_allocates (place w i ring)
      have hsilent := (time_silent (drawMessageId (place w i ring)).2).trans (malloc_silent _)
      have hclock : (time (drawMessageId (place w i ring)).2).1 = (time w).1 :=
        time_server_irrelevant w _
      rw [perform, queueMessage_eq hfind' hlength hroom']
      dsimp only
      rw [halloc, hclock]
      generalize (malloc (time (drawMessageId (place w i ring)).2).2).2 = v at hsilent ⊢
      have hslot : (v.server.clients i).queue = ring := by
        rw [hsilent.server]
        exact congrArg ClientConnection.queue hself
      cases hok : Env.allocates w.env 0 with
      | false =>
        refine .noRoom ⟨w.server.nextMessageId, sender, recipient, (time w).1, data.length, none,
          false⟩ hroom hok rfl ?_ ?_
        · simp only [(place_env w i ring).1, hok, Bool.not_false, ↓reduceIte]
        simp only [(place_env w i ring).1, hok, Bool.not_false, ↓reduceIte, modifyClient_self, hslot]
        rfl
      | true =>
        refine .stored hroom ⟨hfind, hdata, hok⟩ ?_ ?_
        · simp only [(place_env w i ring).1, hok, Bool.not_true, Bool.false_eq_true, ↓reduceIte]
        simp only [(place_env w i ring).1, hok, Bool.not_true, Bool.false_eq_true, ↓reduceIte,
          emit_server, modifyClient_self, hslot]
        rfl
  · refine .elsewhere hfind ?_
    have hother := queueMessage_elsewhere sender data
      ((findClientByUsername_place w i ring recipient).symm ▸ hfind)
    rw [perform, hother, hself]

/-- The slots of the window hold an undelivered message with its data, the
others no data. -/
abbrev Held (ring : Buffer StoredMessage) : Prop :=
  Filled messageQueueSize Undelivered Vacant ring

theorem cleared_held : Held cleared := zero_filled (by decide) rfl

theorem perform_queue (h : Held ring) (w : World) (recipient sender : Username) (data : Bytes) :
    Held (perform i ring (.queue w recipient sender data)) ∧
      entries (perform i ring (.queue w recipient sender data)) =
        onList i (entries ring) (.queue w recipient sender data) := by
  have hlength : (entries ring).length = ring.count := window_length ring
  have hkept : ¬ Stores w i recipient data ∨ ¬ ring.count < messageQueueSize →
      onList i (entries ring) (.queue w recipient sender data) = entries ring := by
    intro hno
    rw [onList, Fifo.enqueue, hlength]
    obtain hno | hfull := hno
    · rw [if_neg hno]
    · rw [if_neg hfull, ite_self]
  cases queueMessage_queued w i ring recipient sender data with
  | elsewhere hfind hring =>
    rw [hring, hkept (.inl (fun hs ↦ hfind hs.1))]
    exact ⟨h, rfl⟩
  | refused hfull _ hring =>
    rw [hring, hkept (hfull.imp (fun hnil hs ↦ hs.2.1 hnil) Nat.not_lt_of_le)]
    exact ⟨h, rfl⟩
  | noRoom m hroom halloc hm _ hring =>
    have hno : ¬ Stores w i recipient data := fun hs ↦ by
      rw [hs.2.2] at halloc
      cases halloc
    rw [hring, hkept (.inl hno)]
    exact ⟨h.writeTail hroom hm, writeTail_window h.ring hroom m⟩
  | stored hroom hstores _ hring =>
    rw [hring]
    refine ⟨h.push hroom ⟨rfl, data, rfl, rfl⟩, (push_window h.ring hroom _).trans ?_⟩
    rw [onList, if_pos hstores, Fifo.enqueue, if_pos (hlength ▸ hroom)]
    rfl

theorem send_server_irrelevant (w : World) (s : ServerState) (fd : Option Fd) (n : ℕ) :
    send { w with server := s } fd n =
      ((send w fd n).1, { (send w fd n).2 with server := s }) := by
  unfold send
  dsimp only
  split <;> rfl

theorem malloc_server_irrelevant (w : World) (s : ServerState) :
    malloc { w with server := s } = ((malloc w).1, { (malloc w).2 with server := s }) := by
  unfold malloc
  dsimp only
  split <;> rfl

theorem sendNetworkMessage_server_irrelevant (w : World) (s : ServerState) (fd : Option Fd)
    (type : MessageType) (payload : Bytes) (m : Option StoredMessage) :
    sendNetworkMessage { w with server := s } fd type payload m =
      ((sendNetworkMessage w fd type payload m).1,
        { (sendNetworkMessage w fd type payload m).2 with server := s }) := by
  unfold sendNetworkMessage sendNetworkMessage.tornOff sendNetworkMessage.whole
  dsimp only
  rw [send_server_irrelevant w s]
  dsimp only
  rw [send_server_irrelevant (send w fd (frameHeader type.code payload.length).length).2 s]
  cases fd <;> split_ifs <;> rfl

theorem attempt_server_irrelevant (fd : Option Fd) (w : World) (s : ServerState)
    (m : StoredMessage) :
    attempt fd { w with server := s } m =
      ((attempt fd w m).1, { (attempt fd w m).2 with server := s }) := by
  unfold attempt
  dsimp only
  rw [malloc_server_irrelevant w s]
  dsimp only
  rw [sendNetworkMessage_server_irrelevant (malloc w).2 s]
  split <;> rfl

theorem attempt_server (fd : Option Fd) (w : World) (m : StoredMessage) :
    (attempt fd w m).2.server = w.server := by
  unfold attempt
  dsimp only
  split
  · exact malloc_server w
  · rw [sendNetworkMessage_server, malloc_server]

def handedOver (m : StoredMessage) (c : ClientConnection) : ClientConnection :=
  { c with queue := advanceHead messageQueueSize (writeHead c.queue (StoredMessage.spent m)) }

theorem deliverLoop_attempt (n : ℕ) (delivered : ℤ) {m : StoredMessage}
    (hcount : 0 < (w.server.clients i).queue.count)
    (hm : (w.server.clients i).queue.cells (w.server.clients i).queue.head = m)
    (hfresh : m.delivered = false) :
    deliverLoop i (n + 1) delivered w =
      if (attempt (w.server.clients i).socketFd w m).1 then
        deliverLoop i n (delivered + 1)
          ((attempt (w.server.clients i).socketFd w m).2.modifyClient i (handedOver m))
      else (delivered, (attempt (w.server.clients i).socketFd w m).2) := by
  rw [deliverLoop]
  simp only [hcount, hm, hfresh, Bool.false_eq_true, ↓reduceIte, attempt]
  cases (malloc w).1 with
  | false => rfl
  | true =>
    simp only [Bool.not_true, Bool.false_eq_true, ↓reduceIte, decide_eq_true_eq]
    rfl

/-- The loop hands over what the list does; `s` is whatever else the list's
world has in the place of the server. -/
theorem deliverLoop_follows (n : ℕ) (delivered : ℤ) (w : World) (s : ServerState)
    (h : Held (w.server.clients i).queue) (hn : (w.server.clients i).queue.count ≤ n) :
    ∃ rest, Fifo.drain (attempt (w.server.clients i).socketFd) { w with server := s }
        (entries (w.server.clients i).queue) =
          (rest, { (deliverLoop i n delivered w).2 with server := s }) ∧
      Held ((deliverLoop i n delivered w).2.server.clients i).queue ∧
      entries ((deliverLoop i n delivered w).2.server.clients i).queue = rest ∧
      (deliverLoop i n delivered w).1 + rest.length =
        delivered + (entries (w.server.clients i).queue).length := by
  induction n generalizing delivered w with
  | zero =>
    have hnil : entries (w.server.clients i).queue = [] := by
      rw [List.eq_nil_iff_length_eq_zero, entries, window_length]
      omega
    rw [hnil]
    exact ⟨[], rfl, h, hnil, rfl⟩
  | succ n ih =>
    by_cases hcount : 0 < (w.server.clients i).queue.count
    · obtain ⟨m, hm⟩ : ∃ m, (w.server.clients i).queue.cells (w.server.clients i).queue.head = m :=
        ⟨_, rfl⟩
      have hhead : Occupied messageQueueSize (w.server.clients i).queue
          (w.server.clients i).queue.head := (advanceHead_occupied h.ring hcount).mpr (.inl rfl)
      have hfresh : m.delivered = false := hm ▸ (h.live _ hhead).1
      have hcons : entries (w.server.clients i).queue =
          m :: entries (advanceHead messageQueueSize (w.server.clients i).queue) :=
        hm ▸ window_cons h.ring hcount
      have hserver := attempt_server (w.server.clients i).socketFd w m
      rw [deliverLoop_attempt n delivered hcount hm hfresh, hcons, Fifo.drain,
        attempt_server_irrelevant]
      dsimp only
      cases hok : (attempt (w.server.clients i).socketFd w m).1 with
      | false =>
        refine ⟨_, rfl, ?_⟩
        simp only [Bool.false_eq_true, ↓reduceIte, hserver]
        exact ⟨h, hcons, trivial⟩
      | true =>
        simp only [↓reduceIte]
        generalize (attempt (w.server.clients i).socketFd w m).2 = v at hserver ⊢
        have hslot : (v.modifyClient i (handedOver m)).server.clients i =
            handedOver m (w.server.clients i) := by
          rw [modifyClient_self, hserver]
        have hrest : entries (handedOver m (w.server.clients i)).queue =
            entries (advanceHead messageQueueSize (w.server.clients i).queue) :=
          writeHead_advance_window h.ring hcount _
        have hnext := ih (delivered + 1) (v.modifyClient i (handedOver m))
        rw [hslot] at hnext
        obtain ⟨rest, hdrain, hheld, hleft, hresult⟩ := hnext (h.pop hcount rfl)
          (Nat.sub_le_of_le_add hn)
        rw [hrest] at hdrain hresult
        refine ⟨rest, hdrain, hheld, hleft, ?_⟩
        rw [List.length_cons]
        omega
    · have hnil : entries (w.server.clients i).queue = [] := by
        rw [List.eq_nil_iff_length_eq_zero, entries, window_length]
        omega
      have hdone : deliverLoop i (n + 1) delivered w = (delivered, w) := by
        rw [deliverLoop]
        simp [hcount]
      rw [hnil, hdone]
      exact ⟨[], rfl, h, hnil, rfl⟩

theorem deliver_denied (hauth : (w.server.clients i).authenticated = false) :
    deliverQueuedMessages (place w i ring) i = (-1, place w i ring) := by
  rw [deliverQueuedMessages, place_self, hauth]
  rfl

theorem deliver_loop (hauth : (w.server.clients i).authenticated = true) :
    deliverQueuedMessages (place w i ring) i = deliverLoop i ring.count 0 (place w i ring) := by
  rw [deliverQueuedMessages, place_self, hauth]
  rfl

theorem perform_deliver (h : Held ring) (w : World) :
    Held (perform i ring (.deliver w)) ∧
      entries (perform i ring (.deliver w)) = onList i (entries ring) (.deliver w) := by
  cases hauth : (w.server.clients i).authenticated with
  | false =>
    rw [perform, deliver_denied hauth, place_self, onList, hauth]
    exact ⟨h, rfl⟩
  | true =>
    have hloop := deliverLoop_follows (i := i) ring.count 0 (place w i ring) w.server
    rw [place_self] at hloop
    obtain ⟨rest, hdrain, hheld, hleft, _⟩ := hloop h (Nat.le_refl _)
    rw [perform, deliver_loop hauth, onList, if_pos hauth]
    exact ⟨hheld, hleft.trans (congrArg Prod.fst hdrain).symm⟩

def Answers (i : ℕ) (ring : Buffer StoredMessage) : Call → Prop
  | .queue w recipient sender data =>
    findClientByUsername w.server recipient = some i →
      (queueMessage (place w i ring) recipient sender data).1 =
        if Stores w i recipient data ∧ (entries ring).length < messageQueueSize then 0 else -1
  | .deliver w =>
    let fd := (w.server.clients i).socketFd
    let result := deliverQueuedMessages (place w i ring) i
    (w.server.clients i).authenticated = true →
      ∃ sent t, Fifo.HandedOver (attempt fd) w sent t ∧ result.1 = sent.length ∧
        (∀ n, fd = some n → t.out = w.out ++
          sent.map (fun m ↦ .frame n .incomingMessage (queuedPayload m) (some m))) ∧
        entries ring = sent ++ entries (perform i ring (.deliver w)) ∧
        (entries (perform i ring (.deliver w)) = [] ∧ result.2.out = t.out ∨
          ∃ m rest, entries (perform i ring (.deliver w)) = m :: rest ∧
            (attempt fd t m).1 = false ∧ result.2.out = (attempt fd t m).2.out)

theorem handedOver_out {n : Fd} {sent : List StoredMessage} {t : World}
    (h : Fifo.HandedOver (attempt (some n)) w sent t) :
    t.out = w.out ++
      sent.map (fun m ↦ .frame n .incomingMessage (queuedPayload m) (some m)) := by
  induction h with
  | nil w => exact (List.append_nil _).symm
  | @cons w t m sent hm _ ih =>
    have hout : (attempt (some n) w m).2.out =
        w.out ++ [.frame n .incomingMessage (queuedPayload m) (some m)] := by
      unfold attempt at hm ⊢
      dsimp only at hm ⊢
      cases hok : (malloc w).1 with
      | false => simp [hok] at hm
      | true =>
        simp only [hok, Bool.not_true, Bool.false_eq_true, ↓reduceIte, decide_eq_true_eq] at hm ⊢
        cases sendNetworkMessage_written (malloc w).2 (some n) .incomingMessage (queuedPayload m)
          (some m) with
        | whole fd hfd _ _ _ ho =>
          obtain rfl := Option.some.inj hfd
          rw [ho, malloc_out]
        | torn _ _ _ hr =>
          rw [hr] at hm
          cases hm
        | dead hfd => cases hfd
    rw [ih, hout, List.append_assoc, List.map_cons, List.singleton_append]

theorem answers_deliver (h : Held ring) (w : World) : Answers i ring (.deliver w) := by
  intro hauth
  have hloop := deliverLoop_follows (i := i) ring.count 0 (place w i ring) w.server
  rw [place_self] at hloop
  obtain ⟨rest, hdrain, _, hleft, hresult⟩ := hloop h (Nat.le_refl _)
  rw [← deliver_loop hauth] at hdrain hleft hresult
  obtain ⟨sent, t, hsent, hsplit, hend⟩ :=
    @Fifo.drain_split _ _ (attempt (w.server.clients i).socketFd) w (entries ring)
  have hdrain' : Fifo.drain (attempt (w.server.clients i).socketFd) w (entries ring) =
      (rest, { (deliverQueuedMessages (place w i ring) i).2 with server := w.server }) := hdrain
  rw [hdrain'] at hsplit hend
  rw [perform, hleft]
  refine ⟨sent, t, hsent, ?_, fun n hn ↦ handedOver_out (hn ▸ hsent), hsplit, ?_⟩
  · have hlength := congrArg List.length hsplit
    rw [List.length_append] at hlength
    dsimp only at hresult hlength
    omega
  · obtain hend | ⟨m, left, hfail, hend⟩ := hend
    · obtain ⟨hrest, hworld⟩ := Prod.mk.inj hend
      exact .inl ⟨hrest, by rw [← hworld]⟩
    · obtain ⟨hrest, hworld⟩ := Prod.mk.inj hend
      exact .inr ⟨m, left, hrest, hfail, by rw [← hworld]⟩

theorem answers_queue (w : World) (recipient sender : Username) (data : Bytes) :
    Answers i ring (.queue w recipient sender data) := by
  intro hfind
  have hlength : (entries ring).length = ring.count := window_length ring
  rw [hlength]
  cases queueMessage_queued w i ring recipient sender data with
  | elsewhere hother => exact absurd hfind hother
  | refused hfull hr =>
    rw [hr, if_neg]
    rintro ⟨hs, hroom⟩
    exact hfull.elim hs.2.1 (Nat.not_le_of_lt hroom)
  | noRoom _ _ halloc _ hr =>
    rw [hr, if_neg]
    rintro ⟨hs, _⟩
    rw [hs.2.2] at halloc
    cases halloc
  | stored hroom hstores hr => rw [hr, if_pos ⟨hstores, hroom⟩]

theorem run_refines (i : ℕ) (calls : List Call) {ring : Buffer StoredMessage} (h : Held ring) :
    Held (Runs.run (perform i) ring calls) ∧
      entries (Runs.run (perform i) ring calls) = Runs.run (onList i) (entries ring) calls := by
  induction calls generalizing ring with
  | nil => exact ⟨h, rfl⟩
  | cons call calls ih =>
    have hstep : Held (perform i ring call) ∧
        entries (perform i ring call) = onList i (entries ring) call := by
      cases call with
      | queue w recipient sender data => exact perform_queue h w recipient sender data
      | deliver w => exact perform_deliver h w
    rw [Runs.run_cons, Runs.run_cons, ← hstep.2]
    exact ih hstep.1

/-- The ring of a slot is a list of bounded length to every sequence of calls. -/
theorem ring_refines (i : ℕ) (calls : List Call) :
    Held (Runs.run (perform i) cleared calls) ∧
      (Runs.run (perform i) cleared calls).tail < messageQueueSize ∧
      entries (Runs.run (perform i) cleared calls) = Runs.run (onList i) [] calls ∧
      ∀ call, Answers i (Runs.run (perform i) cleared calls) call := by
  obtain ⟨hheld, hlist⟩ := run_refines i calls cleared_held
  refine ⟨hheld, ?_, hlist, fun call ↦ ?_⟩
  · rw [hheld.ring.tail_eq]
    exact Nat.mod_lt _ (by decide)
  · cases call with
    | queue w recipient sender data => exact answers_queue w recipient sender data
    | deliver w => exact answers_deliver hheld w

end CChat.Server.Rings
