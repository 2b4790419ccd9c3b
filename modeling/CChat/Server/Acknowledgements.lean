import CChat.Server.Conservation

namespace CChat.Server.Acknowledgements

open CChat.Library CChat.Library.Circular CChat.Protocol.Types CChat.Protocol.Wire State Network
  Users Queue Handlers Loop Effects HandlerEffects Views Steps Invariants History Delivery
  Conservation

variable {verify : Signature → Challenge → Key → Bool} {g : Guards} {i : ℕ} {w w' : World}

def Event.isIncoming : Event → Bool
  | .frame _ .incomingMessage _ _ => true
  | _ => false

theorem queueMessage_stores {recipient sender : Username} {data : Bytes} {j : ℕ}
    (hj : findClientByUsername w.server recipient = some j) (hdata : data.length ≠ 0)
    (hroom : (w.server.clients j).queue.count < messageQueueSize)
    (halloc : Env.allocates w.env 0 = true)
    (hring : WellFormed messageQueueSize (w.server.clients j).queue) :
    ∃ m : StoredMessage, m.sender = sender ∧ m.recipient = recipient ∧
      m.encryptedData = some data ∧
      (queueMessage w recipient sender data).2.out = w.out ++ [.queued m] ∧
      pending ((queueMessage w recipient sender data).2.server.clients j) =
        pending (w.server.clients j) ++ [m] := by
  have hsilent := (time_silent (drawMessageId w).2).trans
    (malloc_silent (time (drawMessageId w).2).2)
  have hok := (copy_allocates w).trans halloc
  rw [queueMessage_eq hj hdata hroom]
  dsimp only
  rw [hok]
  generalize (malloc (time (drawMessageId w).2).2).2 = v at hsilent ⊢
  refine ⟨⟨w.server.nextMessageId, sender, recipient, (time (drawMessageId w).2).1, data.length,
    some data, false⟩, rfl, rfl, rfl, ?_, ?_⟩
  · simp only [Bool.not_true, Bool.false_eq_true, ↓reduceIte, emit_out, modifyClient_out,
      hsilent.out]
    rfl
  · simp only [Bool.not_true, Bool.false_eq_true, ↓reduceIte, emit_server, modifyClient_self,
      hsilent.server]
    exact push_window hring hroom _

theorem queueMessage_drops {recipient sender : Username} {data : Bytes}
    (h : ∀ j, findClientByUsername w.server recipient = some j →
      (w.server.clients j).queue.count < messageQueueSize → Env.allocates w.env 0 = false)
    (hq : ∀ l, WellFormed messageQueueSize (w.server.clients l).queue) :
    (queueMessage w recipient sender data).2.out = w.out ∧
      ∀ l, pending ((queueMessage w recipient sender data).2.server.clients l) =
        pending (w.server.clients l) := by
  by_cases hdata : data.length = 0
  · simp [queueMessage, hdata]
  cases hj : findClientByUsername w.server recipient with
  | none => simp [queueMessage, hj]
  | some j =>
    by_cases hroom : (w.server.clients j).queue.count < messageQueueSize
    · have hsilent := (time_silent (drawMessageId w).2).trans
        (malloc_silent (time (drawMessageId w).2).2)
      have hfail := (copy_allocates w).trans (h j hj hroom)
      rw [queueMessage_eq hj hdata hroom]
      dsimp only
      rw [hfail]
      generalize (malloc (time (drawMessageId w).2).2).2 = v at hsilent ⊢
      refine ⟨hsilent.out, fun l ↦ ?_⟩
      simp only [Bool.not_false, ↓reduceIte]
      by_cases hl : l = j
      · subst hl
        rw [modifyClient_self, hsilent.server]
        exact writeTail_window (hq l) hroom _
      · rw [modifyClient_other _ _ hl, hsilent.server]
        rfl
    · simp [queueMessage, hj, Nat.not_lt.mp hroom]

theorem directPayload_length (id : UInt32) (sender : Username) (t : ℤ) (data : Bytes) :
    (directPayload id sender t data).length = 11 + sender.bytes.length + data.length := by
  simp only [directPayload, List.length_append, List.length_cons, BigEndian.bytes_length]
  omega

/-- The recipient has a connection, and when the frame for it can be built but
not sent, its ring has room and there is memory for the copy. -/
def Deliverable (w : World) (i : ℕ) (recipient : Username) (data : Bytes) : Prop :=
  ∃ j, findClientByUsername w.server recipient = some j ∧ (Env.allocates w.env 0 = false ∨
    (Env.takes w.env 0 5 && Env.takes w.env 1
      (11 + (w.server.clients i).username.bytes.length + data.length)) = true ∨
    (w.server.clients j).queue.count < messageQueueSize ∧ Env.allocates w.env 1 = true)

/-- What `handle_send_message` does with a message, and the status byte it
acknowledges it with. -/
inductive Relayed (w : World) (i : ℕ) (id : UInt32) (recipient : Username) (data : Bytes)
    (result : UInt8 × World) : Prop
  | failed (hstatus : result.1 = 0) (hcan : Deliverable w i recipient data)
      (hout : result.2.out = w.out)
      (hpend : ∀ l, pending (result.2.server.clients l) = pending (w.server.clients l))
  | delivered (j : ℕ) (fd : Fd) (t : ℤ) (hstatus : result.1 = 1)
      (hcan : Deliverable w i recipient data) (hj : holds (w.server.clients j) recipient = true)
      (hfd : (w.server.clients j).socketFd = some fd)
      (hout : result.2.out = w.out ++ [.frame fd .incomingMessage
        (directPayload id (w.server.clients i).username t data) none])
      (hpend : ∀ l, pending (result.2.server.clients l) = pending (w.server.clients l))
  | queued (j : ℕ) (m : StoredMessage) (es : List Event) (hstatus : result.1 = 2)
      (hcan : Deliverable w i recipient data) (hj : holds (w.server.clients j) recipient = true)
      (hsender : m.sender = (w.server.clients i).username) (hrecipient : m.recipient = recipient)
      (hdata : m.encryptedData = some data) (hout : result.2.out = w.out ++ es)
      (hes : ∀ e ∈ es, ∀ n type payload entry, e ≠ .frame n type payload entry)
      (hself : pending (result.2.server.clients j) = pending (w.server.clients j) ++ [m])
  | dropped (es : List Event) (hstatus : result.1 = 2) (hcannot : ¬ Deliverable w i recipient data)
      (hout : result.2.out = w.out ++ es)
      (hes : ∀ e ∈ es, ∀ n type payload entry, e ≠ .frame n type payload entry)
      (hpend : ∀ l, pending (result.2.server.clients l) = pending (w.server.clients l))

/-- After a direct send that went wrong the message is queued when its recipient
has room for it, and dropped when not. -/
theorem queueMessage_fallback {w₁ : World} {id : UInt32} {recipient : Username} {data : Bytes}
    {j : ℕ} {es : List Event} (hw : Consistent w) (hdata : data.length ≠ 0)
    (hj : findClientByUsername w.server recipient = some j)
    (hok : Env.allocates w.env 0 = true)
    (htakes : ¬ (Env.takes w.env 0 5 && Env.takes w.env 1
      (11 + (w.server.clients i).username.bytes.length + data.length)) = true)
    (hserver : w₁.server = w.server) (hmem : Env.allocates w₁.env 0 = Env.allocates w.env 1)
    (hout : w₁.out = w.out ++ es)
    (hes : ∀ e ∈ es, ∀ n type payload entry, e ≠ .frame n type payload entry) :
    Relayed w i id recipient data
      (2, (queueMessage w₁ recipient (w.server.clients i).username data).2) := by
  obtain ⟨_, hconn, hauth, hname⟩ := findClient_some hj
  have hholds : holds (w.server.clients j) recipient = true := by
    simp [holds, hconn, hauth, hname]
  by_cases hcan : (w.server.clients j).queue.count < messageQueueSize ∧
      Env.allocates w.env 1 = true
  · obtain ⟨m, hsender, hrecipient, hm, hstored, hself⟩ := @queueMessage_stores
      w₁ recipient (w.server.clients i).username data j (hserver ▸ hj) hdata
      (hserver ▸ hcan.1) (hmem.trans hcan.2) (hserver ▸ hw.queues.ring j)
    refine .queued j m (es ++ [.queued m]) rfl ⟨j, hj, .inr (.inr hcan)⟩ hholds hsender hrecipient
      hm ?_ ?_ (by rw [hself, hserver])
    · rw [hstored, hout, List.append_assoc]
    · intro e he
      obtain hold | hnew := List.mem_append.mp he
      · exact hes e hold
      · rw [List.mem_singleton.mp hnew]
        exact fun _ _ _ _ ↦ Event.noConfusion
  · have hcannot : ∀ k, findClientByUsername w₁.server recipient = some k →
        (w₁.server.clients k).queue.count < messageQueueSize →
        Env.allocates w₁.env 0 = false := by
      intro k hk hroom
      rw [hserver] at hk hroom
      obtain rfl := Option.some.inj (hj.symm.trans hk)
      rw [hmem]
      simpa using fun h ↦ hcan ⟨hroom, h⟩
    obtain ⟨hdropped, hpend⟩ := @queueMessage_drops w₁ recipient (w.server.clients i).username data
      hcannot (fun l ↦ hserver ▸ hw.queues.ring l)
    refine .dropped es rfl ?_ (hdropped.trans hout) hes (fun l ↦ by rw [hpend l, hserver])
    rintro ⟨k, hk, hfail | htake | hroom⟩
    · rw [hok] at hfail
      cases hfail
    · exact htakes htake
    · obtain rfl := Option.some.inj (hj.symm.trans hk)
      exact hcan hroom

theorem relay_relayed {id : UInt32} {recipient : Username} {data : Bytes} (hw : Consistent w)
    (hdata : data.length ≠ 0) : Relayed w i id recipient data (relay w i id recipient data) := by
  unfold relay
  dsimp only
  split
  next j hj =>
    obtain ⟨_, hconn, hauth, hname⟩ := findClient_some hj
    obtain ⟨fd, hfd⟩ := hw.sockets.connected j hconn
    have hholds : holds (w.server.clients j) recipient = true := by
      simp [holds, hconn, hauth, hname]
    have hsilent := (time_silent w).trans (malloc_silent (time w).2)
    have halloc := time_malloc_allocates w
    have hnext : Env.allocates (malloc (time w).2).2.env 0 = Env.allocates w.env 1 := by
      rw [malloc_allocates_next, Env.allocates, (time_env w).1]
      rfl
    have hsends : (malloc (time w).2).2.env.sends = w.env.sends :=
      (malloc_sends _).trans (time_env w).2
    generalize malloc (time w).2 = allocated at hsilent halloc hnext hsends ⊢
    split
    next hfail =>
      rw [halloc] at hfail
      refine .failed rfl ⟨j, hj, .inl (by simpa using hfail)⟩ hsilent.out (fun l ↦ ?_)
      rw [hsilent.server]
    next hok =>
      rw [halloc] at hok
      have hok' : Env.allocates w.env 0 = true := by simpa using hok
      have hlen := directPayload_length id (w.server.clients i).username (time w).1 data
      have hw' := sendNetworkMessage_written allocated.2 (w.server.clients j).socketFd
        .incomingMessage (directPayload id (w.server.clients i).username (time w).1 data) none
      have htakes := sendNetworkMessage_takes allocated.2 fd .incomingMessage
        (directPayload id (w.server.clients i).username (time w).1 data) none (by omega)
      have hmallocs := sendNetworkMessage_mallocs allocated.2 (w.server.clients j).socketFd
        .incomingMessage (directPayload id (w.server.clients i).username (time w).1 data) none
      rw [← hfd, Env.takes, Env.takes, hsends, hlen] at htakes
      generalize sendNetworkMessage allocated.2 (w.server.clients j).socketFd .incomingMessage
        (directPayload id (w.server.clients i).username (time w).1 data) none = sent
        at hw' htakes hmallocs ⊢
      cases hw' with
      | whole n hn hr hs _ ho =>
        rw [if_pos hr]
        refine .delivered j n (time w).1 rfl ⟨j, hj, .inr (.inl (htakes.mp hr))⟩ hholds hn
          (ho.trans (by rw [hsilent.out])) (fun l ↦ ?_)
        rw [hs, hsilent.server]
      | torn n bytes hn hr hs _ ho =>
        have hne : ¬ sent.1 = 0 := by rw [hr]; decide
        rw [if_neg hne]
        refine queueMessage_fallback hw hdata hj hok' (fun htake ↦ hne (htakes.mpr htake))
          (hs.trans hsilent.server) ?_ (ho.trans (by rw [hsilent.out])) (by simp)
        rw [← hnext, Env.allocates, Env.allocates, hmallocs]
      | dead hn => rw [hfd] at hn; cases hn
  next hnone =>
    obtain ⟨hout, hpend⟩ := @queueMessage_drops w recipient (w.server.clients i).username data
      (fun j hj ↦ by rw [hnone] at hj; cases hj) hw.queues.ring
    refine .dropped [] rfl ?_ (by rw [hout, List.append_nil]) (by simp) hpend
    rintro ⟨j, hj, _⟩
    rw [hnone] at hj
    cases hj

def since (w w' : World) : List Event := w'.out.drop w.out.length

/-- The handler of slot `i` answered with a `MESSAGE_ACK` that carries this
status byte. -/
def Acked (w : World) (i : ℕ) (w' : World) (status : UInt8) : Prop :=
  ∃ fd id, (w.server.clients i).socketFd = some fd ∧
    .frame fd .messageAck (ackPayload id status) none ∈ since w w'

/-- What the status byte of an acknowledgement promises about a message. -/
structure Truthful (w w' : World) (sender recipient : Username) (data : Bytes) (status : UInt8) :
    Prop where
  queued : status = 2 → ∃ j m, m.sender = sender ∧ m.recipient = recipient ∧
    m.encryptedData = some data ∧
    pending (w'.server.clients j) = pending (w.server.clients j) ++ [m] ∧ Awaits w' j m
  delivered : status = 1 → (∃ j fd id t, (w.server.clients j).socketFd = some fd ∧
      holds (w.server.clients j) recipient = true ∧
      (since w w').filter Event.isIncoming =
        [.frame fd .incomingMessage (directPayload id sender t data) none]) ∧
    ∀ l, pending (w'.server.clients l) = pending (w.server.clients l)
  neither : status = 0 → (since w w').filter Event.isIncoming = [] ∧
    ∀ l, pending (w'.server.clients l) = pending (w.server.clients l)

theorem parseSendMessage_data {payload data : Bytes} {recipient : Username}
    (h : parseSendMessage payload = .ok (recipient, data)) : data.length ≠ 0 := by
  unfold parseSendMessage at h
  split at h
  · cases h
  · dsimp only at h
    split at h
    · cases h
    next hlen =>
      cases h
      simp only [not_or, not_lt] at hlen
      rw [List.length_take, List.length_drop]
      omega

theorem ackPayload_status {id id' : UInt32} {status status' : UInt8}
    (h : ackPayload id status = ackPayload id' status') : status = status' := by
  have hlast := List.append_inj_right h (by simp [BigEndian.bytes_length])
  simpa using hlast

/-- The world behind the acknowledgement: that of `relay`, and one more event on
the requester's own socket. -/
theorem handleSendMessage_answered {payload data : Bytes} {recipient : Username} {k : ℕ} {fd : Fd}
    (hparse : parseSendMessage payload = .ok (recipient, data))
    (hk : findUser w.server recipient = some k)
    (hfd : (w.server.clients i).socketFd = some fd) :
    ∃ e, (e = .frame fd .messageAck (ackPayload (drawMessageId w).1
          (relay (drawMessageId w).2 i (drawMessageId w).1 recipient data).1) none ∨
        ∃ bytes, e = .torn fd bytes) ∧
      (handleSendMessage w i payload).2.server =
        (relay (drawMessageId w).2 i (drawMessageId w).1 recipient data).2.server ∧
      (handleSendMessage w i payload).2.out =
        (relay (drawMessageId w).2 i (drawMessageId w).1 recipient data).2.out ++ [e] := by
  have hsame := (identity_neutral.relay (drawMessageId w).2 i (drawMessageId w).1 recipient data
    i).socketFd
  have hresult : (handleSendMessage w i payload).2 =
      (reply (relay (drawMessageId w).2 i (drawMessageId w).1 recipient data).2 i .messageAck
        (ackPayload (drawMessageId w).1
          (relay (drawMessageId w).2 i (drawMessageId w).1 recipient data).1)).2 := by
    simp only [handleSendMessage, hparse, hk]
    split <;> rfl
  rw [hresult]
  generalize relay (drawMessageId w).2 i (drawMessageId w).1 recipient data = relayed at hsame ⊢
  have hown : (relayed.2.server.clients i).socketFd = some fd := hsame.trans hfd
  unfold reply
  have hw := sendNetworkMessage_written relayed.2 (relayed.2.server.clients i).socketFd .messageAck
    (ackPayload (drawMessageId w).1 relayed.1) none
  generalize sendNetworkMessage relayed.2 (relayed.2.server.clients i).socketFd .messageAck
    (ackPayload (drawMessageId w).1 relayed.1) none = sent at hw ⊢
  cases hw with
  | whole n hn _ hs _ ho =>
    obtain rfl := Option.some.inj (hown.symm.trans hn)
    exact ⟨_, .inl rfl, hs, ho⟩
  | torn n bytes hn _ hs _ ho =>
    obtain rfl := Option.some.inj (hown.symm.trans hn)
    exact ⟨_, .inr ⟨bytes, rfl⟩, hs, ho⟩
  | dead hn =>
    rw [hown] at hn
    cases hn

theorem drawMessageId_consistent (hw : Consistent w) : Consistent (drawMessageId w).2 :=
  ⟨⟨hw.sockets.running, hw.sockets.count_le, hw.sockets.socket, hw.sockets.distinct,
    hw.sockets.connected, hw.sockets.authenticated⟩,
    ⟨hw.queues.ring, hw.queues.waiting, hw.queues.holder⟩, ⟨hw.linked.given, hw.linked.login⟩⟩

theorem truthful_drawn {r : World} {sender recipient : Username} {data : Bytes} {status : UInt8} :
    Truthful (drawMessageId w).2 r sender recipient data status ↔
      Truthful w r sender recipient data status :=
  ⟨fun h ↦ ⟨h.queued, h.delivered, h.neither⟩, fun h ↦ ⟨h.queued, h.delivered, h.neither⟩⟩

section Answered

variable {id : UInt32} {recipient : Username} {data : Bytes} {relayed : UInt8 × World} {r : World}
  {e : Event}

theorem since_answered (hout : r.out = relayed.2.out ++ [e]) {es : List Event}
    (hes : relayed.2.out = w.out ++ es) : since w r = es ++ [e] := by
  rw [since, hout, hes, List.append_assoc, List.drop_left]

theorem Relayed.out (h : Relayed w i id recipient data relayed) :
    ∃ es, relayed.2.out = w.out ++ es ∧
      ∀ d ∈ es, ∀ n payload, d ≠ .frame n .messageAck payload none := by
  cases h with
  | failed _ _ ho => exact ⟨[], ho.trans (List.append_nil _).symm, by simp⟩
  | delivered _ _ _ _ _ _ _ ho => exact ⟨_, ho, by simp⟩
  | queued _ _ es _ _ _ _ _ _ ho hes => exact ⟨es, ho, fun d hd n payload ↦ hes d hd n _ _ _⟩
  | dropped es _ _ ho hes => exact ⟨es, ho, fun d hd n payload ↦ hes d hd n _ _ _⟩

theorem Relayed.status (h : Relayed w i id recipient data relayed) {fd : Fd} {status : UInt8}
    {id' : UInt32} (he : e = .frame fd .messageAck (ackPayload id' relayed.1) none ∨
      ∃ bytes, e = .torn fd bytes)
    (hout : r.out = relayed.2.out ++ [e]) (hack : Acked w i r status) : status = relayed.1 := by
  obtain ⟨es, hes, hno⟩ := h.out
  obtain ⟨n, id, _, hmem⟩ := hack
  rw [since_answered hout hes, List.mem_append, List.mem_singleton] at hmem
  obtain hold | rfl := hmem
  · exact absurd rfl (hno _ hold n _)
  · obtain h | ⟨_, h⟩ := he
    · injection h with _ _ hpayload _
      exact ackPayload_status hpayload
    · cases h

theorem Relayed.truthful (h : Relayed w i id recipient data relayed)
    (hserver : r.server = relayed.2.server) (hout : r.out = relayed.2.out ++ [e])
    (hquiet : Event.isIncoming e = false) (hr : Consistent r)
    (hsame : ∀ j, SameIdentity (w.server.clients j) (relayed.2.server.clients j)) :
    Truthful w r (w.server.clients i).username recipient data relayed.1 ↔
      Deliverable w i recipient data := by
  have hother : ∀ {a b : UInt8} {P : Prop}, relayed.1 = a → a ≠ b → relayed.1 = b → P :=
    fun ha hab hb ↦ absurd (ha.symm.trans hb) hab
  have hkeeps : (∀ l, pending (relayed.2.server.clients l) = pending (w.server.clients l)) →
      ∀ l, pending (r.server.clients l) = pending (w.server.clients l) := by
    intro hpend l
    rw [hserver]
    exact hpend l
  cases h with
  | failed hzero hcan ho hpend =>
    refine iff_of_true
      ⟨hother hzero (by decide), hother hzero (by decide), fun _ ↦ ⟨?_, hkeeps hpend⟩⟩ hcan
    rw [since_answered hout (ho.trans (List.append_nil _).symm)]
    simp [hquiet]
  | delivered j n t hone hcan hj hn ho hpend =>
    refine iff_of_true ⟨hother hone (by decide),
      fun _ ↦ ⟨⟨j, n, id, t, hn, hj, ?_⟩, hkeeps hpend⟩, hother hone (by decide)⟩ hcan
    have htail : [e].filter Event.isIncoming = [] := by simp [hquiet]
    rw [since_answered hout ho, List.filter_append, htail, List.append_nil]
    rfl
  | queued j m es htwo hcan hj hsender hrecipient hdata _ _ hself =>
    refine iff_of_true ⟨fun _ ↦ ⟨j, m, hsender, hrecipient, hdata, ?_, ?_⟩,
      hother htwo (by decide), hother htwo (by decide)⟩ hcan
    · rw [hserver]
      exact hself
    · refine Consistent.awaits hr ?_ ?_
      · rw [hserver, hself]
        simp
      · have hid := hsame j
        rw [hserver, hrecipient]
        unfold holds at hj ⊢
        rw [hid.connected, hid.authenticated, hid.username]
        exact hj
  | dropped es htwo hcannot _ _ hpend =>
    refine iff_of_false (fun htrue ↦ ?_) hcannot
    obtain ⟨j, m, _, _, _, hself, _⟩ := htrue.queued htwo
    rw [hserver, hpend j] at hself
    have hlonger := congrArg List.length hself
    rw [List.length_append, List.length_singleton] at hlonger
    omega

end Answered

theorem handleSendMessage_truthful {payload data : Bytes} {recipient : Username} {k : ℕ} {fd : Fd}
    {status : UInt8} (hw : Consistent w) (hw' : Consistent (handleSendMessage w i payload).2)
    (hparse : parseSendMessage payload = .ok (recipient, data))
    (hk : findUser w.server recipient = some k)
    (hfd : (w.server.clients i).socketFd = some fd)
    (hack : Acked w i (handleSendMessage w i payload).2 status) :
    Truthful w (handleSendMessage w i payload).2 (w.server.clients i).username recipient data
      status ↔ Deliverable w i recipient data := by
  obtain ⟨e, he, hserver, hout⟩ := handleSendMessage_answered (i := i) hparse hk hfd
  have hrelayed := @relay_relayed i _ (drawMessageId w).1 recipient data
    (drawMessageId_consistent hw) (parseSendMessage_data hparse)
  have hsame := fun j ↦ identity_neutral.relay (drawMessageId w).2 i (drawMessageId w).1 recipient
    data j
  have hquiet : Event.isIncoming e = false := by
    obtain rfl | ⟨bytes, rfl⟩ := he <;> rfl
  obtain rfl := hrelayed.status he hout hack
  exact truthful_drawn.symm.trans (hrelayed.truthful hserver hout hquiet hw' hsame)

/-- The world in which a request of slot `i` meets its handler. -/
def atHandler (verify : Signature → Challenge → Key → Bool) (xs : List Input) (i : ℕ)
    (stream : Bytes) (env : Env) : World :=
  (takeRequest { reach verify xs with env := env } i stream).2

theorem atHandler_consistent {xs : List Input} {stream payload : Bytes} {env : Env}
    (hconn : ((reach verify xs).server.clients i).connected = true)
    (hauth : ((reach verify xs).server.clients i).authenticated = true)
    (hreq : received (reach verify xs) i stream env = some (MessageType.sendMessage.code, payload)) :
    Consistent (atHandler verify xs i stream env) ∧
      Consistent (handleSendMessage (atHandler verify xs i stream env) i payload).2 ∧
      ∃ fd, ((atHandler verify xs i stream env).server.clients i).socketFd = some fd := by
  have hs := @reach_steady verify xs
  obtain ⟨fd, hfd⟩ := hs.sound.sockets.connected i hconn
  have hstart : Chain verify .any i (reach verify xs) { reach verify xs with env := env } :=
    Chain.of_silent ⟨rfl, rfl, rfl⟩
  obtain ⟨htake, hsame, hout⟩ := @takeRequest_chain verify .any i
    { reach verify xs with env := env } fd stream hfd
  obtain ⟨pre, hpre⟩ := hout _ _ hreq
  have hidentity := (hsame.identity i).1
  have hfd' : ((atHandler verify xs i stream env).server.clients i).socketFd = some fd :=
    hidentity.socketFd.trans hfd
  have hhandle := @handleSendMessage_chain verify .any i _ payload fd pre
    (hidentity.authenticated.trans hauth) hfd' hpre
  have hv := Chain.consistent (hstart.trans htake) hs.consistent
  exact ⟨hv, Chain.consistent hhandle hv, fd, hfd'⟩

/-- An acknowledgement tells the truth exactly when the recipient is connected
and its queue can take what the direct send could not deliver. -/
theorem ack_truthful_iff (verify : Signature → Challenge → Key → Bool) (xs : List Input) (i : ℕ)
    (stream payload data : Bytes) (env : Env) (recipient : Username) (status : UInt8)
    (hconn : ((reach verify xs).server.clients i).connected = true)
    (hauth : ((reach verify xs).server.clients i).authenticated = true)
    (hreq : received (reach verify xs) i stream env = some (MessageType.sendMessage.code, payload))
    (hparse : parseSendMessage payload = .ok (recipient, data))
    (hknown : (findUser (atHandler verify xs i stream env).server recipient).isSome)
    (hack : Acked (atHandler verify xs i stream env) i
      (handleSendMessage (atHandler verify xs i stream env) i payload).2 status) :
    Truthful (atHandler verify xs i stream env)
        (handleSendMessage (atHandler verify xs i stream env) i payload).2
        ((atHandler verify xs i stream env).server.clients i).username recipient data status ↔
      Deliverable (atHandler verify xs i stream env) i recipient data := by
  obtain ⟨hv, hr, fd, hfd⟩ := atHandler_consistent hconn hauth hreq
  obtain ⟨k, hk⟩ := Option.isSome_iff_exists.mp hknown
  exact handleSendMessage_truthful hv hr hparse hk hfd hack

def alice : Username := Username.ofBytes (text "alice")

def bob : Username := Username.ofBytes (text "bob")

def toBob : Bytes := sendPacket (text "bob") [1, 2]

def toBobPayload : Bytes := nameField (text "bob") ++ [0, 2, 1, 2]

theorem toBob_parsed : parseSendMessage toBobPayload = .ok (bob, [1, 2]) := rfl

theorem online_ack_truthful :
    Truthful (atHandler (fun _ _ _ ↦ true) (deliveredRun.take 6) 0 toBob .quiet)
        (handleSendMessage (atHandler (fun _ _ _ ↦ true) (deliveredRun.take 6) 0 toBob .quiet) 0
          toBobPayload).2
        ((atHandler (fun _ _ _ ↦ true) (deliveredRun.take 6) 0 toBob .quiet).server.clients
          0).username bob [1, 2] 1 ↔
      Deliverable (atHandler (fun _ _ _ ↦ true) (deliveredRun.take 6) 0 toBob .quiet) 0 bob
        [1, 2] :=
  ack_truthful_iff _ (deliveredRun.take 6) 0 toBob toBobPayload [1, 2] .quiet bob 1
    (by decide +kernel) (by decide +kernel) (by decide +kernel) toBob_parsed (by decide +kernel)
    ⟨0, 1, by decide +kernel, by decide +kernel⟩

theorem offline_ack_untrue :
    Acked (atHandler (fun _ _ _ ↦ true) (deliveredRun.take 5) 0 toBob .quiet) 0
        (handleSendMessage (atHandler (fun _ _ _ ↦ true) (deliveredRun.take 5) 0 toBob .quiet) 0
          toBobPayload).2 2 ∧
      ¬ Truthful (atHandler (fun _ _ _ ↦ true) (deliveredRun.take 5) 0 toBob .quiet)
        (handleSendMessage (atHandler (fun _ _ _ ↦ true) (deliveredRun.take 5) 0 toBob .quiet) 0
          toBobPayload).2 alice bob [1, 2] 2 := by
  have hack : Acked (atHandler (fun _ _ _ ↦ true) (deliveredRun.take 5) 0 toBob .quiet) 0
      (handleSendMessage (atHandler (fun _ _ _ ↦ true) (deliveredRun.take 5) 0 toBob .quiet) 0
        toBobPayload).2 2 := ⟨0, 1, by decide +kernel, by decide +kernel⟩
  have hname : ((atHandler (fun _ _ _ ↦ true) (deliveredRun.take 5) 0 toBob
      .quiet).server.clients 0).username = alice := by decide +kernel
  have hoffline : findClientByUsername (atHandler (fun _ _ _ ↦ true) (deliveredRun.take 5) 0 toBob
      .quiet).server bob = none := by decide +kernel
  have hknown : findUser (atHandler (fun _ _ _ ↦ true) (deliveredRun.take 5) 0 toBob
      .quiet).server bob = some 1 := by decide +kernel
  obtain ⟨hv, hr, fd, hfd⟩ := @atHandler_consistent (fun _ _ _ ↦ true) 0 (deliveredRun.take 5)
    toBob toBobPayload .quiet (by decide +kernel) (by decide +kernel) (by decide +kernel)
  refine ⟨hack, ?_⟩
  generalize atHandler (fun _ _ _ ↦ true) (deliveredRun.take 5) 0 toBob .quiet = v at *
  rw [← hname, handleSendMessage_truthful hv hr toBob_parsed hknown hfd hack]
  rintro ⟨j, hj, _⟩
  rw [hoffline] at hj
  cases hj

end CChat.Server.Acknowledgements
