import CChat.Server.Invariants
import CChat.Threads.Sections

namespace CChat.Threads.Messages

open CChat.Library CChat.Library.Circular CChat.Protocol.Types CChat.Server.State
  CChat.Server.Network CChat.Server.Users CChat.Server.Queue CChat.Server.Handlers
  CChat.Server.Effects CChat.Server.Views CChat.Server.Steps Machine Sections
open CChat.Server.Loop hiding Input step reach
open CChat.Server.Invariants hiding Turn step_turn

variable {verify : Signature → Challenge → Key → Bool} {u v w w' : World} {es es' : List Event}
  {i : ℕ} {c : Control}

def Event.isPlain : Event → Bool
  | .frame _ .messageAck _ _ => false
  | .frame _ .incomingMessage _ _ => false
  | .frame _ .userListResponse _ _ => false
  | .frame _ .statusUpdate _ _ => false
  | .queued _ => false
  | .login .. => false
  | _ => true

def MessageType.isPlain : MessageType → Bool
  | .messageAck => false
  | .incomingMessage => false
  | .userListResponse => false
  | .statusUpdate => false
  | _ => true

structure Plain (w : World) (es : List Event) (w' : World) : Prop where
  nextFd : w'.nextFd = w.nextFd
  nextMessageId : w'.server.nextMessageId = w.server.nextMessageId
  queue : ∀ j, (w'.server.clients j).queue = (w.server.clients j).queue
  out : w'.out = w.out ++ es
  events : ∀ e ∈ es, Event.isPlain e = true

theorem Plain.silent (h : Silent w w') : Plain w [] w' :=
  ⟨h.nextFd, by rw [h.server], fun j ↦ by rw [h.server], by rw [h.out, List.append_nil], by simp⟩

theorem Plain.event {e : Event} (hs : w'.server = w.server) (hn : w'.nextFd = w.nextFd)
    (ho : w'.out = w.out ++ [e]) (he : Event.isPlain e = true) : Plain w [e] w' :=
  ⟨hn, by rw [hs], fun j ↦ by rw [hs], ho, by simpa using he⟩

theorem Plain.refl (w : World) : Plain w [] w := .silent (.refl w)

theorem Plain.trans (h : Plain u es v) (h' : Plain v es' w) : Plain u (es ++ es') w := by
  refine ⟨h'.nextFd.trans h.nextFd, h'.nextMessageId.trans h.nextMessageId,
    fun j ↦ (h'.queue j).trans (h.queue j), by rw [h'.out, h.out, List.append_assoc],
    fun e he ↦ ?_⟩
  exact (List.mem_append.mp he).elim (h.events e) (h'.events e)

theorem modifyClient_plain (w : World) (j : ℕ) {f : ClientConnection → ClientConnection}
    (hf : (f (w.server.clients j)).queue = (w.server.clients j).queue) :
    Plain w [] (w.modifyClient j f) :=
  ⟨rfl, rfl, modifyClient_queue rfl hf, (List.append_nil _).symm, by simp⟩

theorem modifyUser_plain (w : World) (k : ℕ) (f : UserRecord → UserRecord) :
    Plain w [] (w.modifyUser k f) := ⟨rfl, rfl, fun _ ↦ rfl, (List.append_nil _).symm, by simp⟩

theorem malloc_plain (w : World) : Plain w [] (malloc w).2 := .silent (malloc_silent w)

theorem time_plain (w : World) : Plain w [] (time w).2 := .silent (time_silent w)

theorem sendNetworkMessage_plain (w : World) (fd : Option Fd) (type : MessageType) (payload : Bytes)
    (htype : MessageType.isPlain type = true) :
    ∃ es, Plain w es (sendNetworkMessage w fd type payload none).2 := by
  cases sendNetworkMessage_written w fd type payload none with
  | whole n _ _ hs hn ho =>
    refine ⟨[.frame n type payload none], .event hs hn ho ?_⟩
    cases type <;> first | rfl | cases htype
  | torn _ _ _ _ hs hn ho => exact ⟨_, .event hs hn ho rfl⟩
  | dead _ _ h => exact ⟨_, .silent h⟩

theorem refuse_plain (w : World) (i : ℕ) (e : Refusal) : ∃ es, Plain w es (refuse w i e).2 := by
  unfold refuse sendError
  dsimp only
  split
  · exact ⟨_, malloc_plain w⟩
  · obtain ⟨es, hes⟩ := sendNetworkMessage_plain (malloc w).2 (w.server.clients i).socketFd .error
      (errorPayload e.code (text e.message)) rfl
    exact ⟨_, (malloc_plain w).trans hes⟩

theorem takeRequest_plain (w : World) (i : ℕ) (stream : Bytes) :
    ∃ es, Plain w es (takeRequest w i stream).2 := by
  have hr : Plain w [] (receiveNetworkMessage w stream).2 :=
    .silent (receiveNetworkMessage_silent w stream)
  have hlimit : Plain w [] (checkRateLimit (receiveNetworkMessage w stream).2 i).2 := by
    obtain ⟨r, hs, ho, hn⟩ := checkRateLimit_server (receiveNetworkMessage w stream).2 i
    exact hr.trans
      ⟨hn, by rw [hs]; rfl, modifyClient_queue hs rfl, by rw [ho, List.append_nil], by simp⟩
  unfold takeRequest
  dsimp only
  split
  · exact ⟨_, hr⟩
  · exact ⟨_, hr⟩
  · split
    · obtain ⟨es, hes⟩ := refuse_plain (checkRateLimit (receiveNetworkMessage w stream).2 i).2 i
        ⟨.rateLimit, "Rate limit exceeded"⟩
      exact ⟨_, hlimit.trans hes⟩
    · have hcounted : Plain w []
          (updateRateLimit (checkRateLimit (receiveNetworkMessage w stream).2 i).2 i) :=
        hlimit.trans (modifyClient_plain _ i rfl)
      split
      · exact ⟨_, hcounted⟩
      · exact ⟨_, hcounted.trans (.event rfl rfl rfl rfl)⟩

def Rings (w : World) : Prop := ∀ j, WellFormed messageQueueSize (w.server.clients j).queue

/-- Why a step of the handler of slot `i` writes an entry of the history. -/
inductive Told (w : World) (i : ℕ) (c : Control) (w' : World) : Event → Prop
  | other (e : Event) (he : Event.isPlain e = true) : Told w i c w' e
  | reply (fd : Fd) (type : MessageType) (payload : Bytes) (hc : c = .replying type payload) :
      Told w i c w' (.frame fd type payload none)
  | direct (fd : Fd) (id : UInt32) (recipient sender : Username) (now : ℤ) (data : Bytes) (j : ℕ)
      (hc : c = .sending id recipient data j) :
      Told w i c w' (.frame fd .incomingMessage (directPayload id sender now data) none)
  | update (fd : Fd) (username : Username) (status : UserStatus) (j : ℕ) (after : After)
      (hc : c = .sweeping username status j after) :
      Told w i c w' (.frame fd .statusUpdate (statusPayload username status) none)
  | login (fd : Fd) (k : ℕ) (username : Username) (signature : Signature) (challenge : Challenge)
      (key : Key) (hc : c = .accrediting k username signature) :
      Told w i c w' (.login fd username signature challenge key)
  | queued (m : StoredMessage) (hc : ∃ id recipient data j, c = .storing id recipient data j)
      (hid : m.messageId = w.server.nextMessageId)
      (hnext : w'.server.nextMessageId = w.server.nextMessageId + 1) : Told w i c w' (.queued m)
  | fetched (fd : Fd) (m : StoredMessage) (hc : c = .delivering ∨ c = .fetching)
      (hm : m ∈ CChat.Server.Invariants.pending (w.server.clients i)) :
      Told w i c w' (.frame fd .incomingMessage (queuedPayload m) (some m))

structure Handled (w : World) (i : ℕ) (c : Control) (es : List Event) (w' : World) : Prop where
  nextFd : w.nextFd ≤ w'.nextFd
  out : w'.out = w.out ++ es
  told : ∀ e ∈ es, Told w i c w' e
  nextMessageId : w'.server.nextMessageId = w.server.nextMessageId ∨
    w'.server.nextMessageId = w.server.nextMessageId + 1
  rings : Rings w'
  pending : ∀ j, ∀ m ∈ CChat.Server.Invariants.pending (w'.server.clients j),
    m ∈ CChat.Server.Invariants.pending (w.server.clients j) ∨ .queued m ∈ es

theorem Plain.rings (h : Plain w es w') (hw : Rings w) : Rings w' := fun j ↦ h.queue j ▸ hw j

theorem Plain.pending (h : Plain w es w') (j : ℕ) :
    CChat.Server.Invariants.pending (w'.server.clients j) =
      CChat.Server.Invariants.pending (w.server.clients j) := by
  simp only [CChat.Server.Invariants.pending, h.queue j]

theorem Plain.handled (h : Plain w es w') (hw : Rings w) : Handled w i c es w' :=
  ⟨h.nextFd.ge, h.out, fun e he ↦ .other e (h.events e he), .inl h.nextMessageId, h.rings hw,
    fun j _ hm ↦ .inl (h.pending j ▸ hm)⟩

/-- The loop of `deliver_queued_messages` sends only what waits in the queue. -/
structure Fetched (w : World) (i : ℕ) (es : List Event) (w' : World) : Prop where
  nextFd : w'.nextFd = w.nextFd
  out : w'.out = w.out ++ es
  told : ∀ e ∈ es, Event.isPlain e = true ∨
    ∃ fd m, m ∈ CChat.Server.Invariants.pending (w.server.clients i) ∧
      e = .frame fd .incomingMessage (queuedPayload m) (some m)
  nextMessageId : w'.server.nextMessageId = w.server.nextMessageId
  rings : Rings w'
  pending : ∀ j, ∀ m ∈ CChat.Server.Invariants.pending (w'.server.clients j),
    m ∈ CChat.Server.Invariants.pending (w.server.clients j)

theorem Plain.fetched (h : Plain w es w') (hw : Rings w) : Fetched w i es w' :=
  ⟨h.nextFd, h.out, fun e he ↦ .inl (h.events e he), h.nextMessageId, h.rings hw,
    fun j _ hm ↦ h.pending j ▸ hm⟩

theorem Fetched.trans (h : Fetched u i es v) (h' : Fetched v i es' w) :
    Fetched u i (es ++ es') w := by
  refine ⟨h'.nextFd.trans h.nextFd, by rw [h'.out, h.out, List.append_assoc], fun e he ↦ ?_,
    h'.nextMessageId.trans h.nextMessageId, h'.rings,
    fun j m hm ↦ h.pending j m (h'.pending j m hm)⟩
  obtain he | he := List.mem_append.mp he
  · exact h.told e he
  · obtain hother | ⟨fd, m, hm, rfl⟩ := h'.told e he
    · exact .inl hother
    · exact .inr ⟨fd, m, h.pending i m hm, rfl⟩

theorem Fetched.handled (h : Fetched w i es w') (hc : c = .delivering ∨ c = .fetching) :
    Handled w i c es w' := by
  refine ⟨h.nextFd.ge, h.out, fun e he ↦ ?_, .inl h.nextMessageId, h.rings,
    fun j m hm ↦ .inl (h.pending j m hm)⟩
  obtain hother | ⟨fd, m, hm, rfl⟩ := h.told e he
  · exact .other e hother
  · exact .fetched fd m hc hm

theorem requeue_rings (hw : Rings w) (j : ℕ) {q : ClientConnection → Buffer StoredMessage}
    (hs : w'.server = (w.modifyClient j (fun c ↦ { c with queue := q c })).server)
    (hq : WellFormed messageQueueSize (q (w.server.clients j))) : Rings w' := by
  intro l
  by_cases hl : l = j
  · subst hl
    rw [modifyClient_at hs]
    exact hq
  · rw [modifyClient_off hs l hl]
    exact hw l

theorem requeue_pending (j : ℕ) {q : ClientConnection → Buffer StoredMessage}
    (hs : w'.server = (w.modifyClient j (fun c ↦ { c with queue := q c })).server)
    {P : StoredMessage → Prop}
    (hq : ∀ m ∈ window messageQueueSize (q (w.server.clients j)),
      m ∈ window messageQueueSize (w.server.clients j).queue ∨ P m) (l : ℕ) (m : StoredMessage)
    (hm : m ∈ CChat.Server.Invariants.pending (w'.server.clients l)) :
    m ∈ CChat.Server.Invariants.pending (w.server.clients l) ∨ P m := by
  by_cases hl : l = j
  · subst hl
    rw [modifyClient_at hs] at hm
    exact hq m hm
  · rw [modifyClient_off hs l hl] at hm
    exact .inl hm

theorem requeue_fetched (hw : Rings w) {q : ClientConnection → Buffer StoredMessage}
    (hring : WellFormed messageQueueSize (q (w.server.clients i)))
    (hq : ∀ m ∈ window messageQueueSize (q (w.server.clients i)),
      m ∈ window messageQueueSize (w.server.clients i).queue) :
    Fetched w i [] (w.modifyClient i (fun c ↦ { c with queue := q c })) := by
  refine ⟨rfl, (List.append_nil _).symm, by simp, rfl, requeue_rings hw i rfl hring, fun j m hm ↦ ?_⟩
  exact (requeue_pending i rfl (P := fun _ ↦ False) (fun m hm ↦ .inl (hq m hm)) j m hm).resolve_right
    not_false

theorem deliverLoop_fetched (i n : ℕ) (delivered : ℤ) (hw : Rings w) :
    ∃ es, Fetched w i es (deliverLoop i n delivered w).2 := by
  induction n generalizing delivered w with
  | zero => exact ⟨_, (Plain.refl w).fetched hw⟩
  | succ n ih =>
    unfold deliverLoop
    dsimp only
    split
    next hcount =>
      have hwindow := window_cons (hw i) hcount
      split
      · have hskip := requeue_fetched hw (q := fun c ↦ advanceHead messageQueueSize c.queue)
          (advanceHead_wellFormed (hw i) hcount)
          (fun m hm ↦ hwindow ▸ List.mem_cons_of_mem _ hm)
        obtain ⟨es, hes⟩ := ih delivered hskip.rings
        exact ⟨_, hskip.trans hes⟩
      · have hroom := (malloc_plain w).fetched (i := i) hw
        split
        · exact ⟨_, hroom⟩
        · have hhead : (w.server.clients i).queue.cells (w.server.clients i).queue.head ∈
              CChat.Server.Invariants.pending (w.server.clients i) := by
            rw [CChat.Server.Invariants.pending, hwindow]
            exact List.mem_cons_self
          generalize hmessage : (w.server.clients i).queue.cells (w.server.clients i).queue.head = m
            at hhead ⊢
          have hwritten := sendNetworkMessage_written (malloc w).2 (w.server.clients i).socketFd
            .incomingMessage (queuedPayload m) (some m)
          generalize sendNetworkMessage (malloc w).2 (w.server.clients i).socketFd
            .incomingMessage (queuedPayload m) (some m) = sent at hwritten ⊢
          obtain ⟨result, v⟩ := sent
          cases hwritten with
          | whole fd _ hr hs hn ho =>
            have hserver : v.server = w.server := hs.trans (malloc_server w)
            have hsent : Fetched w i [.frame fd .incomingMessage (queuedPayload m) (some m)] v := by
              refine ⟨hn.trans (malloc_silent w).nextFd, by rw [ho, malloc_out], ?_,
                by rw [hserver], fun j ↦ by rw [hserver]; exact hw j,
                fun j _ hm ↦ by rw [hserver] at hm; exact hm⟩
              intro e he
              exact .inr ⟨fd, m, hhead, List.mem_singleton.mp he⟩
            have hqueue : v.server.clients i = w.server.clients i := by rw [hserver]
            have htaken := requeue_fetched hsent.rings
              (q := fun c ↦ advanceHead messageQueueSize (writeHead c.queue (StoredMessage.spent m)))
              (advanceHead_wellFormed (writeHead_wellFormed (hsent.rings i) _) (hqueue ▸ hcount))
              (by
                rw [writeHead_advance_window (hsent.rings i) (hqueue ▸ hcount), hqueue]
                exact fun m hm ↦ hwindow ▸ List.mem_cons_of_mem _ hm)
            obtain ⟨es, hes⟩ := ih (delivered + 1) htaken.rings
            rw [if_pos hr]
            exact ⟨_, (hsent.trans htaken).trans hes⟩
          | torn fd bytes _ hr hs hn ho =>
            rw [if_neg (by rw [hr]; decide)]
            exact ⟨_, hroom.trans ((Plain.event hs hn ho rfl).fetched hroom.rings)⟩
          | dead _ hr h =>
            rw [if_neg (by rw [hr]; decide)]
            exact ⟨_, hroom.trans ((Plain.silent h).fetched hroom.rings)⟩
    · exact ⟨_, (Plain.refl w).fetched hw⟩

theorem deliverQueuedMessages_fetched (i : ℕ) (hw : Rings w) :
    ∃ es, Fetched w i es (deliverQueuedMessages w i).2 := by
  unfold deliverQueuedMessages
  split
  · exact ⟨_, (Plain.refl w).fetched hw⟩
  · exact deliverLoop_fetched i _ 0 hw

theorem requeue_handled {j : ℕ} (hw : Rings w) (hv : v.server.clients = w.server.clients)
    {q : ClientConnection → Buffer StoredMessage}
    (hs : w'.server = (v.modifyClient j (fun c ↦ { c with queue := q c })).server)
    (hn : w'.nextFd = w.nextFd) (hnext : w'.server.nextMessageId = w.server.nextMessageId + 1)
    (ho : w'.out = w.out ++ es) (htold : ∀ e ∈ es, Told w i c w' e)
    (hring : WellFormed messageQueueSize (q (w.server.clients j)))
    (hq : ∀ m ∈ window messageQueueSize (q (w.server.clients j)),
      m ∈ window messageQueueSize (w.server.clients j).queue ∨ .queued m ∈ es) :
    Handled w i c es w' := by
  have hrings : Rings v := fun l ↦ by rw [hv]; exact hw l
  refine ⟨hn.ge, ho, htold, .inr hnext, requeue_rings hrings j hs (by rw [hv]; exact hring),
    fun l m hm ↦ ?_⟩
  rw [← hv]
  exact requeue_pending j hs (P := fun m ↦ .queued m ∈ es) (by rw [hv]; exact hq) l m hm

theorem storeMessage_handled (hw : Rings w) (id : UInt32) (recipient sender : Username)
    (data : Bytes) (j : ℕ) :
    ∃ es, Handled w i (.storing id recipient data j) es
      (storeMessage w j recipient sender data) := by
  unfold storeMessage
  split
  · exact ⟨_, (Plain.refl w).handled hw⟩
  next hfull =>
    have hroom : (w.server.clients j).queue.count < messageQueueSize := by omega
    dsimp only
    generalize hv : ({ w with server :=
      { w.server with nextMessageId := w.server.nextMessageId + 1 } } : World) = drawn
    have hsilent : Silent drawn (malloc (time drawn).2).2 :=
      (time_silent drawn).trans (malloc_silent _)
    generalize malloc (time drawn).2 = allocated at hsilent ⊢
    obtain ⟨ok, v⟩ := allocated
    dsimp only at hsilent ⊢
    have hclients : v.server.clients = w.server.clients := by rw [hsilent.server, ← hv]
    have hnext : v.server.nextMessageId = w.server.nextMessageId + 1 := by
      rw [hsilent.server, ← hv]
    have hout : v.out = w.out := by rw [hsilent.out, ← hv]
    have hn : v.nextFd = w.nextFd := by rw [hsilent.nextFd, ← hv]
    split
    · refine ⟨[], requeue_handled hw hclients rfl hn hnext (by simp [hout]) (by simp)
        (writeTail_wellFormed (hw j) _) (fun m hm ↦ ?_)⟩
      rw [writeTail_window (hw j) hroom] at hm
      exact .inl hm
    · refine ⟨_, requeue_handled hw hclients (emit_server _ _) hn hnext
        (by rw [emit_out, modifyClient_out, hout]) ?_ (push_wellFormed (hw j) hroom _) (fun m hm ↦ ?_)⟩
      · intro e he
        rw [List.mem_singleton.mp he]
        exact .queued _ ⟨id, recipient, data, j, rfl⟩ rfl hnext
      · rw [push_window (hw j) hroom] at hm
        exact (List.mem_append.mp hm).imp (fun hm ↦ hm)
          (fun hm ↦ by rw [List.mem_singleton.mp hm]; exact List.mem_cons_self)

theorem sent_handled (hw : Rings w) (hv : Silent w v)
    (fd : Option Fd) (type : MessageType) (payload : Bytes)
    (htold : ∀ n, Told w i c (sendNetworkMessage v fd type payload none).2
      (.frame n type payload none)) :
    ∃ es, Handled w i c es (sendNetworkMessage v fd type payload none).2 := by
  have hsame : ∀ {v' es}, v'.server = v.server → v'.nextFd = v.nextFd → v'.out = v.out ++ es →
      (∀ e ∈ es, Told w i c v' e) → Handled w i c es v' := by
    intro v' es hs' hn' ho' htold'
    have hserver : v'.server = w.server := hs'.trans hv.server
    exact ⟨(hn'.trans hv.nextFd).ge, by rw [ho', hv.out], htold', .inl (by rw [hserver]),
      fun j ↦ by rw [hserver]; exact hw j, fun j m hm ↦ .inl (by rwa [hserver] at hm)⟩
  cases sendNetworkMessage_written v fd type payload none with
  | whole n _ _ hs' hn' ho' =>
    refine ⟨_, hsame hs' hn' ho' (fun e he ↦ ?_)⟩
    rw [List.mem_singleton.mp he]
    exact htold n
  | torn n bytes _ _ hs' hn' ho' =>
    refine ⟨_, hsame hs' hn' ho' (fun e he ↦ ?_)⟩
    rw [List.mem_singleton.mp he]
    exact .other _ rfl
  | dead _ _ h => exact ⟨[], hsame h.server h.nextFd (by rw [h.out, List.append_nil]) (by simp)⟩

theorem sending_handled (hw : Rings w) (id : UInt32) (recipient : Username) (data : Bytes) (j : ℕ) :
    ∃ es, Handled w i (.sending id recipient data j) es
      (proceed verify w i (.sending id recipient data j)).1 := by
  have hroom : Plain w [] (malloc (time w).2).2 := (time_plain w).trans (malloc_plain _)
  simp only [proceed]
  split
  · exact ⟨_, hroom.handled hw⟩
  · have hsent := sent_handled (i := i) (c := .sending id recipient data j) hw
      ((time_silent w).trans (malloc_silent _)) (w.server.clients j).socketFd .incomingMessage
      (directPayload id (w.server.clients i).username (time w).1 data)
      (fun n ↦ .direct n id recipient _ _ data j rfl)
    split
    · exact hsent
    · exact hsent

theorem shutting_handled (hw : Rings w) (i : ℕ) :
    ∃ es, Handled w i .shutting es (proceed verify w i .shutting).1 := by
  have hsocket : ∃ es, Plain w es (closeSocket w i) := by
    unfold closeSocket
    split
    · exact ⟨_, .refl w⟩
    · exact ⟨_, .event rfl rfl rfl rfl⟩
  obtain ⟨es, hclosed⟩ := hsocket
  have hserver : (proceed verify w i .shutting).1.server.clients = fun j ↦
      if j = i then { (closeSocket w i).server.clients i with
        socketFd := none, connected := false, authenticated := false, username := Username.empty
        queue := reset ((closeSocket w i).server.clients i).queue }
      else (closeSocket w i).server.clients j := by
    funext j
    by_cases hj : j = i
    · rw [if_pos hj, hj]
      exact modifyClient_self _ _ _
    · rw [if_neg hj]
      exact modifyClient_other _ _ hj
  refine ⟨es, hclosed.nextFd.ge, hclosed.out, fun e he ↦ .other e (hclosed.events e he),
    .inl hclosed.nextMessageId, fun j ↦ ?_, fun j m hm ↦ ?_⟩
  · rw [hserver]
    dsimp only
    split
    · exact reset_wellFormed (by decide) _
    · exact hclosed.rings hw j
  · rw [hserver] at hm
    dsimp only at hm
    split at hm
    · rw [CChat.Server.Invariants.pending, window_reset] at hm
      cases hm
    · exact .inl (hclosed.pending j ▸ hm)

theorem proceed_handled (hw : Rings w) (i : ℕ) (c : Control) :
    ∃ es, Handled w i c es (proceed verify w i c).1 := by
  have hplain : ∀ {v es}, Plain w es v → ∃ es, Handled w i c es v := fun h ↦ ⟨_, h.handled hw⟩
  have hsame := hplain (.refl w)
  have hmalloc := hplain (malloc_plain w)
  cases c with
  | refusing e =>
    obtain ⟨es, hes⟩ := refuse_plain w i e
    exact hplain hes
  | replying type payload =>
    exact sent_handled hw (.refl w) _ type payload (fun n ↦ .reply n type payload rfl)
  | registering username key =>
    have hadd : Plain w [] (addUser w username key).2 := by
      unfold addUser
      split_ifs
      · exact .refl w
      · exact .refl w
      · exact .refl w
      · exact ⟨rfl, rfl, fun _ ↦ rfl, (List.append_nil _).symm, by simp⟩
    exact hplain hadd
  | accrediting k username signature =>
    simp only [proceed]
    have hset := modifyClient_plain w i
      (f := fun c ↦ { c with authenticated := true, username := username }) rfl
    split
    · exact hsame
    · split
      · exact hplain hset
      · have hlogin := hset.handled (i := i) (c := .accrediting k username signature) hw
        refine ⟨[_], Nat.le_refl _, rfl, fun e he ↦ ?_, .inl rfl, hlogin.rings, fun j m hm ↦ .inl ?_⟩
        · rw [List.mem_singleton.mp he]
          exact .login _ k username signature _ _ rfl
        · exact (hlogin.pending j m hm).resolve_right List.not_mem_nil
  | onlining k username =>
    simp only [proceed]
    exact hplain (modifyUser_plain w k _)
  | announcing username status after =>
    simp only [proceed]
    split
    · exact hmalloc
    · exact hmalloc
  | sweeping username status j after =>
    simp only [proceed]
    split
    · split
      · exact sent_handled hw (.refl w) _ .statusUpdate (statusPayload username status)
          (fun n ↦ .update n username status j after rfl)
      · exact hsame
    · exact hsame
  | delivering =>
    obtain ⟨es, hes⟩ := deliverQueuedMessages_fetched i hw
    exact ⟨es, hes.handled (.inl rfl)⟩
  | drawing recipient data =>
    exact ⟨[], Nat.le_refl _, (List.append_nil _).symm, by simp, .inr rfl, hw, fun j m hm ↦ .inl hm⟩
  | sending id recipient data j => exact sending_handled hw id recipient data j
  | storing id recipient data j => exact storeMessage_handled hw id recipient _ data j
  | fetching =>
    obtain ⟨es, hes⟩ := deliverQueuedMessages_fetched i hw
    exact ⟨es, hes.handled (.inr rfl)⟩
  | settingUser k status =>
    simp only [proceed]
    exact hplain (modifyUser_plain w k _)
  | settingClient status =>
    simp only [proceed]
    exact hplain (modifyClient_plain w i rfl)
  | listing =>
    simp only [proceed]
    split
    · exact hmalloc
    · exact hmalloc
  | hangingUp =>
    simp only [proceed]
    exact hplain (modifyClient_plain w i rfl)
  | offlining k =>
    simp only [proceed]
    exact hplain (modifyUser_plain w k _)
  | shutting => exact shutting_handled hw i
  | _ =>
    simp only [proceed]
    repeat' split
    all_goals exact hsame

theorem acceptClient_handled (hw : Rings w) (challenge : Challenge) (created : Bool) :
    ∃ es, Handled w i c es (acceptClient w challenge created) := by
  cases acceptClient_accepted w challenge created with
  | full hs hn ho =>
    exact ⟨_, Nat.le.intro hn.symm, ho, fun e he ↦ .other e (by rw [List.mem_singleton.mp he]; rfl),
      .inl (by rw [hs]), fun j ↦ by rw [hs]; exact hw j, fun j m hm ↦ .inl (by rwa [hs] at hm)⟩
  | slot k es _ _ hself hother _ _ husers hn ho hes =>
    refine ⟨es, Nat.le.intro hn.symm, ho, fun e he ↦ .other e ?_, .inl husers.2.2, fun j ↦ ?_,
      fun j m hm ↦ ?_⟩
    · obtain rfl | rfl := hes
      · cases he
      · rw [List.mem_singleton.mp he]
        rfl
    · by_cases hj : j = k
      · rw [hj, hself]
        exact zero_wellFormed (by decide) _
      · rw [hother j hj]
        exact hw j
    · by_cases hj : j = k
      · rw [hj, hself] at hm
        cases hm
      · rw [hother j hj] at hm
        exact .inl hm

theorem environment_handled (hw : Rings w) (env : Env) :
    Handled w i c [] { w with env := env } :=
  Plain.handled ⟨rfl, rfl, fun _ ↦ rfl, (List.append_nil _).symm, by simp⟩ hw

def stepping (m : Pool) : Input → Control
  | .go h => ((m.handlers h).map Handler.control).getD .done
  | _ => .done

theorem step_handled {m : Pool} (hw : Rings m.world) (x : Input) :
    ∃ i es, Handled m.world i (stepping m x) es (step verify m x).world := by
  cases step_turn m x with
  | idle h =>
    rw [h]
    exact ⟨0, _, (Plain.refl _).handled hw⟩
  | accept challenge created _ _ h =>
    rw [h, acceptHandler_world]
    exact ⟨0, acceptClient_handled hw challenge created⟩
  | receive h stream i _ _ hm =>
    rw [hm, Pool.put, receiveRequest_world]
    obtain ⟨es, hes⟩ := takeRequest_plain m.world i stream
    exact ⟨i, es, hes.handled hw⟩
  | go h i c hx hh _ hm =>
    have hc : stepping m x = c := by rw [hx, stepping, hh]; rfl
    rw [hm, hc]
    exact ⟨i, proceed_handled hw i c⟩
  | environment env _ hm =>
    rw [hm]
    exact ⟨0, _, environment_handled hw env⟩

end CChat.Threads.Messages
