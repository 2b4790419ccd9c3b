import CChat.Library.Boxes
import CChat.Server.Conservation
import CChat.Threads.Messages

namespace CChat.Threads.Queues

open CChat.Library CChat.Library.Circular CChat.Library.Runs CChat.Protocol.Types
  CChat.Server.State CChat.Server.Network CChat.Server.Users CChat.Server.Queue
  CChat.Server.Handlers CChat.Server.Effects CChat.Server.Views CChat.Server.Steps Machine
  Sections Messages
open CChat.Server.Loop hiding Input step reach
open CChat.Server.Invariants hiding Turn step_turn
open CChat.Server.Conservation (Event.accepted Event.written)

variable {verify : Signature → Challenge → Key → Bool} {u v w w' : World} {i j : ℕ} {c : Control}
  {es : List Event}

def queues (w : World) (j : ℕ) : List StoredMessage := pending (w.server.clients j)

abbrev Move : Type := Boxes.Act ℕ StoredMessage

structure Ready (w : World) : Prop where
  rings : Rings w
  fresh : ∀ j, ∀ m ∈ queues w j, m.delivered = false

/-- What was done to the queues between the two worlds, with an entry of the
history for each message that came in or was handed over. -/
structure Moves (w : World) (acts : List Move) (w' : World) : Prop where
  fits : Along Boxes.act Boxes.Fits (queues w) acts
  ends : run Boxes.act (queues w) acts = queues w'
  events : ∃ es, w'.out = w.out ++ es ∧
    es.filterMap Event.accepted = (acts.filterMap Boxes.Act.arrival).map Prod.snd ∧
    es.filterMap Event.written = (acts.filterMap Boxes.Act.departure).map Prod.snd
  ready : Ready w'

theorem Moves.trans {acts acts' : List Move} (h : Moves u acts v) (h' : Moves v acts' w) :
    Moves u (acts ++ acts') w := by
  obtain ⟨es, ho, hin, hout⟩ := h.events
  obtain ⟨es', ho', hin', hout'⟩ := h'.events
  refine ⟨h.fits.append (h.ends ▸ h'.fits), ?_, ⟨es ++ es', ?_, ?_, ?_⟩, h'.ready⟩
  · rw [run_append, h.ends, h'.ends]
  · rw [ho', ho, List.append_assoc]
  · rw [List.filterMap_append, List.filterMap_append, List.map_append, hin, hin']
  · rw [List.filterMap_append, List.filterMap_append, List.map_append, hout, hout']

def Aside (e : Event) : Prop := Event.accepted e = none ∧ Event.written e = none

theorem filterMap_aside (h : ∀ e ∈ es, Aside e) :
    es.filterMap Event.accepted = [] ∧ es.filterMap Event.written = [] :=
  ⟨List.filterMap_eq_nil_iff.mpr (fun e he ↦ (h e he).1),
    List.filterMap_eq_nil_iff.mpr (fun e he ↦ (h e he).2)⟩

theorem queues_congr (h : ∀ j, (w'.server.clients j).queue = (w.server.clients j).queue) :
    queues w' = queues w := by
  funext j
  rw [queues, queues, pending, pending, h j]

theorem Ready.congr (hw : Ready w)
    (h : ∀ j, (w'.server.clients j).queue = (w.server.clients j).queue) : Ready w' :=
  ⟨fun j ↦ h j ▸ hw.rings j, by rw [queues_congr h]; exact hw.fresh⟩

theorem Moves.still (hw : Ready w)
    (hq : ∀ j, (w'.server.clients j).queue = (w.server.clients j).queue)
    (ho : w'.out = w.out ++ es) (hes : ∀ e ∈ es, Aside e) : Moves w [] w' :=
  ⟨trivial, (queues_congr hq).symm, ⟨es, ho, filterMap_aside hes⟩, hw.congr hq⟩

theorem Moves.same (hw : Ready w)
    (hq : ∀ j, (w'.server.clients j).queue = (w.server.clients j).queue) (ho : w'.out = w.out) :
    Moves w [] w' :=
  .still hw hq (ho.trans (List.append_nil _).symm) (fun _ he ↦ absurd he List.not_mem_nil)

theorem Moves.refl (hw : Ready w) : Moves w [] w := .same hw (fun _ ↦ rfl) rfl

theorem aside_plain {e : Event} (h : Event.isPlain e = true) : Aside e := by
  cases e with
  | frame fd type payload entry => cases type <;> first | exact ⟨rfl, rfl⟩ | cases h
  | queued m => cases h
  | _ => exact ⟨rfl, rfl⟩

theorem Plain.moves (h : Plain w es w') (hw : Ready w) : Moves w [] w' :=
  .still hw h.queue h.out (fun e he ↦ aside_plain (h.events e he))

theorem aside_frame (fd : Fd) (type : MessageType) (payload : Bytes) :
    Aside (.frame fd type payload none) := by
  cases type <;> exact ⟨rfl, rfl⟩

theorem send_moves (hw : Ready w) (fd : Option Fd) (type : MessageType) (payload : Bytes) :
    Moves w [] (sendNetworkMessage w fd type payload none).2 := by
  have hq : ∀ {v : World}, v.server = w.server →
      ∀ j, (v.server.clients j).queue = (w.server.clients j).queue := fun hs j ↦ by rw [hs]
  cases sendNetworkMessage_written w fd type payload none with
  | whole n _ _ hs _ ho =>
    exact .still hw (hq hs) ho (by simpa using aside_frame n type payload)
  | torn n bytes _ _ hs _ ho => exact .still hw (hq hs) ho (by simp [Aside, Event.accepted, Event.written])
  | dead _ _ h => exact .same hw (hq h.server) h.out

theorem queues_update {ring : Buffer StoredMessage} (hother : ∀ l, l ≠ j →
      (w'.server.clients l).queue = (w.server.clients l).queue)
    (hself : (w'.server.clients j).queue = ring) :
    queues w' = Function.update (queues w) j (window messageQueueSize ring) := by
  funext l
  by_cases hl : l = j
  · subst hl
    rw [Function.update_self, queues, pending, hself]
  · rw [Function.update_of_ne hl, queues, queues, pending, pending, hother l hl]

theorem Ready.update {ring : Buffer StoredMessage} (hw : Ready w) (hother : ∀ l, l ≠ j →
      (w'.server.clients l).queue = (w.server.clients l).queue)
    (hself : (w'.server.clients j).queue = ring) (hring : WellFormed messageQueueSize ring)
    (hfresh : ∀ m ∈ window messageQueueSize ring, m.delivered = false) : Ready w' := by
  refine ⟨fun l ↦ ?_, fun l ↦ ?_⟩
  · by_cases hl : l = j
    · rw [hl, hself]
      exact hring
    · rw [hother l hl]
      exact hw.rings l
  · rw [queues_update hother hself]
    by_cases hl : l = j
    · rw [hl, Function.update_self]
      exact hfresh
    · rw [Function.update_of_ne hl]
      exact hw.fresh l

/-- The first message of a queue is written out and taken off the ring. -/
theorem taken_moves {m : StoredMessage} {fd : Fd} (hw : Ready w)
    (hcount : 0 < (w.server.clients i).queue.count)
    (hm : m = (w.server.clients i).queue.cells (w.server.clients i).queue.head)
    (hs : w'.server = (w.modifyClient i (fun c ↦ { c with
      queue := advanceHead messageQueueSize (writeHead c.queue (StoredMessage.spent m)) })).server)
    (ho : w'.out = w.out ++ [.frame fd .incomingMessage (queuedPayload m) (some m)]) :
    Moves w [.take i m] w' := by
  have hself := congrArg ClientConnection.queue (modifyClient_at hs)
  have hother : ∀ l, l ≠ i → (w'.server.clients l).queue = (w.server.clients l).queue :=
    fun l hl ↦ congrArg ClientConnection.queue (modifyClient_off hs l hl)
  have hrest := writeHead_advance_window (hw.rings i) hcount (StoredMessage.spent m)
  have hqueue : queues w i = m :: window messageQueueSize
      (advanceHead messageQueueSize (w.server.clients i).queue) := by
    rw [hm]
    exact window_cons (hw.rings i) hcount
  refine ⟨⟨?_, trivial⟩, ?_, ⟨_, ho, rfl, ?_⟩, hw.update hother hself ?_ ?_⟩
  · rw [Boxes.Fits, hqueue]
    rfl
  · rw [queues_update hother hself, hrest, run_cons, run_nil, Boxes.act, hqueue]
    rfl
  · simp [Event.written, Boxes.Act.departure]
  · exact advanceHead_wellFormed (writeHead_wellFormed (hw.rings i) _) hcount
  · rw [hrest]
    intro m' hm'
    exact hw.fresh i m' (hqueue ▸ List.mem_cons_of_mem m hm')

/-- The loop of `deliver_queued_messages` hands over the first messages of the
queue, each as it leaves. -/
theorem deliverLoop_moves (i n : ℕ) (delivered : ℤ) (hw : Ready w) :
    ∃ acts : List Move, Moves w acts (deliverLoop i n delivered w).2 ∧ ∀ j, .clear j ∉ acts := by
  induction n generalizing delivered w with
  | zero => exact ⟨[], .refl hw, fun _ ↦ List.not_mem_nil⟩
  | succ n ih =>
    unfold deliverLoop
    dsimp only
    split
    next hcount =>
      have hwindow := window_cons (hw.rings i) hcount
      have hhead : (w.server.clients i).queue.cells (w.server.clients i).queue.head ∈ queues w i := by
        rw [queues, pending, hwindow]
        exact List.mem_cons_self
      rw [if_neg (by rw [hw.fresh i _ hhead]; decide)]
      have hroom := Plain.moves (malloc_plain w) hw
      split
      · exact ⟨[], hroom, fun _ ↦ List.not_mem_nil⟩
      · generalize hmessage : (w.server.clients i).queue.cells (w.server.clients i).queue.head = m
          at hwindow ⊢
        have hwritten := sendNetworkMessage_written (malloc w).2 (w.server.clients i).socketFd
          .incomingMessage (queuedPayload m) (some m)
        generalize sendNetworkMessage (malloc w).2 (w.server.clients i).socketFd
          .incomingMessage (queuedPayload m) (some m) = sent at hwritten ⊢
        obtain ⟨result, v⟩ := sent
        cases hwritten with
        | whole fd _ hr hs _ ho =>
          have hserver : v.server = w.server := hs.trans (malloc_server w)
          rw [malloc_out] at ho
          rw [if_pos hr]
          have hchange : ∀ f, (v.modifyClient i f).server = (w.modifyClient i f).server :=
            fun f ↦ by simp only [World.modifyClient, hserver]
          have htaken := taken_moves hw hcount hmessage.symm (hchange _) ho
          obtain ⟨acts, hacts, hclear⟩ := ih (delivered + 1) htaken.ready
          refine ⟨_, htaken.trans hacts, fun j hmem ↦ hclear j ?_⟩
          exact (List.mem_cons.mp hmem).resolve_left (by simp)
        | torn fd bytes _ hr hs _ ho =>
          rw [if_neg (by rw [hr]; decide)]
          rw [malloc_out] at ho
          refine ⟨[], .still hw (fun j ↦ ?_) ho (by simp [Aside, Event.accepted, Event.written]),
            fun _ ↦ List.not_mem_nil⟩
          rw [hs, malloc_server]
        | dead _ hr h =>
          rw [if_neg (by rw [hr]; decide)]
          exact ⟨[], hroom.trans (Plain.moves (.silent h) hroom.ready), fun _ ↦ List.not_mem_nil⟩
    · exact ⟨[], .refl hw, fun _ ↦ List.not_mem_nil⟩

theorem deliverQueuedMessages_moves (i : ℕ) (hw : Ready w) :
    ∃ acts : List Move, Moves w acts (deliverQueuedMessages w i).2 ∧ ∀ j, .clear j ∉ acts := by
  unfold deliverQueuedMessages
  split
  · exact ⟨[], .refl hw, fun _ ↦ List.not_mem_nil⟩
  · exact deliverLoop_moves i _ 0 hw

theorem put_moves {m : StoredMessage} (hw : Ready w)
    (hroom : (w.server.clients j).queue.count < messageQueueSize) (hfresh : m.delivered = false)
    (hother : ∀ l, l ≠ j → (w'.server.clients l).queue = (w.server.clients l).queue)
    (hself : (w'.server.clients j).queue = push messageQueueSize (w.server.clients j).queue m)
    (ho : w'.out = w.out ++ [.queued m]) : Moves w [.put j m] w' := by
  have hpushed := push_window (hw.rings j) hroom m
  refine ⟨⟨trivial, trivial⟩, ?_, ⟨_, ho, rfl, rfl⟩,
    hw.update hother hself (push_wellFormed (hw.rings j) hroom m) ?_⟩
  · rw [queues_update hother hself, hpushed]
    rfl
  · rw [hpushed]
    intro m' hm'
    obtain hold | hnew := List.mem_append.mp hm'
    · exact hw.fresh j m' hold
    · exact List.mem_singleton.mp hnew ▸ hfresh

theorem spoilt_moves {m : StoredMessage} (hw : Ready w)
    (hroom : (w.server.clients j).queue.count < messageQueueSize)
    (hother : ∀ l, l ≠ j → (w'.server.clients l).queue = (w.server.clients l).queue)
    (hself : (w'.server.clients j).queue = writeTail (w.server.clients j).queue m)
    (ho : w'.out = w.out) : Moves w [] w' := by
  have hspoilt := writeTail_window (hw.rings j) hroom m
  refine ⟨trivial, ?_, ⟨[], by rw [ho, List.append_nil], rfl, rfl⟩,
    hw.update hother hself (writeTail_wellFormed (hw.rings j) m) ?_⟩
  · rw [queues_update hother hself, hspoilt]
    exact (Function.update_eq_self j (queues w)).symm
  · rw [hspoilt]
    exact hw.fresh j

/-- `queue_message` puts its message behind the others of the slot, or stores none. -/
theorem storeMessage_moves (j : ℕ) (recipient sender : Username) (data : Bytes) (hw : Ready w) :
    ∃ acts : List Move, Moves w acts (storeMessage w j recipient sender data) ∧
      ∀ j, .clear j ∉ acts := by
  unfold storeMessage
  split
  · exact ⟨[], .refl hw, fun _ ↦ List.not_mem_nil⟩
  next hfull =>
    have hroom : (w.server.clients j).queue.count < messageQueueSize := by omega
    dsimp only
    generalize hv : ({ w with server :=
      { w.server with nextMessageId := w.server.nextMessageId + 1 } } : World) = drawn
    have hsilent : Silent drawn (malloc (time drawn).2).2 :=
      (time_silent drawn).trans (malloc_silent _)
    generalize malloc (time drawn).2 = allocated at hsilent ⊢
    obtain ⟨ok, v⟩ := allocated
    dsimp only at hsilent ⊢
    have hclients : v.server.clients = w.server.clients := by rw [hsilent.server, ← hv]
    have hout : v.out = w.out := by rw [hsilent.out, ← hv]
    have hslots : ∀ (f : ClientConnection → ClientConnection) (v' : World),
        v'.server = (v.modifyClient j f).server →
          (∀ l, l ≠ j → (v'.server.clients l).queue = (w.server.clients l).queue) ∧
            (v'.server.clients j).queue = (f (w.server.clients j)).queue := by
      intro f v' hs
      refine ⟨fun l hl ↦ ?_, ?_⟩
      · rw [hs, modifyClient_other _ _ hl, hclients]
      · rw [hs, modifyClient_self, hclients]
    split
    · obtain ⟨hother, hself⟩ := hslots _ _ rfl
      exact ⟨[], spoilt_moves hw hroom hother hself hout, fun _ ↦ List.not_mem_nil⟩
    · obtain ⟨hother, hself⟩ := hslots _ _ (emit_server _ _)
      exact ⟨_, put_moves hw hroom rfl hother hself (congrArg (· ++ _) hout), by simp⟩

theorem cleared_moves {ring : Buffer StoredMessage} (hw : Ready w) (hother : ∀ l, l ≠ j →
      (w'.server.clients l).queue = (w.server.clients l).queue)
    (hself : (w'.server.clients j).queue = ring) (hring : WellFormed messageQueueSize ring)
    (hempty : window messageQueueSize ring = []) (ho : w'.out = w.out ++ es)
    (hes : ∀ e ∈ es, Aside e) : Moves w [.clear j] w' := by
  refine ⟨⟨trivial, trivial⟩, ?_, ⟨es, ho, filterMap_aside hes⟩, hw.update hother hself hring ?_⟩
  · rw [queues_update hother hself, hempty]
    rfl
  · rw [hempty]
    exact fun m hm ↦ absurd hm List.not_mem_nil

theorem shutting_moves (i : ℕ) (hw : Ready w) :
    Moves w [.clear i] (proceed verify w i .shutting).1 := by
  have hsocket : (closeSocket w i).server = w.server ∧
      (closeSocket w i).out = w.out ++ closedEvents (w.server.clients i).socketFd := by
    unfold closeSocket
    split
    next hfd => exact ⟨rfl, by rw [hfd]; exact (List.append_nil _).symm⟩
    next fd hfd => exact ⟨rfl, by rw [hfd]; rfl⟩
  simp only [proceed]
  have hring : WellFormed messageQueueSize (reset (w.server.clients i).queue) :=
    reset_wellFormed (by decide) _
  refine cleared_moves hw (fun l hl ↦ ?_) ?_ hring (window_reset _) hsocket.2 ?_
  · rw [modifyClient_other _ _ hl, hsocket.1]
  · rw [modifyClient_self, hsocket.1]
  · intro e he
    cases hfd : (w.server.clients i).socketFd with
    | none =>
      rw [hfd] at he
      cases he
    | some fd =>
      rw [hfd] at he
      rw [List.mem_singleton.mp he]
      exact ⟨rfl, rfl⟩

/-- What a step of a handler does to the queues: its last one empties its slot. -/
theorem proceed_moves (i : ℕ) (c : Control) (hw : Ready w) :
    ∃ acts : List Move, Moves w acts (proceed verify w i c).1 ∧
      ∀ j, .clear j ∈ acts → c = .shutting ∧ j = i := by
  have hnone : ∀ {v : World}, Moves w [] v → ∃ acts : List Move, Moves w acts v ∧
      ∀ j, .clear j ∈ acts → c = .shutting ∧ j = i :=
    fun h ↦ ⟨[], h, fun _ hmem ↦ absurd hmem List.not_mem_nil⟩
  have hsome : ∀ {v : World}, (∃ acts : List Move, Moves w acts v ∧ ∀ j, .clear j ∉ acts) →
      ∃ acts : List Move, Moves w acts v ∧ ∀ j, .clear j ∈ acts → c = .shutting ∧ j = i :=
    fun ⟨acts, h, hclear⟩ ↦ ⟨acts, h, fun j hmem ↦ absurd hmem (hclear j)⟩
  have hsame := hnone (.refl hw)
  have hmalloc := hnone (Plain.moves (malloc_plain w) hw)
  cases c with
  | refusing e =>
    obtain ⟨es, hes⟩ := refuse_plain w i e
    exact hnone (Plain.moves hes hw)
  | replying type payload => exact hnone (send_moves hw _ type payload)
  | registering username key =>
    refine hnone (.same hw (fun j ↦ ?_) ?_)
    · simp only [proceed, addUser]
      split_ifs <;> rfl
    · simp only [proceed, addUser]
      split_ifs <;> rfl
  | accrediting k username signature =>
    have hset := modifyClient_plain w i
      (f := fun c ↦ { c with authenticated := true, username := username }) rfl
    simp only [proceed]
    split
    · exact hsame
    · split
      · exact hnone (Plain.moves hset hw)
      · exact hnone (.still hw hset.queue rfl (by simp [Aside, Event.accepted, Event.written]))
  | onlining k username =>
    simp only [proceed]
    exact hnone (Plain.moves (modifyUser_plain w k _) hw)
  | announcing username status after =>
    simp only [proceed]
    split
    · exact hmalloc
    · exact hmalloc
  | sweeping username status j after =>
    simp only [proceed]
    split
    · split
      · exact hnone (send_moves hw _ .statusUpdate (statusPayload username status))
      · exact hsame
    · exact hsame
  | delivering => exact hsome (deliverQueuedMessages_moves i hw)
  | drawing recipient data => exact hnone (.same hw (fun _ ↦ rfl) rfl)
  | sending id recipient data j =>
    have hroom := Plain.moves ((time_plain w).trans (malloc_plain _)) hw
    have hsent := hroom.trans (send_moves hroom.ready (w.server.clients j).socketFd
      .incomingMessage (directPayload id (w.server.clients i).username (time w).1 data))
    simp only [proceed]
    split
    · exact hnone hroom
    · split
      · exact hnone hsent
      · exact hnone hsent
  | storing id recipient data j => exact hsome (storeMessage_moves j recipient _ data hw)
  | fetching => exact hsome (deliverQueuedMessages_moves i hw)
  | settingUser k status =>
    simp only [proceed]
    exact hnone (Plain.moves (modifyUser_plain w k _) hw)
  | settingClient status =>
    simp only [proceed]
    exact hnone (Plain.moves (modifyClient_plain w i rfl) hw)
  | listing =>
    simp only [proceed]
    split
    · exact hmalloc
    · exact hmalloc
  | hangingUp =>
    simp only [proceed]
    exact hnone (Plain.moves (modifyClient_plain w i rfl) hw)
  | offlining k =>
    simp only [proceed]
    exact hnone (Plain.moves (modifyUser_plain w k _) hw)
  | shutting => exact ⟨_, shutting_moves i hw, fun j hmem ↦ ⟨rfl, by simpa using hmem⟩⟩
  | _ =>
    simp only [proceed]
    repeat' split
    all_goals exact hsame

/-- The slot whose queue an input empties: the one that is given to a new
connection, or that of a handler that ends. -/
def clears (m : Pool) : Input → Option ℕ
  | .accept _ _ => if m.held .clients then none else freeSlot m.world.server
  | .go h => ((m.handlers h).filter (fun handler ↦ handler.control = .shutting)).map Handler.slot
  | _ => none

theorem accept_moves (challenge : Challenge) (created : Bool) (hw : Ready w) :
    ∃ acts : List Move, Moves w acts (acceptClient w challenge created) ∧
      ∀ j, .clear j ∈ acts → freeSlot w.server = some j := by
  obtain ⟨es, ho, hes⟩ : ∃ es, (acceptClient w challenge created).out = w.out ++ es ∧
      ∀ e ∈ es, Aside e := by
    obtain ho | ho := Accepted.out (acceptClient_accepted w challenge created)
    · exact ⟨[], by rw [ho, List.append_nil], by simp⟩
    · exact ⟨_, ho, by simp [Aside, Event.accepted, Event.written]⟩
  cases hslot : freeSlot w.server with
  | none =>
    obtain ⟨hserver, _⟩ := acceptClient_full challenge created hslot
    exact ⟨[], .still hw (fun j ↦ by rw [hserver]) ho hes,
      fun _ hmem ↦ absurd hmem List.not_mem_nil⟩
  | some i =>
    obtain ⟨hself, hother, _⟩ := acceptClient_slot challenge created hslot
    refine ⟨[.clear i], cleared_moves hw (fun l hl ↦ congrArg ClientConnection.queue (hother l hl))
      (congrArg ClientConnection.queue hself) (zero_wellFormed (by decide) _) rfl ho hes, ?_⟩
    simp

theorem step_moves {m : Pool} (hw : Ready m.world) (x : Input) :
    ∃ acts : List Move, Moves m.world acts (step verify m x).world ∧
      ∀ j, .clear j ∈ acts → clears m x = some j := by
  have hnone : ∀ {v : World}, Moves m.world [] v → ∃ acts : List Move, Moves m.world acts v ∧
      ∀ j, .clear j ∈ acts → clears m x = some j :=
    fun h ↦ ⟨[], h, fun _ hmem ↦ absurd hmem List.not_mem_nil⟩
  cases step_turn m x with
  | idle h =>
    rw [h]
    exact hnone (.refl hw)
  | accept challenge created hx hheld h =>
    rw [h, acceptHandler_world, hx]
    obtain ⟨acts, hacts, hclear⟩ := accept_moves challenge created hw
    refine ⟨acts, hacts, fun j hmem ↦ ?_⟩
    rw [clears, hheld]
    exact hclear j hmem
  | receive h stream i _ _ hm =>
    rw [hm, Pool.put, receiveRequest_world]
    obtain ⟨es, hes⟩ := takeRequest_plain m.world i stream
    exact hnone (Plain.moves hes hw)
  | go h i c hx hh _ hm =>
    obtain ⟨acts, hacts, hclear⟩ := @proceed_moves verify m.world i c hw
    rw [hm, hx]
    refine ⟨acts, hacts, fun j hmem ↦ ?_⟩
    obtain ⟨rfl, rfl⟩ := hclear j hmem
    simp [clears, hh]
  | environment env _ hm =>
    rw [hm]
    exact hnone (.same hw (fun _ ↦ rfl) rfl)

theorem initial_ready : Ready World.initial :=
  ⟨fun _ ↦ zero_wellFormed (by decide) _, fun _ _ h ↦ absurd h List.not_mem_nil⟩

/-- What a run does to the queues; a slot is emptied by the inputs alone that
give it to a new connection or end its handler. -/
theorem run_moves (m : Pool) (hw : Ready m.world) (xs : List Input) :
    ∃ acts : List Move, Moves m.world acts (run (step verify) m xs).world ∧
      ∀ j, Along (step verify) (fun m x ↦ clears m x ≠ some j) m xs → .clear j ∉ acts := by
  induction xs generalizing m with
  | nil => exact ⟨[], .refl hw, fun _ _ ↦ List.not_mem_nil⟩
  | cons x xs ih =>
    obtain ⟨acts, hacts, hclear⟩ := @step_moves verify m hw x
    obtain ⟨acts', hacts', hclear'⟩ := ih (step verify m x) hacts.ready
    refine ⟨acts ++ acts', hacts.trans hacts', fun j hx hmem ↦ ?_⟩
    obtain hnow | hlater := List.mem_append.mp hmem
    · exact hx.1 (hclear j hnow)
    · exact hclear' j hx.2 hlater

/-- In every interleaving of the handlers a message that is queued is in the
queue of one slot and leaves it in its turn and once, handed over or emptied out
with the slot; and nothing else is handed over from the queues. -/
theorem queues_accounted (xs : List Input) : ∃ fates : ℕ → List (StoredMessage × Bool),
    Interleaving.Merges
        (fun j ↦ (fates j).map Prod.fst ++ queues (reach verify xs).world j)
        ((reach verify xs).world.out.filterMap Event.accepted) ∧
      Interleaving.Merges (fun j ↦ Boxes.handed (fates j))
        ((reach verify xs).world.out.filterMap Event.written) ∧
      ∀ j, Along (step verify) (fun m x ↦ clears m x ≠ some j) Pool.initial xs →
        ∀ f ∈ fates j, f.2 = true := by
  obtain ⟨acts, hacts, hclear⟩ := @run_moves verify Pool.initial initial_ready xs
  obtain ⟨es, ho, hin, hout⟩ := hacts.events
  choose fates hsplit hhanded hnone using Boxes.fates (queues Pool.initial.world) hacts.fits
  have hes : (reach verify xs).world.out = es := ho
  refine ⟨fates, ?_, ?_, fun j hx ↦ hnone j (hclear j hx)⟩
  · rw [hes, hin]
    refine (Boxes.share_merges _).congr (fun j ↦ ?_)
    have hstart : queues Pool.initial.world j = [] := rfl
    rw [reach, ← hacts.ends, ← hsplit j, hstart, List.nil_append]
  · rw [hes, hout]
    exact (Boxes.share_merges _).congr (fun j ↦ (hhanded j).symm)

end CChat.Threads.Queues
