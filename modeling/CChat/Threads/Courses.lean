import CChat.Server.Limits
import CChat.Threads.Feeds
import CChat.Threads.Sequential

namespace CChat.Threads.Courses

open CChat.Library CChat.Library.FixedWindow CChat.Protocol.Types CChat.Protocol.Wire
  CChat.Server.State CChat.Server.Network CChat.Server.Users CChat.Server.Handlers
  CChat.Server.Effects CChat.Server.Views CChat.Server.Steps CChat.Server.Answers
  CChat.Server.Limits Machine Sections Messages Crew CChat.Threads.Sequential
open CChat.Server.Loop hiding Input step reach
open CChat.Server.Invariants hiding Turn step_turn
open Feeds (requests requests_append requests_same still_requests section_requests takeRequest_still
  receive_decodes takeRequest_decodes Control.leaving proceed_leaving)

/-- One connection with nothing of the others: its rate window, the requests it
got through, and whether its handler has given it up. -/
structure Course where
  limit : Window
  requests : List Frame
  ended : Bool

def Course.initial : Course := ⟨⟨0, 0⟩, [], false⟩

def wholeRequest (stream : Bytes) (env : Env) : Option Frame :=
  (Framing.decodeOne codec stream).bind fun r ↦
    if r.1.2.length ≤ maxMessageLen * 2 ∧ (r.1.2.length = 0 ∨ Env.allocates env 0 = true) then
      some r.1
    else none

/-- One turn of the loop on what its `recv` finds, in the environment it finds it
in. -/
def Course.hear (c : Course) (x : Bytes × Env) : Course :=
  if c.ended then c
  else
    match wholeRequest x.1 x.2 with
    | none => { c with ended := true }
    | some frame =>
      match allow rateLimitWindow rateLimitMaxRequests c.limit (x.2.clock.headD 0) with
      | none => { c with ended := true }
      | some limit =>
        ⟨limit, c.requests ++ [frame], decide (frame.1 = MessageType.logout.code)⟩

def course (heard : List (Bytes × Env)) : Course := Runs.run Course.hear Course.initial heard

/-- The server with what each handler's calls of `recv` found. -/
structure Trace where
  pool : Pool
  heard : Fd → List (Bytes × Env)

def Trace.initial : Trace := ⟨Pool.initial, fun _ ↦ []⟩

variable (verify : Signature → Challenge → Key → Bool)

def observe (t : Trace) (x : Input) : Trace where
  pool := step verify t.pool x
  heard :=
    match x with
    | .receive h stream =>
      match t.pool.handlers h with
      | some ⟨_, .reading⟩ =>
        Function.update t.heard h (t.heard h ++ [(stream, t.pool.world.env)])
      | _ => t.heard
    | _ => t.heard

/-- The control of a handler in the middle of a request that is no `LOGOUT`. -/
def Control.serves : Control → Bool
  | .testing => false
  | .hangingUp => false
  | c => !Control.leaving c

inductive Stage (w : World) (c : Course) : Handler → Prop
  | serving (i : ℕ) (control : Control) (hc : Control.serves control = true)
      (hconn : (w.server.clients i).connected = true) (hended : c.ended = false)
      (hlimit : window (w.server.clients i) = c.limit) : Stage w c ⟨i, control⟩
  | testing (i : ℕ) (hconn : (w.server.clients i).connected = !c.ended)
      (hlimit : window (w.server.clients i) = c.limit) : Stage w c ⟨i, .testing⟩
  | hangingUp (i : ℕ) (hended : c.ended = true)
      (hlimit : window (w.server.clients i) = c.limit) : Stage w c ⟨i, .hangingUp⟩
  | leaving (i : ℕ) (control : Control) (hc : Control.leaving control = true)
      (hended : c.ended = true) : Stage w c ⟨i, control⟩

structure Follows (t : Trace) : Prop where
  rings : Rings t.pool.world
  manned : Manned t.pool
  running : t.pool.world.server.running = true
  courses : ∀ h, requests h t.pool.world.out = (course (t.heard h)).requests
  fresh : ∀ h, t.pool.world.nextFd ≤ h → t.heard h = []
  stage : ∀ h handler, t.pool.handlers h = some handler →
    Stage t.pool.world (course (t.heard h)) handler

variable {verify} {w w' : World} {i : ℕ} {c : Control} {h : Fd} {stream : Bytes} {t : Trace}
  {p : Course} {heard : List (Bytes × Env)}

theorem course_concat (heard : List (Bytes × Env)) (x : Bytes × Env) :
    course (heard ++ [x]) = (course heard).hear x := Runs.run_append ..

theorem initial_follows : Follows Trace.initial :=
  ⟨initial_rings, initial_manned, rfl, fun _ ↦ rfl, fun _ _ ↦ rfl, fun _ _ hh ↦ by cases hh⟩

/-- What `receive_network_message` gives back is the whole request, if there is one. -/
theorem receive_whole (w : World) (stream : Bytes) (type : UInt8) (payload : Bytes) :
    (receiveNetworkMessage w stream).1 = .message type payload ↔
      wholeRequest stream w.env = some (type, payload) := by
  unfold wholeRequest
  cases hd : Framing.decodeOne codec stream with
  | none =>
    refine ⟨fun h ↦ ?_, fun h ↦ by cases h⟩
    rw [(receive_decodes h).1] at hd
    cases hd
  | some r =>
    obtain ⟨f, rest⟩ := r
    obtain ⟨hlong, hbody, hf, _⟩ := (Framing.decodeOne_some codec).mp hd
    have hsize : f.2.length = (readHeader (stream.take 5)).2 :=
      (Framing.decodeOne_announced codec hd).1
    have hfive : (stream.take 5).length = 5 := List.length_take_of_le hlong
    have htype : f.1 = (readHeader (stream.take 5)).1 := congrArg Prod.fst hf
    have hpayload : f.2 = (stream.drop 5).take (readHeader (stream.take 5)).2 := congrArg Prod.snd hf
    unfold receiveNetworkMessage
    simp only [hfive, Option.bind_some, hsize, ← malloc_allocates, ne_eq, not_true_eq_false,
      OfNat.ofNat_ne_zero, ↓reduceIte]
    rw [← hpayload, ← htype, ← hsize]
    by_cases hbig : f.2.length > maxMessageLen * 2
    · simp [hbig, Nat.not_le.mpr hbig]
    have hfits : f.2.length ≤ maxMessageLen * 2 := Nat.le_of_not_lt hbig
    by_cases hempty : f.2.length = 0
    · simp [List.eq_nil_of_length_eq_zero hempty, Prod.ext_iff]
    · have hpos : f.2.length > 0 := Nat.pos_of_ne_zero hempty
      cases hroom : (malloc w).1 with
      | false => simp [hbig, hempty, hpos]
      | true => simp [hbig, hfits, hpos, Prod.ext_iff]

theorem takeRequest_message {type : UInt8} {payload : Bytes}
    (h : (takeRequest w i stream).1 = some (type, payload)) :
    (receiveNetworkMessage w stream).1 = .message type payload := by
  unfold takeRequest at h
  dsimp only at h
  split at h
  · cases h
  · cases h
  next hmessage =>
    split at h
    · cases h
    · split at h
      · cases h
        exact hmessage
      · cases h
        exact hmessage

inductive Hears (w : World) (i : ℕ) (stream : Bytes) (p p' : Course) : Prop
  | refused (hreq : (takeRequest w i stream).1 = none) (hreqs : p'.requests = p.requests)
      (hended : p'.ended = true)
  | taken (type : UInt8) (payload : Bytes)
      (hreq : (takeRequest w i stream).1 = some (type, payload))
      (hreqs : p'.requests = p.requests ++ [(type, payload)])
      (hended : p'.ended = decide (type = MessageType.logout.code))
      (hlimit : window ((takeRequest w i stream).2.server.clients i) = p'.limit)

theorem takeRequest_hears (stream : Bytes) (hlimit : window (w.server.clients i) = p.limit)
    (hended : p.ended = false) : Hears w i stream p (p.hear (stream, w.env)) := by
  have htime : (time w).1 = w.env.clock.headD 0 := by
    unfold time
    split
    next hclock => rw [hclock]; rfl
    next hclock => rw [hclock]; rfl
  unfold Course.hear
  rw [hended, if_neg (by decide)]
  dsimp only
  cases hwhole : wholeRequest stream w.env with
  | none =>
    refine .refused ?_ rfl rfl
    cases hreq : (takeRequest w i stream).1 with
    | none => rfl
    | some r =>
      rw [(receive_whole w stream r.1 r.2).mp (takeRequest_message hreq)] at hwhole
      cases hwhole
  | some f =>
    have hmessage := (receive_whole w stream f.1 f.2).mpr hwhole
    have hallow := takeRequest_window (i := i) hmessage
    rw [hlimit, htime] at hallow
    dsimp only
    rw [← hallow]
    cases hreq : (takeRequest w i stream).1 with
    | none => exact .refused hreq rfl rfl
    | some r =>
      have hsame := hmessage.symm.trans (takeRequest_message hreq)
      rw [Received.message.injEq] at hsame
      obtain rfl : f = r := Prod.ext hsame.1 hsame.2
      exact .taken f.1 f.2 hreq rfl rfl rfl

theorem proceed_unmetered (w : World) (i : ℕ) (c : Control) :
    Unmetered w (proceed verify w i c).1 :=
  Neutral.proceed unmetered_neutral (fun w _ _ _ ↦ .of_server (sendNetworkMessage_server w _ _ _ _))
    (fun _ _ ↦ ⟨fun _ ↦ rfl⟩) (fun _ _ _ ↦ ⟨fun _ ↦ rfl⟩)
    (fun w j _ hf ↦ modifyClient_unmetered w j (fun c ↦ by rw [window, hf, window])) w i c

theorem route_serves (authenticated : Bool) {type : UInt8} (payload : Bytes)
    (htype : type ≠ MessageType.logout.code) :
    Control.serves (route authenticated type payload) = true := by
  have hparsed : ∀ {α : Type} (r : Except Refusal α) (next : α → Control),
      (∀ a, Control.serves (next a) = true) → Control.serves (parsed r next) = true :=
    fun r _ h ↦ parsed_of (P := fun c ↦ Control.serves c = true) r (fun _ ↦ rfl) h
  have hlogin : ∀ c, Control.serves c = true → Control.serves (loggedInOnly authenticated c) = true :=
    fun c h ↦ loggedInOnly_of (P := fun c ↦ Control.serves c = true) _ (fun _ ↦ rfl) (fun _ ↦ h)
  unfold route
  split_ifs
  · exact hparsed _ _ (fun _ ↦ rfl)
  · exact hparsed _ _ (fun _ ↦ rfl)
  · exact hlogin _ (hparsed _ _ (fun _ ↦ rfl))
  · exact hlogin _ (hparsed _ _ (fun _ ↦ rfl))
  · exact hlogin _ rfl
  · exact hlogin _ (hparsed _ _ (fun _ ↦ rfl))
  · exact hlogin _ rfl
  · rfl

theorem after_serves {after : After} (h : after ≠ .closing) :
    after.control = .testing ∨ Control.serves after.control = true := by
  cases after with
  | loggedIn => exact .inr rfl
  | statusSet => exact .inl rfl
  | closing => exact absurd rfl h

/-- A handler in the middle of a request stays in it or comes to the test of its loop. -/
theorem proceed_serves (h : Control.serves c = true) :
    (proceed verify w i c).2 = .testing ∨ Control.serves (proceed verify w i c).2 = true := by
  cases c with
  | announcing username status after =>
    have hafter : after ≠ .closing := fun heq ↦ by rw [heq] at h; cases h
    simp only [proceed]
    split
    · exact after_serves hafter
    · cases after with
      | closing => exact absurd rfl hafter
      | _ => exact .inr rfl
  | sweeping username status j after =>
    have hafter : after ≠ .closing := fun heq ↦ by rw [heq] at h; cases h
    have hnext : Control.serves (.sweeping username status (j + 1) after) = true := by
      cases after with
      | closing => exact absurd rfl hafter
      | _ => rfl
    simp only [proceed]
    split
    · split <;> exact .inr hnext
    · exact after_serves hafter
  | refusing _ | replying _ _ | fetching => exact .inl rfl
  | reading | registering _ _ | onlining _ _ | delivering | copyingKey _ _ | drawing _ _
  | storing _ _ _ _ | settingUser _ _ | settingClient _ => exact .inr rfl
  | identifying _ _ | seekingKey _ | seekingRecipient _ _ | locating _ _ _
  | listing | snapshotting _ _ =>
    simp only [proceed]
    split <;> exact .inr rfl
  | accrediting _ _ _ | sending _ _ _ _ | queueing _ _ _ =>
    simp only [proceed]
    split
    · exact .inr rfl
    · split <;> exact .inr rfl
  | seekingSelf _ =>
    simp only [proceed]
    split
    · exact .inl rfl
    · exact .inr rfl
  | testing | hangingUp | closing | offlining _ | shutting | done => cases h

theorem Section.connected (hs : Section verify w i c w') :
    (w'.server.clients i).connected = (w.server.clients i).connected ∨ c = .hangingUp ∨
      c = .shutting := by
  cases hs with
  | still h => exact .inl (h.clients i).connected
  | added username key _ _ hw =>
    rw [hw]
    unfold addUser
    split_ifs <;> exact .inl rfl
  | login _ _ _ _ _ hs => exact .inl (by rw [modifyClient_at hs])
  | status _ _ _ hw => exact .inl (by rw [hw]; rfl)
  | hangUp hc _ => exact .inr (.inl hc)
  | shut hc _ => exact .inr (.inr hc)

/-- What is left of a slot that others' steps do not take. -/
theorem Stage.moved {handler : Handler} (h : Stage w p handler)
    (hconn : handler.control ≠ .done → (w'.server.clients handler.slot).connected =
      (w.server.clients handler.slot).connected)
    (hlimit : handler.control ≠ .done →
      window (w'.server.clients handler.slot) = window (w.server.clients handler.slot)) :
    Stage w' p handler := by
  cases h with
  | serving i control hc hconn' hended hlimit' =>
    have hne : control ≠ .done := fun heq ↦ by rw [heq] at hc; cases hc
    exact .serving i control hc ((hconn hne).trans hconn') hended ((hlimit hne).trans hlimit')
  | testing i hconn' hlimit' =>
    have hne : Control.testing ≠ .done := fun heq ↦ by cases heq
    exact .testing i ((hconn hne).trans hconn') ((hlimit hne).trans hlimit')
  | hangingUp i hended hlimit' =>
    have hne : Control.hangingUp ≠ .done := fun heq ↦ by cases heq
    exact .hangingUp i hended ((hlimit hne).trans hlimit')
  | leaving i control hc hended => exact .leaving i control hc hended

theorem Stage.proceeds (h : Stage w p ⟨i, c⟩) (hrun : w.server.running = true) :
    Stage (proceed verify w i c).1 p ⟨i, (proceed verify w i c).2⟩ := by
  have hsame := (@proceed_unmetered verify w i c).windows i
  cases h with
  | serving _ _ hc hconn hended hlimit =>
    have hconn' : ((proceed verify w i c).1.server.clients i).connected = true := by
      obtain hkept | rfl | rfl := Section.connected (@proceed_section verify w i c)
      · exact hkept.trans hconn
      · cases hc
      · cases hc
    obtain htest | hserves := @proceed_serves verify w i c hc
    · rw [htest]
      exact .testing i (by rw [hconn', hended]; rfl) (hsame.trans hlimit)
    · exact .serving i _ hserves hconn' hended (hsame.trans hlimit)
  | testing _ hconn hlimit =>
    simp only [proceed, hconn, hrun, Bool.and_true]
    cases hended : p.ended with
    | false => exact .serving i .reading rfl (by rw [hconn, hended]; rfl) hended hlimit
    | true => exact .leaving i .closing rfl hended
  | hangingUp _ hended hlimit =>
    refine .testing i ?_ (hsame.trans hlimit)
    simp only [proceed, modifyClient_self, hended, Bool.not_true]
  | leaving _ _ hc hended => exact .leaving i _ (proceed_leaving hc) hended

/-- The slot of a handler at work is its own: a turn that is not the handler's
leaves its connection and its rate window. -/
theorem Turn.others {m m' : Pool} {x : Input} (hturn : Turn verify m x m') (hm : Manned m)
    (hx : vacant m x = true) {handler : Handler} (hh : m.handlers h = some handler)
    (hne : handler.control ≠ .done) (hgo : x ≠ .go h) (hreceive : ∀ stream, x ≠ .receive h stream) :
    (m'.world.server.clients handler.slot).connected =
        (m.world.server.clients handler.slot).connected ∧
      window (m'.world.server.clients handler.slot) =
        window (m.world.server.clients handler.slot) := by
  have howner := hm.owner h handler hh hne
  have hslot : ∀ h₀ i c, m.handlers h₀ = some ⟨i, c⟩ → c ≠ .done → h₀ ≠ h → handler.slot ≠ i := by
    intro h₀ i c hh₀ hc hother heq
    rw [heq, hm.owner h₀ _ hh₀ hc] at howner
    exact hother (Option.some.inj howner)
  cases hturn with
  | idle h => rw [h]; exact ⟨rfl, rfl⟩
  | accept challenge created hacc hheld h =>
    subst hacc
    rw [h]
    cases acceptHandler_joined m challenge created with
    | full hs _ _ _ => rw [hs]; exact ⟨rfl, rfl⟩
    | slot i created' es hi hself hother _ _ _ _ _ _ =>
      rw [hother _ (vacant_slot hm hheld hx hi hh hne)]
      exact ⟨rfl, rfl⟩
  | receive h₀ stream i hrec hh₀ h' =>
    have hother : h₀ ≠ h := fun heq ↦ hreceive stream (heq ▸ hrec)
    obtain ⟨r, hr⟩ := (takeRequest_admitted m.world i stream).server
    rw [h', ← Prod.mk.eta (p := receiveRequest m.world i stream), receiveRequest_world]
    dsimp only [Pool.put]
    rw [hr, modifyClient_other _ _ (hslot h₀ i _ hh₀ (fun heq ↦ by cases heq) hother)]
    exact ⟨rfl, rfl⟩
  | go h₀ i c hmove hh₀ _ h' =>
    have hother : h₀ ≠ h := fun heq ↦ hgo (heq ▸ hmove)
    rw [h']
    refine ⟨?_, (@proceed_unmetered verify m.world i c).windows handler.slot⟩
    by_cases hc : c = .done
    · rw [hc]
      rfl
    · exact (Section.others (@proceed_section verify m.world i c)
        (hslot h₀ i c hh₀ hc hother)).connected
  | environment env _ h => rw [h]; exact ⟨rfl, rfl⟩

theorem Follows.stages (ht : Follows t) {x : Input} {c' : Control}
    {heard : Fd → List (Bytes × Env)} (hx : vacant t.pool x = true)
    (hhandlers : (step verify t.pool x).handlers =
      Function.update t.pool.handlers h (some ⟨i, c'⟩))
    (hheard : ∀ h', h' ≠ h → heard h' = t.heard h')
    (hmove : ∀ h', h' ≠ h → x ≠ .go h' ∧ ∀ stream, x ≠ .receive h' stream)
    (hself : Stage (step verify t.pool x).world (course (heard h)) ⟨i, c'⟩)
    (h' : Fd) (handler : Handler) (hh : (step verify t.pool x).handlers h' = some handler) :
    Stage (step verify t.pool x).world (course (heard h')) handler := by
  rw [hhandlers] at hh
  by_cases heq : h' = h
  · subst heq
    rw [Function.update_self, Option.some.injEq] at hh
    exact hh ▸ hself
  · rw [Function.update_of_ne heq] at hh
    have hothers := fun hne ↦ Turn.others (@step_turn verify t.pool x) ht.manned hx hh hne
      (hmove h' heq).1 (hmove h' heq).2
    rw [hheard h' heq]
    exact (ht.stage h' handler hh).moved (fun hne ↦ (hothers hne).1) (fun hne ↦ (hothers hne).2)

theorem Turn.running {m m' : Pool} {x : Input} (hturn : Turn verify m x m') :
    m'.world.server.running = m.world.server.running := by
  cases hturn with
  | idle h => rw [h]
  | accept challenge created _ _ h => rw [h, acceptHandler_world, acceptClient_running]
  | receive h₀ stream i _ _ h =>
    obtain ⟨r, hr⟩ := (takeRequest_admitted m.world i stream).server
    rw [h, ← Prod.mk.eta (p := receiveRequest m.world i stream), receiveRequest_world]
    dsimp only [Pool.put]
    rw [hr]
    rfl
  | go h₀ i c _ _ _ h => rw [h]; exact proceed_running m.world i c
  | environment env _ h => rw [h]

theorem Follows.kept (ht : Follows t) {x : Input} (hx : vacant t.pool x = true) :
    Rings (step verify t.pool x).world ∧ Manned (step verify t.pool x) ∧
      (step verify t.pool x).world.server.running = true ∧
      t.pool.world.nextFd ≤ (step verify t.pool x).world.nextFd := by
  obtain ⟨i, es, hes⟩ := @step_handled verify t.pool ht.rings x
  exact ⟨hes.rings, Turn.manned (step_turn t.pool x) ht.rings ht.manned hx,
    (Turn.running (step_turn t.pool x)).trans ht.running, hes.nextFd⟩

/-- A handler has made one call of `receive_network_message`, which took the
requests `rs`. -/
theorem Follows.advance (ht : Follows t) (hx : vacant t.pool (.receive h stream) = true)
    (hh : t.pool.handlers h = some ⟨i, .reading⟩) {c' : Control} {rs : List Frame}
    (hcontrol : (receiveRequest t.pool.world i stream).2 = c')
    (hrs : ((course (t.heard h)).hear (stream, t.pool.world.env)).requests =
      (course (t.heard h)).requests ++ rs)
    (hout : ∀ h', requests h' (takeRequest t.pool.world i stream).2.out =
      requests h' t.pool.world.out ++ if h = h' then rs else [])
    (hself : Stage (takeRequest t.pool.world i stream).2
      ((course (t.heard h)).hear (stream, t.pool.world.env)) ⟨i, c'⟩) :
    Follows (observe verify t (.receive h stream)) := by
  obtain ⟨hrings, hmanned, hrun, hnext⟩ := @Follows.kept verify t ht _ hx
  have hlt := ht.manned.bounded h _ hh
  have hstep : step verify t.pool (.receive h stream) =
      t.pool.put h i (receiveRequest t.pool.world i stream) := by simp only [step, hh]
  have hworld : (step verify t.pool (.receive h stream)).world =
      (takeRequest t.pool.world i stream).2 := by
    rw [hstep]
    exact receiveRequest_world t.pool.world i stream
  have hhandlers : (step verify t.pool (.receive h stream)).handlers =
      Function.update t.pool.handlers h (some ⟨i, c'⟩) := by
    rw [hstep, ← hcontrol]
    rfl
  have hcourse : course (Function.update t.heard h (t.heard h ++ [(stream, t.pool.world.env)]) h) =
      (course (t.heard h)).hear (stream, t.pool.world.env) := by
    rw [Function.update_self, course_concat]
  have hobserve : observe verify t (.receive h stream) = ⟨step verify t.pool (.receive h stream),
      Function.update t.heard h (t.heard h ++ [(stream, t.pool.world.env)])⟩ := by
    simp only [observe, hh]
  rw [hobserve]
  refine ⟨hrings, hmanned, hrun, fun h' ↦ ?_, fun h' hle ↦ ?_, ?_⟩
  · dsimp only
    rw [hworld, hout, ht.courses]
    by_cases heq : h = h'
    · subst heq
      rw [if_pos rfl, hcourse, hrs]
    · rw [if_neg heq, List.append_nil, Function.update_of_ne (Ne.symm heq)]
  · have hle' : t.pool.world.nextFd ≤ h' := hnext.trans hle
    dsimp only
    rw [Function.update_of_ne (Nat.lt_of_lt_of_le hlt hle').ne']
    exact ht.fresh h' hle'
  · refine ht.stages hx hhandlers (fun h' hne ↦ Function.update_of_ne hne _ _)
      (fun h' hne ↦ ⟨fun heq ↦ ?_, fun stream' heq ↦ ?_⟩) ?_
    · cases heq
    · cases heq
      exact hne rfl
    · rw [hcourse, hworld]
      exact hself

theorem receive_follows (ht : Follows t) (hx : vacant t.pool (.receive h stream) = true)
    (hh : t.pool.handlers h = some ⟨i, .reading⟩) :
    Follows (observe verify t (.receive h stream)) := by
  have hsocket := ht.manned.owner h _ hh (fun heq ↦ by cases heq)
  obtain ⟨hconn, hended, hlimit⟩ : (t.pool.world.server.clients i).connected = true ∧
      (course (t.heard h)).ended = false ∧
      window (t.pool.world.server.clients i) = (course (t.heard h)).limit := by
    cases ht.stage h _ hh with
    | serving _ _ _ hconn hended hlimit => exact ⟨hconn, hended, hlimit⟩
    | leaving _ _ hc _ => cases hc
  have hconn' := ((takeRequest_admitted t.pool.world i stream).identity i).1.connected.trans hconn
  cases takeRequest_hears stream hlimit hended with
  | refused hreq hreqs hend =>
    have hnone := hreqs.trans (List.append_nil _).symm
    refine ht.advance hx hh (by simp only [receiveRequest, hreq]) hnone (fun h' ↦ ?_)
      (.leaving i .closing rfl hend)
    rw [still_requests (takeRequest_still hreq), ite_self, List.append_nil]
  | taken type payload hreq hreqs hend hwindow =>
    have hcontrol : (receiveRequest t.pool.world i stream).2 =
        route ((takeRequest t.pool.world i stream).2.server.clients i).authenticated type
          payload := by simp only [receiveRequest, hreq]
    refine ht.advance hx hh hcontrol hreqs (fun h' ↦ ?_) ?_
    · rw [(takeRequest_some hsocket hreq).1, requests_append]
      congr 1
      simp only [requests, List.filterMap_cons, List.filterMap_nil, Feeds.Event.request]
      by_cases heq : h = h'
      · rw [if_pos heq, if_pos heq]
      · rw [if_neg heq, if_neg heq]
    · by_cases htype : type = MessageType.logout.code
      · subst htype
        exact .hangingUp i (by rw [hend]; exact decide_eq_true rfl) hwindow
      · exact .serving i _ (route_serves _ payload htype) hconn'
          (by rw [hend]; exact decide_eq_false htype) hwindow

/-- A step in which no handler calls `recv`. -/
theorem Follows.keep (ht : Follows t) {x : Input} (hx : vacant t.pool x = true)
    (hreceive : ∀ h stream, x ≠ .receive h stream)
    (hstages : ∀ h handler, (step verify t.pool x).handlers h = some handler →
      Stage (step verify t.pool x).world (course (t.heard h)) handler) :
    Follows ⟨step verify t.pool x, t.heard⟩ := by
  obtain ⟨hrings, hmanned, hrun, hnext⟩ := @Follows.kept verify t ht _ hx
  refine ⟨hrings, hmanned, hrun, fun h ↦ ?_, fun h hle ↦ ht.fresh h (hnext.trans hle), hstages⟩
  dsimp only
  rw [Feeds.step_requests hreceive]
  exact ht.courses h

theorem go_follows (ht : Follows t) (hx : vacant t.pool (.go h) = true) :
    Follows (observe verify t (.go h)) := by
  have hidle : step verify t.pool (.go h) = t.pool → Follows (observe verify t (.go h)) := by
    intro hsame
    have hobserve : observe verify t (.go h) = ⟨step verify t.pool (.go h), t.heard⟩ := rfl
    rwa [hobserve, hsame]
  cases hh : t.pool.handlers h with
  | none => exact hidle (by simp only [step, hh])
  | some handler =>
    obtain ⟨i, c⟩ := handler
    cases hblocked : t.pool.blocked i c with
    | true => exact hidle (by simp only [step, hh, hblocked, ↓reduceIte])
    | false =>
      have hstep : step verify t.pool (.go h) =
          t.pool.put h i (proceed verify t.pool.world i c) := by
        simp only [step, hh, hblocked, Bool.false_eq_true, ↓reduceIte]
      have hself := @Stage.proceeds verify t.pool.world i c _ (ht.stage h _ hh) ht.running
      refine ht.keep hx (fun _ _ heq ↦ by cases heq) (ht.stages hx (by rw [hstep]; rfl)
        (fun _ _ ↦ rfl) (fun h' hne ↦ ⟨fun heq ↦ ?_, fun _ heq ↦ ?_⟩) (by rw [hstep]; exact hself))
      · cases heq
        exact hne rfl
      · cases heq

theorem accept_follows (ht : Follows t) {challenge : Challenge} {created : Bool}
    (hx : vacant t.pool (.accept challenge created) = true) :
    Follows (observe verify t (.accept challenge created)) := by
  refine ht.keep hx (fun _ _ heq ↦ by cases heq) (fun h handler hh ↦ ?_)
  have hold : t.pool.handlers h = some handler →
      Stage (step verify t.pool (.accept challenge created)).world (course (t.heard h)) handler := by
    intro hh'
    have hothers := fun hne ↦ Turn.others (@step_turn verify t.pool (.accept challenge created))
      ht.manned hx hh' hne (fun heq ↦ by cases heq) (fun _ heq ↦ by cases heq)
    exact (ht.stage h handler hh').moved (fun hne ↦ (hothers hne).1) (fun hne ↦ (hothers hne).2)
  cases hheld : t.pool.held .clients with
  | true =>
    have hsame : step verify t.pool (.accept challenge created) = t.pool := by
      simp only [step, hheld, ↓reduceIte]
    exact hold (hsame ▸ hh)
  | false =>
    have hstep : step verify t.pool (.accept challenge created) =
        acceptHandler t.pool challenge created := by
      simp only [step, hheld, Bool.false_eq_true, ↓reduceIte]
    cases acceptHandler_joined t.pool challenge created with
    | full _ _ _ hhandlers => exact hold (by rw [hstep, hhandlers] at hh; exact hh)
    | slot i created' _ _ hself _ _ _ _ _ _ hhandlers =>
      have hh' := hh
      rw [hstep, hhandlers] at hh'
      cases created' with
      | false => exact hold hh'
      | true =>
        rw [if_pos rfl] at hh'
        by_cases heq : h = t.pool.world.nextFd
        · subst heq
          rw [Function.update_self, Option.some.injEq] at hh'
          rw [← hh', ht.fresh _ (Nat.le_refl _), hstep]
          exact .testing i (by rw [hself]; rfl) (by rw [hself]; rfl)
        · exact hold (Function.update_of_ne heq _ t.pool.handlers ▸ hh')

theorem observe_follows (ht : Follows t) {x : Input} (hx : vacant t.pool x = true) :
    Follows (observe verify t x) := by
  cases x with
  | accept challenge created => exact accept_follows ht hx
  | receive h stream =>
    cases hh : t.pool.handlers h with
    | none =>
      have hidle : observe verify t (.receive h stream) = t := by simp only [observe, step, hh]
      rwa [hidle]
    | some handler =>
      obtain ⟨i, c⟩ := handler
      cases c with
      | reading => exact receive_follows ht hx hh
      | _ =>
        have hidle : observe verify t (.receive h stream) = t := by simp only [observe, step, hh]
        rwa [hidle]
  | go h => exact go_follows ht hx
  | environment env =>
    exact ht.keep hx (fun _ _ heq ↦ by cases heq)
      (fun h handler hh ↦ (ht.stage h handler hh).moved (fun _ ↦ rfl) (fun _ ↦ rfl))

/-- Whatever the others send and however the handlers' steps fall, a connection
is served by its own bytes, clock and allocations alone: these decide which
requests are taken and whether its handler goes on reading or leaves. -/
theorem own_course (xs : List Input)
    (hx : Runs.Along (observe verify) (fun t x ↦ vacant t.pool x = true) Trace.initial xs) (h : Fd) :
    requests h (Runs.run (observe verify) Trace.initial xs).pool.world.out =
        (course ((Runs.run (observe verify) Trace.initial xs).heard h)).requests ∧
      ∀ handler, (Runs.run (observe verify) Trace.initial xs).pool.handlers h = some handler →
        (handler.control = .reading →
          (course ((Runs.run (observe verify) Trace.initial xs).heard h)).ended = false) ∧
        (Control.leaving handler.control = true →
          (course ((Runs.run (observe verify) Trace.initial xs).heard h)).ended = true) := by
  have ht : Follows (Runs.run (observe verify) Trace.initial xs) :=
    (Runs.Along.always (Q := Follows) (fun _ _ ht hx ↦ observe_follows ht hx) initial_follows hx).last
  generalize Runs.run (observe verify) Trace.initial xs = t at ht ⊢
  refine ⟨ht.courses h, fun handler hh ↦ ⟨fun hreading ↦ ?_, fun hleaving ↦ ?_⟩⟩
  · cases ht.stage h handler hh with
    | serving _ _ _ _ hended _ => exact hended
    | testing => cases hreading
    | hangingUp => cases hreading
    | leaving _ _ hc _ =>
      dsimp only at hreading
      rw [hreading] at hc
      cases hc
  · cases ht.stage h handler hh with
    | serving _ c hc _ _ _ =>
      dsimp only at hleaving
      unfold Control.serves at hc
      split at hc
      · cases hc
      · cases hc
      · rw [hleaving] at hc
        cases hc
    | testing => cases hleaving
    | hangingUp => cases hleaving
    | leaving _ _ _ hended => exact hended

/-- Two connections: one registers a name and logs out, the other sends half a
header between the steps of the first. -/
def crossed : List Input :=
  [.accept (Block.zero _) true, .accept (Block.zero _) true, .go 0, .go 1,
    .receive 0 (registerPacket (text "alice") (List.replicate 32 7)), .receive 1 [0, 0], .go 0, .go 1,
    .go 0, .go 0, .receive 0 (packet 0x08 []), .go 0, .go 0, .go 0, .go 0]

theorem own_course_crossed :
    requests 0 (Runs.run (observe (fun _ _ _ ↦ true)) Trace.initial crossed).pool.world.out =
        [(0x01, nameField (text "alice") ++ List.replicate 32 7), (0x08, [])] ∧
      (Runs.run (observe (fun _ _ _ ↦ true)) Trace.initial crossed).pool.handlers 0 =
        some ⟨0, .done⟩ ∧
      (course ((Runs.run (observe (fun _ _ _ ↦ true)) Trace.initial crossed).heard 0)).ended =
        true := by
  obtain ⟨hrequests, hstages⟩ := @own_course (fun _ _ _ ↦ true) crossed (by decide +kernel) 0
  have hdone : (Runs.run (observe (fun _ _ _ ↦ true)) Trace.initial crossed).pool.handlers 0 =
      some ⟨0, .done⟩ := by decide +kernel
  refine ⟨hrequests.trans ?_, hdone, (hstages _ hdone).2 rfl⟩
  decide +kernel

end CChat.Threads.Courses
