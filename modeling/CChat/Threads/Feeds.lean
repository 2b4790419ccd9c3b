import CChat.Server.Answers
import CChat.Threads.Crew

namespace CChat.Threads.Feeds

open CChat.Library CChat.Protocol.Types CChat.Protocol.Wire CChat.Server.State
  CChat.Server.Network CChat.Server.Users CChat.Server.Handlers CChat.Server.Effects
  CChat.Server.Steps CChat.Server.Unchanged CChat.Server.Answers Machine Sections Messages Crew
open CChat.Server.Loop hiding Input step reach
open CChat.Server.Invariants hiding Turn step_turn

/-- The server with the bytes each peer sends in all before it closes. `taken`
counts those in requests that were let through, `calls` the calls of
`receive_network_message`. -/
structure Feed where
  pool : Pool
  sent : Fd → Bytes
  taken : Fd → ℕ
  calls : Fd → ℕ

def Feed.initial : Feed := ⟨Pool.initial, fun _ ↦ [], fun _ ↦ 0, fun _ ↦ 0⟩

def Feed.left (f : Feed) (h : Fd) : Bytes := (f.sent h).drop (f.taken h)

inductive Move
  | accept (challenge : Challenge) (created : Bool) (stream : Bytes)
  | receive (h : Fd)
  | go (h : Fd)
  | environment (env : Env)

def Move.input (f : Feed) : Move → Input
  | .accept challenge created _ => .accept challenge created
  | .receive h => .receive h (f.left h)
  | .go h => .go h
  | .environment env => .environment env

variable (verify : Signature → Challenge → Key → Bool)

def step (f : Feed) (x : Move) : Feed :=
  let pool := Machine.step verify f.pool (x.input f)
  match x with
  | .accept _ _ stream =>
    { f with pool := pool, sent := Function.update f.sent f.pool.world.nextFd stream }
  | .receive h =>
    match f.pool.handlers h with
    | some ⟨i, .reading⟩ =>
      let bytes := match (takeRequest f.pool.world i (f.left h)).1 with
        | some (_, payload) => 5 + payload.length
        | none => 0
      { f with
        pool := pool
        taken := Function.update f.taken h (f.taken h + bytes)
        calls := Function.update f.calls h (f.calls h + 1) }
    | _ => { f with pool := pool }
  | .go _ => { f with pool := pool }
  | .environment _ => { f with pool := pool }

def vacates (f : Feed) (x : Move) : Prop := vacant f.pool (x.input f) = true

instance (f : Feed) (x : Move) : Decidable (vacates f x) :=
  inferInstanceAs (Decidable (vacant f.pool (x.input f) = true))

def Event.request (fd : Fd) : Event → Option Frame
  | .request fd' type payload => if fd' = fd then some (type, payload) else none
  | _ => none

def requests (fd : Fd) (out : List Event) : List Frame := out.filterMap (Event.request fd)

variable {verify} {w w' : World} {i : ℕ} {c : Control} {fd h : Fd} {stream payload : Bytes}
  {type : UInt8} {f : Feed}

theorem requests_append (fd : Fd) (out es : List Event) :
    requests fd (out ++ es) = requests fd out ++ requests fd es := List.filterMap_append

theorem requests_same {es : List Event} (ho : w'.out = w.out ++ es)
    (hes : ∀ e ∈ es, Event.request fd e = none) : requests fd w'.out = requests fd w.out := by
  have hnone : requests fd es = [] := List.filterMap_eq_nil_iff.mpr hes
  rw [ho, requests_append, hnone, List.append_nil]

theorem Event.request_unmarked {e : Event} (h : Event.isMark e = false) : Event.request fd e = none := by
  cases e with
  | request => cases h
  | _ => rfl

theorem still_requests (h : Still w w') : requests fd w'.out = requests fd w.out := by
  obtain ⟨es, ho, hes⟩ := h.events
  exact requests_same ho (fun e he ↦ Event.request_unmarked (hes e he))

theorem section_requests (h : Section verify w i c w') :
    requests fd w'.out = requests fd w.out := by
  cases h with
  | still h => exact still_requests h
  | added username key _ _ hw =>
    rw [hw]
    unfold addUser
    split_ifs <;> rfl
  | login k username signature _ _ _ ho =>
    refine requests_same ho (fun e he ↦ ?_)
    obtain ⟨fd', _, rfl⟩ := Option.mem_map.mp (Option.mem_toList.mp he)
    rfl
  | status _ _ _ hw =>
    rw [hw]
    rfl
  | hangUp _ hw =>
    rw [hw]
    rfl
  | shut _ _ ho =>
    refine requests_same ho (fun e he ↦ ?_)
    cases hfd : (w.server.clients i).socketFd with
    | none =>
      rw [hfd] at he
      cases he
    | some fd =>
      rw [hfd] at he
      rw [List.mem_singleton.mp he]
      rfl

theorem receive_decodes (h : (receiveNetworkMessage w stream).1 = .message type payload) :
    Framing.decodeOne codec stream = some ((type, payload), stream.drop (5 + payload.length)) ∧
      payload.length ≤ maxMessageLen * 2 := by
  have hframe : ∀ {t : UInt8} {p : Bytes}, 5 ≤ stream.length →
      (readHeader (stream.take 5)).2 ≤ (stream.drop 5).length →
      t = (readHeader (stream.take 5)).1 → p = (stream.drop 5).take (readHeader (stream.take 5)).2 →
      ¬ (readHeader (stream.take 5)).2 > maxMessageLen * 2 →
      Framing.decodeOne codec stream = some ((t, p), stream.drop (5 + p.length)) ∧
        p.length ≤ maxMessageLen * 2 := by
    intro t p hlong hbody ht hp hfits
    have hd := (Framing.decodeOne_some codec (s := stream) (f := (t, p))).mpr
      ⟨hlong, hbody, Prod.ext ht hp, rfl⟩
    obtain ⟨hsize, hrest⟩ := Framing.decodeOne_announced codec hd
    exact ⟨hrest ▸ hd, hsize.trans_le (Nat.le_of_not_lt hfits)⟩
  unfold receiveNetworkMessage at h
  dsimp only at h
  split at h
  · cases h
  split at h
  · cases h
  next hfive =>
    have hlong : 5 ≤ stream.length := by
      rw [not_not, List.length_take] at hfive
      omega
    split at h
    · cases h
    next hfits =>
      split at h
      · split at h
        · cases h
        split at h
        · cases h
        next hbody =>
          rw [Received.message.injEq] at h
          refine hframe hlong ?_ h.1.symm h.2.symm hfits
          rw [not_not, List.length_take] at hbody
          omega
      next hpos =>
        rw [Received.message.injEq] at h
        have hzero : (readHeader (stream.take 5)).2 = 0 := Nat.eq_zero_of_not_pos hpos
        refine hframe hlong (by omega) h.1.symm ?_ hfits
        rw [hzero, List.take_zero]
        exact h.2.symm

theorem takeRequest_decodes (h : (takeRequest w i stream).1 = some (type, payload)) :
    Framing.decodeOne codec stream = some ((type, payload), stream.drop (5 + payload.length)) ∧
      payload.length ≤ maxMessageLen * 2 := by
  refine receive_decodes (w := w) ?_
  unfold takeRequest at h
  dsimp only at h
  split at h
  · cases h
  · cases h
  next type' payload' hmessage =>
    split at h
    · cases h
    · split at h
      · cases h
        exact hmessage
      · cases h
        exact hmessage

theorem takeRequest_still (h : (takeRequest w i stream).1 = none) :
    Still w (takeRequest w i stream).2 := by
  have hr : Still w (receiveNetworkMessage w stream).2 :=
    .quiet (receiveNetworkMessage_silent w stream).server (receiveNetworkMessage_silent w stream).out
  unfold takeRequest at h ⊢
  dsimp only at h ⊢
  split
  · exact hr
  · exact hr
  next type payload hmessage =>
    rw [hmessage] at h
    dsimp only at h
    split
    · refine hr.trans ?_
      generalize (receiveNetworkMessage w stream).2 = v
      have hlimit : Still v (checkRateLimit v i).2 := by
        unfold checkRateLimit
        dsimp only
        split
        · exact (time_still v).trans (modifyClient_still
            (f := fun c ↦ { c with rateLimit := ⟨(time v).1, 0⟩ }) _ i ⟨rfl, rfl, rfl, rfl, rfl⟩)
        · exact time_still v
      exact hlimit.trans (refuse_still _ i ⟨.rateLimit, "Rate limit exceeded"⟩)
    next hallowed =>
      rw [if_neg hallowed] at h
      split at h <;> cases h

theorem step_requests {m : Pool} {x : Input} (hx : ∀ h stream, x ≠ .receive h stream) :
    requests fd (Machine.step verify m x).world.out = requests fd m.world.out := by
  cases @step_turn verify m x with
  | idle h => rw [h]
  | accept challenge created _ _ h =>
    rw [h]
    cases acceptHandler_joined m challenge created with
    | full _ _ ho _ => exact requests_same ho (by simp [Event.request])
    | slot _ _ es _ _ _ _ _ _ ho hes =>
      refine requests_same ho (fun e he ↦ ?_)
      rw [hes e he]
      rfl
  | receive h stream _ hx' => exact absurd hx' (hx h stream)
  | go h i c _ _ _ hm =>
    rw [hm]
    exact section_requests (proceed_section m.world i c)
  | environment env _ h => rw [h]

def Control.leaving : Control → Bool
  | .closing => true
  | .offlining _ => true
  | .announcing _ _ .closing => true
  | .sweeping _ _ _ .closing => true
  | .shutting => true
  | .done => true
  | _ => false

theorem proceed_leaving (h : Control.leaving c = true) :
    Control.leaving (proceed verify w i c).2 = true := by
  cases c with
  | closing =>
    simp only [proceed]
    split
    · split <;> rfl
    · rfl
  | offlining k => rfl
  | announcing username status after =>
    cases after with
    | closing =>
      simp only [proceed]
      split <;> rfl
    | _ => cases h
  | sweeping username status j after =>
    cases after with
    | closing =>
      simp only [proceed]
      split
      · split <;> rfl
      · rfl
    | _ => cases h
  | shutting => rfl
  | done => rfl
  | _ => cases h

/-- What the requests of each connection are to the bytes its peer sends, and
how the bytes bound the calls. -/
structure Fed (f : Feed) : Prop where
  rings : Rings f.pool.world
  manned : Manned f.pool
  bytes : ∀ h, (requests h f.pool.world.out).flatMap (Framing.encode codec) =
    (f.sent h).take (f.taken h)
  within : ∀ h, f.taken h ≤ (f.sent h).length
  fits : ∀ h, ∀ r ∈ requests h f.pool.world.out, r.2.length ≤ maxMessageLen * 2
  fresh : ∀ h, f.pool.world.nextFd ≤ h → f.taken h = 0 ∧ f.calls h = 0
  calls : ∀ h, 5 * f.calls h ≤ f.taken h + 5
  working : ∀ h handler, f.pool.handlers h = some handler →
    Control.leaving handler.control = false → 5 * f.calls h ≤ f.taken h

theorem initial_fed : Fed Feed.initial where
  rings := initial_rings
  manned := initial_manned
  bytes _ := rfl
  within _ := Nat.le_refl _
  fits _ _ hr := by cases hr
  fresh _ _ := ⟨rfl, rfl⟩
  calls _ := Nat.zero_le _
  working _ _ hh := by cases hh

theorem vacates_kept (hf : Fed f) {x : Move} (hx : vacates f x) :
    Rings (Machine.step verify f.pool (x.input f)).world ∧
      Manned (Machine.step verify f.pool (x.input f)) ∧
      f.pool.world.nextFd ≤ (Machine.step verify f.pool (x.input f)).world.nextFd := by
  obtain ⟨i, es, hes⟩ := @step_handled verify f.pool hf.rings (x.input f)
  exact ⟨hes.rings, Turn.manned (step_turn f.pool (x.input f)) hf.rings hf.manned hx, hes.nextFd⟩

theorem Fed.keep (hf : Fed f) {x : Move} (hx : vacates f x) {sent : Fd → Bytes}
    (hinput : ∀ h stream, x.input f ≠ .receive h stream)
    (hsent : ∀ h, (sent h).take (f.taken h) = (f.sent h).take (f.taken h) ∧
      f.taken h ≤ (sent h).length) :
    Fed { f with pool := Machine.step verify f.pool (x.input f), sent := sent } := by
  obtain ⟨hrings, hmanned, hnext⟩ := @vacates_kept verify f hf _ hx
  refine ⟨hrings, hmanned, fun h ↦ ?_, fun h ↦ (hsent h).2, fun h ↦ ?_,
    fun h hle ↦ hf.fresh h (hnext.trans hle), hf.calls, ?_⟩
  · rw [step_requests hinput, (hsent h).1]
    exact hf.bytes h
  · rw [step_requests hinput]
    exact hf.fits h
  · refine Turn.handlers (step_turn f.pool (x.input f))
      (P := fun h handler ↦ Control.leaving handler.control = false → 5 * f.calls h ≤ f.taken h)
      (fun _ _ _ hp ↦ hp) (fun _ _ _ _ hp ↦ hp) (fun i _ _ ↦ ?_)
      (fun h i stream heq ↦ absurd heq (hinput h stream)) (fun h i c _ _ _ hp hstays ↦ ?_) hf.working
    · rw [(hf.fresh _ (Nat.le_refl _)).2]
      exact Nat.zero_le _
    · refine hp ?_
      by_contra hleaving
      rw [proceed_leaving (by simpa using hleaving)] at hstays
      cases hstays

/-- The handler of `h` has made one call, which took `n` bytes in the requests `rs`. -/
theorem Fed.advance (hf : Fed f) {pool : Pool} {n : ℕ} (rs : List Frame)
    (hrings : Rings pool.world) (hmanned : Manned pool)
    (hnext : f.pool.world.nextFd ≤ pool.world.nextFd) (hlt : h < f.pool.world.nextFd)
    (hwork : 5 * f.calls h ≤ f.taken h)
    (hrequests : ∀ h', requests h' pool.world.out =
      requests h' f.pool.world.out ++ if h = h' then rs else [])
    (htake : (f.sent h).take (f.taken h + n) =
      (f.sent h).take (f.taken h) ++ rs.flatMap (Framing.encode codec))
    (hwithin : f.taken h + n ≤ (f.sent h).length)
    (hfits : ∀ r ∈ rs, r.2.length ≤ maxMessageLen * 2)
    (hothers : ∀ h', h' ≠ h → pool.handlers h' = f.pool.handlers h')
    (hself : ∀ handler, pool.handlers h = some handler →
      Control.leaving handler.control = true ∨ 5 ≤ n) :
    Fed { f with
      pool := pool
      taken := Function.update f.taken h (f.taken h + n)
      calls := Function.update f.calls h (f.calls h + 1) } := by
  refine ⟨hrings, hmanned, fun h' ↦ ?_, fun h' ↦ ?_, fun h' r hr ↦ ?_, fun h' hle ↦ ?_, fun h' ↦ ?_,
    fun h' handler hh' hstays ↦ ?_⟩
  · dsimp only
    rw [hrequests]
    by_cases heq : h' = h
    · subst heq
      rw [if_pos rfl, List.flatMap_append, hf.bytes, Function.update_self, htake]
    · rw [if_neg (Ne.symm heq), List.append_nil, Function.update_of_ne heq]
      exact hf.bytes h'
  · dsimp only
    by_cases heq : h' = h
    · rw [heq, Function.update_self]
      exact hwithin
    · rw [Function.update_of_ne heq]
      exact hf.within h'
  · rw [hrequests, List.mem_append] at hr
    obtain hold | hnew := hr
    · exact hf.fits h' r hold
    · split at hnew
      · exact hfits r hnew
      · cases hnew
  · have hle' := hnext.trans hle
    have hne : h' ≠ h := (Nat.lt_of_lt_of_le hlt hle').ne'
    dsimp only
    rw [Function.update_of_ne hne, Function.update_of_ne hne]
    exact hf.fresh h' hle'
  · dsimp only
    by_cases heq : h' = h
    · rw [heq, Function.update_self, Function.update_self]
      omega
    · rw [Function.update_of_ne heq, Function.update_of_ne heq]
      exact hf.calls h'
  · dsimp only at hh' ⊢
    by_cases heq : h' = h
    · rw [heq, Function.update_self, Function.update_self]
      rw [heq] at hh'
      obtain hleaving | hfive := hself handler hh'
      · rw [hleaving] at hstays
        cases hstays
      · omega
    · rw [Function.update_of_ne heq, Function.update_of_ne heq]
      exact hf.working h' handler (hothers h' heq ▸ hh') hstays

/-- A request that is let through is the next frame of what the peer sent. -/
theorem Fed.next (hf : Fed f) {type : UInt8} {payload : Bytes}
    (hreq : (takeRequest w i (f.left h)).1 = some (type, payload)) :
    (f.sent h).take (f.taken h + (5 + payload.length)) =
        (f.sent h).take (f.taken h) ++ Framing.encode codec (type, payload) ∧
      f.taken h + (5 + payload.length) ≤ (f.sent h).length ∧
      payload.length ≤ maxMessageLen * 2 := by
  obtain ⟨hd, hfits⟩ := takeRequest_decodes hreq
  have hleft : f.left h = Framing.encode codec (type, payload) ++
      (f.left h).drop (5 + payload.length) := encode_decodeOne hd
  have hsize : (Framing.encode codec (type, payload)).length = 5 + payload.length :=
    Framing.encode_length codec (type, payload)
  have hlong : 5 + payload.length ≤ (f.left h).length := by
    rw [hleft, List.length_append, hsize]
    exact Nat.le_add_right _ _
  have hrest : (f.left h).length = (f.sent h).length - f.taken h := List.length_drop
  have hwithin := hf.within h
  refine ⟨?_, by omega, hfits⟩
  rw [List.take_add, ← Feed.left, hleft, ← hsize, List.take_left]

theorem receive_fed (hf : Fed f) (hx : vacates f (.receive h))
    (hh : f.pool.handlers h = some ⟨i, .reading⟩) : Fed (step verify f (.receive h)) := by
  obtain ⟨hrings, hmanned, hnext⟩ := @vacates_kept verify f hf _ hx
  have hlt : h < f.pool.world.nextFd := hf.manned.bounded h _ hh
  have hwork := hf.working h _ hh rfl
  have hstep : Machine.step verify f.pool (.receive h (f.left h)) =
      f.pool.put h i (receiveRequest f.pool.world i (f.left h)) := by
    simp only [Machine.step, hh]
  have hout : (Machine.step verify f.pool (.receive h (f.left h))).world.out =
      (takeRequest f.pool.world i (f.left h)).2.out := by
    rw [hstep]
    exact congrArg World.out (receiveRequest_world f.pool.world i (f.left h))
  have hothers : ∀ h', h' ≠ h → (Machine.step verify f.pool
      (.receive h (f.left h))).handlers h' = f.pool.handlers h' := by
    intro h' hne
    rw [hstep]
    exact Function.update_of_ne hne _ _
  have hself : ∀ handler, (Machine.step verify f.pool (.receive h (f.left h))).handlers h =
      some handler → handler.control = (receiveRequest f.pool.world i (f.left h)).2 := by
    intro handler hh'
    rw [hstep] at hh'
    have hnew := (Function.update_self h _ f.pool.handlers).symm.trans hh'
    rw [← Option.some.inj hnew]
  simp only [step, Move.input, hh]
  cases hreq : (takeRequest f.pool.world i (f.left h)).1 with
  | none =>
    have hcontrol : (receiveRequest f.pool.world i (f.left h)).2 = .closing := by
      simp only [receiveRequest, hreq]
    refine hf.advance (n := 0) [] hrings hmanned hnext hlt hwork (fun h' ↦ ?_)
      (List.append_nil _).symm (hf.within h) (by simp) hothers (fun handler hh' ↦ .inl ?_)
    · rw [hout, still_requests (takeRequest_still hreq), ite_self, List.append_nil]
    · rw [hself handler hh', hcontrol]
      rfl
  | some request =>
    obtain ⟨type, payload⟩ := request
    obtain ⟨htake, hwithin, hfits⟩ := hf.next hreq
    have hsocket := hf.manned.owner h _ hh (fun heq ↦ by cases heq)
    refine hf.advance [(type, payload)] hrings hmanned hnext hlt hwork (fun h' ↦ ?_) ?_
      hwithin ?_ hothers (fun _ _ ↦ .inr (Nat.le_add_right 5 _))
    · rw [hout, (takeRequest_some hsocket hreq).1, requests_append]
      congr 1
      simp only [requests, List.filterMap_cons, List.filterMap_nil, Event.request]
      by_cases heq : h = h'
      · rw [if_pos heq, if_pos heq]
      · rw [if_neg heq, if_neg heq]
    · rw [htake, List.flatMap_singleton]
    · intro r hr
      rw [List.mem_singleton.mp hr]
      exact hfits

theorem step_fed (hf : Fed f) {x : Move} (hx : vacates f x) : Fed (step verify f x) := by
  cases x with
  | accept challenge created stream =>
    refine hf.keep hx (fun _ _ heq ↦ by cases heq) (fun h ↦ ?_)
    by_cases heq : h = f.pool.world.nextFd
    · rw [(hf.fresh h heq.ge).1]
      exact ⟨rfl, Nat.zero_le _⟩
    · rw [Function.update_of_ne heq]
      exact ⟨rfl, hf.within h⟩
  | receive h =>
    cases hh : f.pool.handlers h with
    | none =>
      have hidle : step verify f (.receive h) = f := by
        simp only [step, Move.input, Machine.step, hh]
      rwa [hidle]
    | some handler =>
      obtain ⟨i, c⟩ := handler
      cases c with
      | reading => exact receive_fed hf hx hh
      | _ =>
        have hidle : step verify f (.receive h) = f := by
          simp only [step, Move.input, Machine.step, hh]
        rwa [hidle]
  | go h => exact hf.keep hx (fun _ _ heq ↦ by cases heq) (fun h ↦ ⟨rfl, hf.within h⟩)
  | environment env => exact hf.keep hx (fun _ _ heq ↦ by cases heq) (fun h ↦ ⟨rfl, hf.within h⟩)

/-- Whatever the order of the threads' steps, the requests taken from a
connection are the first frames of the bytes its peer sends, each once and in
order, and its handler calls `receive_network_message` no more often than the
bytes allow. -/
theorem requests_follow_stream (xs : List Move)
    (hx : Runs.Along (step verify) vacates Feed.initial xs) (h : Fd) :
    (∃ n, (requests h (Runs.run (step verify) Feed.initial xs).pool.world.out).flatMap
        (Framing.encode codec) = ((Runs.run (step verify) Feed.initial xs).sent h).take n) ∧
      requests h (Runs.run (step verify) Feed.initial xs).pool.world.out <+:
        (Framing.decode codec ((Runs.run (step verify) Feed.initial xs).sent h)).1 ∧
      (Runs.run (step verify) Feed.initial xs).calls h ≤
        ((Runs.run (step verify) Feed.initial xs).sent h).length / 5 + 1 := by
  have hf : Fed (Runs.run (step verify) Feed.initial xs) :=
    (Runs.Along.always (Q := Fed) (fun _ _ hf hx ↦ step_fed hf hx) initial_fed hx).last
  generalize Runs.run (step verify) Feed.initial xs = f at hf ⊢
  refine ⟨⟨f.taken h, hf.bytes h⟩, ?_, ?_⟩
  · have hdecode := Framing.decode_stream codec (requests h f.pool.world.out)
      (fun r hr ↦ (hf.fits h r hr).trans_lt (by decide)) (f.left h)
    rw [hf.bytes, Feed.left, List.take_append_drop] at hdecode
    rw [hdecode]
    exact List.prefix_append _ _
  · have hcalls := hf.calls h
    have hwithin := hf.within h
    omega

def registration : List Move :=
  [.accept (Block.zero _) true (registerPacket (text "alice") (List.replicate 32 7) ++ [0, 0]),
    .go 0, .receive 0, .go 0, .go 0, .go 0, .receive 0]

theorem requests_follow_stream_registration :
    (∃ n, (requests 0 (Runs.run (step (fun _ _ _ ↦ true)) Feed.initial
        registration).pool.world.out).flatMap (Framing.encode codec) =
      (registerPacket (text "alice") (List.replicate 32 7) ++ [0, 0]).take n) ∧
    (requests 0 (Runs.run (step (fun _ _ _ ↦ true)) Feed.initial
      registration).pool.world.out).length = 1 ∧
    (Runs.run (step (fun _ _ _ ↦ true)) Feed.initial registration).calls 0 = 2 := by
  have h := @requests_follow_stream (fun _ _ _ ↦ true) registration
    (by decide +kernel) 0
  refine ⟨?_, by decide +kernel, by decide +kernel⟩
  have hsent : (Runs.run (step (fun _ _ _ ↦ true)) Feed.initial registration).sent 0 =
      registerPacket (text "alice") (List.replicate 32 7) ++ [0, 0] := by decide +kernel
  exact hsent ▸ h.1

end CChat.Threads.Feeds
