import CChat.Server.Answers
import CChat.Server.Receiving
import CChat.Server.Refusals

namespace CChat.Server.Conversation

open CChat.Library CChat.Protocol.Types CChat.Protocol.Wire State Network Users Handlers Loop Effects
  HandlerEffects Views Steps Invariants History Delivery Refusals Receiving Answers

variable {verify : Signature → Challenge → Key → Bool} {g : Guards} {i : ℕ} {fd : Fd} {w w' : World}

/-- What reaches the server while one connection makes its requests: one of
these, or an input that is not this connection's. -/
inductive Arrival
  | request (type : UInt8) (payload : Bytes) (env : Env)
  | other (x : Input)

def Arrival.input (i : ℕ) : Arrival → Input
  | .request type payload env => .receive i (packet type payload) env
  | .other x => x

def Arrival.isLogout : Arrival → Bool
  | .request type _ _ => type == MessageType.logout.code
  | .other _ => false

/-- A request of the connection fits into a frame, is below the rate limit and
meets no failing allocation or send; other inputs are for other slots. -/
def Admissible (i : ℕ) (w : World) : Arrival → Prop
  | .request _ payload env => payload.length ≤ maxMessageLen * 2 ∧ env.Faultless ∧
      (checkRateLimit { w with env := env } i).1 = true
  | .other x => Input.slot x ≠ some i

instance (i : ℕ) (w : World) : (a : Arrival) → Decidable (Admissible i w a)
  | .request _ payload env => inferInstanceAs (Decidable (payload.length ≤ maxMessageLen * 2 ∧
      env.Faultless ∧ (checkRateLimit { w with env := env } i).1 = true))
  | .other x => inferInstanceAs (Decidable (Input.slot x ≠ some i))

def Event.answer (fd : Fd) : Event → Option MessageType
  | .frame fd' type _ _ =>
    if fd' = fd ∧ type ≠ .incomingMessage ∧ type ≠ .statusUpdate then some type else none
  | _ => none

def answers (fd : Fd) (out : List Event) : List MessageType := out.filterMap (Event.answer fd)

variable (verify) in
def arrive (i : ℕ) (w : World) (a : Arrival) : World := step verify w (a.input i)

variable (verify) in
def debts (i : ℕ) (fd : Fd) : World → List Arrival → List (Option MessageType)
  | _, [] => []
  | w, .request type payload env :: as =>
    owed (lastLogin w.out fd).isSome type payload ::
      debts i fd (arrive verify i w (.request type payload env)) as
  | w, .other x :: as => debts i fd (arrive verify i w (.other x)) as

/-- One frame of the type that is owed, or an `ERROR` for it, and none when
nothing is owed. -/
def Settles : Option MessageType → List MessageType → Prop
  | none, types => types = []
  | some type, types => types = [type] ∨ types = [.error]

theorem answers_append (fd : Fd) (out es : List Event) :
    answers fd (out ++ es) = answers fd out ++ answers fd es := List.filterMap_append

theorem answers_none {es : List Event} (h : ∀ e ∈ es, Event.isAnswer e = false) :
    answers fd es = [] := by
  refine List.filterMap_eq_nil_iff.mpr (fun e he ↦ ?_)
  cases e with
  | frame fd' type payload entry =>
    have hpush : ¬ (type ≠ .incomingMessage ∧ type ≠ .statusUpdate) := of_decide_eq_false (h _ he)
    exact if_neg (fun hanswer ↦ hpush hanswer.2)
  | _ => rfl

theorem answers_other {es : List Event} (h : ∀ e ∈ es, Event.isAnswer e = true → Event.fd e ≠ some fd) :
    answers fd es = [] := by
  refine List.filterMap_eq_nil_iff.mpr (fun e he ↦ ?_)
  cases e with
  | frame fd' type payload entry =>
    refine if_neg (fun hanswer ↦ h _ he (decide_eq_true hanswer.2) ?_)
    exact congrArg some hanswer.1
  | _ => rfl

theorem Pushed.answers (h : Pushed w w') : answers fd w'.out = answers fd w.out := by
  obtain ⟨es, ho, hes⟩ := h.events
  rw [ho, answers_append, answers_none hes, List.append_nil]

/-- What a request leaves behind when it is dealt with as it is owed. -/
theorem Handled.settles {debt : Option MessageType} (h : Handled w i debt w')
    (hf : w.env.Faultless) (hfd : (w.server.clients i).socketFd = some fd) :
    ∃ types, answers fd w'.out = answers fd w.out ++ types ∧ Settles debt types := by
  cases h with
  | unanswered h hdebt =>
    refine ⟨[], by rw [Pushed.answers h, List.append_nil], ?_⟩
    rw [hdebt hf (by rw [hfd]; rfl)]
    rfl
  | answered v n t type payload h hn ho hdebt htype hpush =>
    obtain rfl := Option.some.inj (hfd.symm.trans hn)
    have hone : answers fd [.frame fd type payload none] = [type] := by
      simp [answers, Event.answer, hpush]
    refine ⟨[type], by rw [ho, answers_append, hone, Pushed.answers h], ?_⟩
    rw [hdebt]
    obtain rfl | rfl := htype
    · exact .inl rfl
    · exact .inr rfl

structure Open (w : World) (i : ℕ) (fd : Fd) : Prop where
  connected : (w.server.clients i).connected = true
  socket : (w.server.clients i).socketFd = some fd

theorem Effect.other_answers {k : ℕ} (hk : k ≠ i) (h : Effect verify g k w w') (hw : Consistent w)
    (ho : Open w i fd) : Open w' i fd ∧ answers fd w'.out = answers fd w.out := by
  have hsame := Chain.others (Relation.ReflTransGen.single h) i hk.symm
  refine ⟨⟨hsame.connected.trans ho.connected, hsame.socketFd.trans ho.socket⟩, ?_⟩
  obtain hout | ⟨e, hout, hcause⟩ := Effect.cause h
  · rw [hout]
  · have hnone : answers fd [e] = [] := by
      refine answers_other (fun e' he' hanswer hfd ↦ ?_)
      rw [List.mem_singleton.mp he'] at hanswer hfd
      cases hcause with
      | emission e hem =>
        cases hem with
        | reply n _ _ hn =>
          rw [Option.some.inj hfd] at hn
          exact hk (hw.sockets.distinct k i fd hn ho.socket)
        | _ => cases hanswer
      | _ => cases hanswer
    rw [hout, answers_append, hnone, List.append_nil]

theorem Chain.other_answers {k : ℕ} (hk : k ≠ i) (h : Chain verify g k w w') (hw : Consistent w)
    (ho : Open w i fd) : Open w' i fd ∧ answers fd w'.out = answers fd w.out := by
  refine (Chain.carry (P := fun v ↦ Open v i fd ∧ answers fd v.out = answers fd w.out)
    (fun v v' he hv hp ↦ ?_) h hw ⟨ho, rfl⟩).2
  obtain ⟨hopen, hsame⟩ := Effect.other_answers hk he hv hp.1
  exact ⟨hopen, hsame.trans hp.2⟩

/-- What is not the connection's own leaves it open and answers nothing on it. -/
theorem other_answers {x : Input} (hw : Steady w) (ho : Open w i fd) (hx : Input.slot x ≠ some i) :
    Open (step verify w x) i fd ∧ answers fd (step verify w x).out = answers fd w.out := by
  cases @step_turn verify w hw.sound x with
  | accept challenge created _ h =>
    have hquiet : answers fd (step verify w x).out = answers fd w.out := by
      obtain hout | hout := h.out
      · rw [hout]
      · rw [hout, answers_append]
        exact List.append_nil _
    refine ⟨?_, hquiet⟩
    cases h with
    | full hs => exact ⟨by rw [hs]; exact ho.connected, by rw [hs]; exact ho.socket⟩
    | slot k es _ hfree _ hother =>
      have hki : i ≠ k := by
        rintro rfl
        rw [ho.connected] at hfree
        cases hfree
      exact ⟨by rw [hother i hki]; exact ho.connected, by rw [hother i hki]; exact ho.socket⟩
  | idle _ _ _ _ _ h =>
    rw [h]
    exact ⟨ho, rfl⟩
  | handled k stream env _ hslot _ _ hchain =>
    have hki : k ≠ i := by
      rintro rfl
      exact hx (by rw [hslot]; rfl)
    exact Chain.other_answers hki hchain hw.consistent ho

theorem time_clock (w : World) : (time w).1 = w.env.clock.headD 0 := by
  unfold time
  split
  next h => rw [h]; rfl
  next h => rw [h]; rfl

theorem checkRateLimit_congr (hclock : w'.env.clock = w.env.clock)
    (hlimit : (w'.server.clients i).rateLimit = (w.server.clients i).rateLimit) :
    (checkRateLimit w' i).1 = (checkRateLimit w i).1 := by
  have htime : (time w').1 = (time w).1 := by rw [time_clock, time_clock, hclock]
  unfold checkRateLimit
  dsimp only
  rw [time_server, time_server, htime, hlimit]
  split
  · rfl
  · rfl

theorem receive_clock (w : World) (stream : Bytes) :
    (receiveNetworkMessage w stream).2.env.clock = w.env.clock := by
  have hm : (malloc w).2.env.clock = w.env.clock := by
    unfold malloc
    split <;> rfl
  unfold receiveNetworkMessage
  dsimp only
  repeat' split
  all_goals first | rfl | exact hm

theorem takeRequest_admissible {type : UInt8} {payload : Bytes} {env : Env}
    (h : Admissible i w (.request type payload env)) :
    (takeRequest { w with env := env } i (packet type payload)).1 = some (type, payload) := by
  obtain ⟨hfits, hf, hlimit⟩ := h
  have hmessage := @receiveNetworkMessage_frame { w with env := env } hf.1 (type, payload) hfits []
  rw [List.append_nil] at hmessage
  have hsilent := receiveNetworkMessage_silent { w with env := env } (packet type payload)
  have hallowed := checkRateLimit_congr (i := i) (receive_clock { w with env := env } (packet type payload))
    (by rw [hsilent.server])
  rw [hlimit] at hallowed
  change (receiveNetworkMessage { w with env := env } (packet type payload)).1 = _ at hmessage
  unfold takeRequest
  dsimp only
  rw [hmessage]
  dsimp only
  rw [hallowed, if_neg (by decide)]
  split <;> rfl

theorem Effect.socket_before {k j : ℕ} (h : Effect verify g k w w')
    (hfd : (w'.server.clients j).socketFd = some fd) : (w.server.clients j).socketFd = some fd := by
  obtain ⟨hs, _⟩ | ⟨hs, _⟩ := IdentityView.socket (Effect.identity h) j
  · rw [← hs, hfd]
  · rw [hs] at hfd
    cases hfd

theorem Chain.socket_before {k j : ℕ} (h : Chain verify g k w w')
    (hfd : (w'.server.clients j).socketFd = some fd) : (w.server.clients j).socketFd = some fd := by
  induction h with
  | refl => exact hfd
  | tail _ he ih => exact ih (Effect.socket_before he hfd)

theorem Open.loggedIn (ho : Open w i fd) (hw : Steady w) :
    (lastLogin w.out fd).isSome = (w.server.clients i).authenticated := by
  rw [hw.linked.login i fd ho.socket]
  cases (w.server.clients i).authenticated with
  | false => rfl
  | true => rfl

/-- A request of the connection is answered as it is owed, and unless it is
`LOGOUT` the connection stays open. -/
theorem own_answers {type : UInt8} {payload : Bytes} {env : Env} (hw : Steady w) (ho : Open w i fd)
    (h : Admissible i w (.request type payload env)) :
    (∃ types, answers fd (arrive verify i w (.request type payload env)).out =
        answers fd w.out ++ types ∧
      Settles (owed (lastLogin w.out fd).isSome type payload) types) ∧
    (type ≠ MessageType.logout.code → Open (arrive verify i w (.request type payload env)) i fd) := by
  have hreq := takeRequest_admissible h
  have hf := takeRequest_faultless (w := { w with env := env }) h.2.1 hreq
  obtain ⟨hnoted, r, hserver⟩ := @takeRequest_some i fd { w with env := env }
    (packet type payload) type payload ho.socket hreq
  have hdispatch := fun htype ↦ @clientHandler_dispatch verify i w fd (packet type payload) env type
    payload ho.socket ho.connected hw.sound.sockets.running hreq htype
  have harrive : arrive verify i w (.request type payload env) =
      clientHandler verify { w with env := env } i (packet type payload) :=
    step_receive _ env ho.connected
  rw [harrive]
  refine ⟨?_, fun htype ↦ ?_⟩
  · have hhandled := @dispatch_handled verify i
      (takeRequest { w with env := env } i (packet type payload)).2 type payload
    rw [Open.loggedIn ho hw]
    unfold clientHandler
    dsimp only
    rw [hreq]
    dsimp only
    generalize (takeRequest { w with env := env } i (packet type payload)).2 = v
      at hf hnoted hserver hhandled ⊢
    have hself : v.server.clients i = { w.server.clients i with rateLimit := r } := by
      rw [hserver, modifyClient_self]
    rw [hself] at hhandled
    obtain ⟨types, htypes, hsettles⟩ := Handled.settles hhandled hf (by rw [hself]; exact ho.socket)
    have hbefore : answers fd v.out = answers fd w.out := by
      rw [hnoted, answers_append]
      exact List.append_nil _
    rw [hbefore] at htypes
    refine ⟨types, ?_, hsettles⟩
    split
    · exact htypes
    · rw [Pushed.answers (terminate_pushed _ i), htypes]
  · obtain ⟨_, hchain, hstays⟩ := hdispatch htype
    obtain ⟨n, hn⟩ := (Chain.sockets hchain hw.sound.sockets).connected i hstays
    have hsame := (Chain.socket_before hchain hn).symm.trans ho.socket
    rw [Option.some.inj hsame] at hn
    exact ⟨hstays, hn⟩

/-- Every request gets the one answer it is owed, in the order of the requests,
whatever the other connections do in between. -/
theorem answered_in_order (xs : List Input) (as : List Arrival)
    (hconn : ((reach verify xs).server.clients i).connected = true)
    (hfd : ((reach verify xs).server.clients i).socketFd = some fd)
    (hadmissible : Runs.Along (arrive verify i) (Admissible i) (reach verify xs) as)
    (hlogout : ∀ a ∈ as.dropLast, a.isLogout = false) :
    ∃ groups, answers fd (Runs.run (arrive verify i) (reach verify xs) as).out =
        answers fd (reach verify xs).out ++ groups.flatten ∧
      List.Forall₂ Settles (debts verify i fd (reach verify xs) as) groups := by
  have hw := @reach_steady verify xs
  generalize reach verify xs = w at hw hconn hfd hadmissible ⊢
  have ho : Open w i fd := ⟨hconn, hfd⟩
  clear hconn hfd
  induction as generalizing w with
  | nil => exact ⟨[], (List.append_nil _).symm, .nil⟩
  | cons a as ih =>
    obtain ⟨hfirst, hlater⟩ := hadmissible
    have hnext : Steady (arrive verify i w a) := step_steady hw _
    cases a with
    | request type payload env =>
      obtain ⟨⟨types, htypes, hsettles⟩, hstays⟩ := @own_answers verify i fd w type payload env hw ho
        hfirst
      cases as with
      | nil =>
        refine ⟨[types], ?_, .cons hsettles .nil⟩
        rw [Runs.run_cons, Runs.run_nil, htypes, List.flatten_singleton]
      | cons b bs =>
        have hopen := hstays (by simpa [Arrival.isLogout] using hlogout _ List.mem_cons_self)
        obtain ⟨groups, hgroups, hsettled⟩ := ih
          (fun a ha ↦ hlogout a (List.mem_cons_of_mem _ ha)) _ hnext hlater hopen
        refine ⟨types :: groups, ?_, .cons hsettles hsettled⟩
        rw [Runs.run_cons, hgroups, htypes, List.flatten_cons, List.append_assoc]
    | other x =>
      obtain ⟨hopen, hsame⟩ := @other_answers verify i fd w x hw ho hfirst
      have hrest : ∀ b ∈ as.dropLast, b.isLogout = false := by
        intro b hb
        cases as with
        | nil => cases hb
        | cons c cs => exact hlogout b (List.mem_cons_of_mem _ hb)
      obtain ⟨groups, hgroups, hsettled⟩ := ih hrest _ hnext hlater hopen
      refine ⟨groups, ?_, hsettled⟩
      rw [Runs.run_cons, hgroups]
      exact congrArg (· ++ groups.flatten) hsame

/-- A connection that asks for its messages before it logs in, registers alice,
sends a type nobody knows and logs out, while another connection comes in. -/
def hastyConversation : List Arrival :=
  [.request 0x05 [] Env.quiet,
    .request 0x01 (nameField (text "alice") ++ List.replicate publicKeySize 7) Env.quiet,
    .other (.accept (Block.zero _) true), .request 0x42 [] Env.quiet, .request 0x08 [] Env.quiet]

theorem hastyConversation_answered :
    ∃ groups, answers 0 (Runs.run (arrive (fun _ _ _ ↦ true) 0)
        (reach (fun _ _ _ ↦ true) [.accept (Block.zero _) true]) hastyConversation).out =
        groups.flatten ∧
      List.Forall₂ Settles [some .error, some .registerResponse, some .error, none] groups := by
  obtain ⟨groups, hgroups, hsettled⟩ := @answered_in_order (fun _ _ _ ↦ true) 0 0 [.accept (Block.zero _) true]
    hastyConversation (by decide +kernel) (by decide +kernel) (by decide +kernel) (by decide)
  have hnone : answers 0 (reach (fun _ _ _ ↦ true) [.accept (Block.zero _) true]).out = [] := by
    decide +kernel
  have hdebts : debts (fun _ _ _ ↦ true) 0 0 (reach (fun _ _ _ ↦ true) [.accept (Block.zero _) true])
      hastyConversation = [some .error, some .registerResponse, some .error, none] := by
    decide +kernel
  rw [hnone, List.nil_append] at hgroups
  rw [hdebts] at hsettled
  exact ⟨groups, hgroups, hsettled⟩

end CChat.Server.Conversation
