import CChat.Server.Conversation
import CChat.Threads.Feeds

namespace CChat.Threads.Replies

open CChat.Library CChat.Protocol.Types CChat.Protocol.Wire CChat.Server.State
  CChat.Server.Network CChat.Server.Users CChat.Server.Handlers CChat.Server.Effects
  CChat.Server.Views CChat.Server.Steps CChat.Server.Unchanged CChat.Server.Answers Machine
  Sections Messages Crew
open CChat.Server.Loop hiding Input step reach
open CChat.Server.Invariants hiding Turn step_turn
open CChat.Server.Delivery (faultless_neutral receiveNetworkMessage_faultless)
open CChat.Server.Conversation (Settles)
open CChat.Threads.Feeds (Control.leaving proceed_leaving)

/-- What the history of a connection comes to: whether it has logged in, what
each request taken from it is owed as of its arrival, and the frames written to
it that were not pushed. -/
structure Ledger where
  loggedIn : Bool
  debts : List (Option MessageType)
  answers : List MessageType
deriving DecidableEq

def Ledger.blank : Ledger := ⟨false, [], []⟩

def Ledger.note (fd : Fd) (l : Ledger) : Event → Ledger
  | .login fd' _ _ _ _ => if fd' = fd then { l with loggedIn := true } else l
  | .request fd' type payload =>
    if fd' = fd then { l with debts := l.debts ++ [owed l.loggedIn type payload] } else l
  | .frame fd' type _ _ =>
    if fd' = fd ∧ type ≠ .incomingMessage ∧ type ≠ .statusUpdate then
      { l with answers := l.answers ++ [type] }
    else l
  | _ => l

def ledger (fd : Fd) (out : List Event) : Ledger := out.foldl (Ledger.note fd) .blank

/-- The frame that is owed or an `ERROR` for it, and where memory or a write
may fail also none. -/
def Paid (faultless : Bool) (debt : Option MessageType) (types : List MessageType) : Prop :=
  Settles debt types ∨ faultless = false ∧ types = []

def Control.owes : Control → Option MessageType → Prop
  | .refusing _, debt => debt.isSome
  | .replying type _, debt => debt = some type ∧ type ≠ .incomingMessage ∧ type ≠ .statusUpdate
  | .registering _ _, debt => debt = some .registerResponse
  | .identifying _ _, debt => debt = some .loginResponse
  | .accrediting _ _ _, debt => debt = some .loginResponse
  | .onlining _ _, debt => debt = some .loginResponse
  | .delivering, debt => debt = some .loginResponse
  | .seekingKey _, debt => debt = some .publicKeyResponse
  | .copyingKey _ _, debt => debt = some .publicKeyResponse
  | .seekingRecipient _ _, debt => debt = some .messageAck
  | .drawing _ _, debt => debt = some .messageAck
  | .locating _ _ _, debt => debt = some .messageAck
  | .sending _ _ _ _, debt => debt = some .messageAck
  | .queueing _ _ _, debt => debt = some .messageAck
  | .storing _ _ _ _, debt => debt = some .messageAck
  | .fetching, debt => debt = none
  | .seekingSelf _, debt => debt = none
  | .settingUser _ _, debt => debt = none
  | .settingClient _, debt => debt = none
  | .hangingUp, debt => debt = none
  | .listing, debt => debt = some .userListResponse
  | .snapshotting _ _, debt => debt = some .userListResponse
  | .announcing _ _ .loggedIn, debt => debt = some .loginResponse
  | .announcing _ _ .statusSet, debt => debt = none
  | .sweeping _ _ _ .loggedIn, debt => debt = some .loginResponse
  | .sweeping _ _ _ .statusSet, debt => debt = none
  | _, _ => False

/-- How a handler stands: between two requests, at one that is owed something
yet, or on its way out, perhaps behind the `ERROR` of the rate limit. -/
inductive Stage : Control → List (Option MessageType) → List MessageType → Prop
  | reading : Stage .reading [] []
  | testing : Stage .testing [] []
  | working (c : Control) (debt : Option MessageType) (h : Control.owes c debt) :
      Stage c [debt] []
  | leaving (c : Control) (tail : List MessageType) (h : Control.leaving c = true)
      (ht : tail = [] ∨ tail = [.error]) : Stage c [] tail

/-- The answers belong to the requests one by one, in their order, and only the
last request may wait for its own. -/
def InTurn (faultless : Bool) (c : Control) (l : Ledger) : Prop :=
  ∃ paid due groups tail, l.debts = paid ++ due ∧ l.answers = groups.flatten ++ tail ∧
    List.Forall₂ (Paid faultless) paid groups ∧ Stage c due tail

variable {verify : Signature → Challenge → Key → Bool} {m : Pool} {w w' : World} {i : ℕ}
  {c c' : Control} {fd h : Fd} {stream payload : Bytes} {type : UInt8} {faultless : Bool}
  {l : Ledger} {debt : Option MessageType}

theorem ledger_append (fd : Fd) (out es : List Event) :
    ledger fd (out ++ es) = es.foldl (Ledger.note fd) (ledger fd out) := List.foldl_append

theorem ledger_same {out out' es : List Event} (ho : out' = out ++ es)
    (h : ∀ e ∈ es, ∀ l : Ledger, l.note fd e = l) : ledger fd out' = ledger fd out := by
  rw [ho, ledger_append]
  generalize ledger fd out = l
  clear ho
  induction es with
  | nil => rfl
  | cons e es ih =>
    rw [List.foldl_cons, h e List.mem_cons_self]
    exact ih (fun e' he ↦ h e' (List.mem_cons_of_mem _ he))

theorem note_same {e : Event} (hmark : Event.isMark e = false) (hanswer : Event.isAnswer e = false)
    (l : Ledger) : l.note fd e = l := by
  cases e with
  | request fd' type payload => cases hmark
  | login fd' name signature challenge key => cases hmark
  | frame fd' type payload entry =>
    have hpush : ¬(type ≠ .incomingMessage ∧ type ≠ .statusUpdate) := of_decide_eq_false hanswer
    exact if_neg (fun hf ↦ hpush hf.2)
  | torn fd' bytes => rfl
  | queued entry => rfl
  | closed fd' => rfl

/-- Nothing is noted of a step that marks nothing and answers nobody. -/
theorem pushed_ledger (hs : Still w w') (hp : Pushed w w') :
    ledger fd w'.out = ledger fd w.out := by
  obtain ⟨es, ho, hes⟩ := hs.events
  obtain ⟨es', ho', hes'⟩ := hp.events
  obtain rfl : es = es' := List.append_cancel_left (ho.symm.trans ho')
  exact ledger_same ho (fun e he ↦ note_same (hes e he) (hes' e he))

theorem handled_ledger (hs : Still w w') (hw : Handled w i debt w')
    (hf : faultless = true → w.env.Faultless) (hfd : (w.server.clients i).socketFd = some h) :
    ∃ types, Paid faultless debt types ∧ ∀ fd, ledger fd w'.out =
      if fd = h then { ledger fd w.out with answers := (ledger fd w.out).answers ++ types }
      else ledger fd w.out := by
  cases hw with
  | unanswered hp hdebt =>
    refine ⟨[], ?_, fun fd ↦ ?_⟩
    · cases hfaultless : faultless with
      | false => exact .inr ⟨rfl, rfl⟩
      | true =>
        rw [hdebt (hf hfaultless) (by rw [hfd]; rfl)]
        exact .inl rfl
    · rw [pushed_ledger hs hp, List.append_nil, ite_self]
  | answered v fd' t type' payload hp hfd' ho hdebt htype hpush =>
    obtain rfl : fd' = h := Option.some.inj (hfd'.symm.trans hfd)
    refine ⟨[type'], .inl ?_, fun fd ↦ ?_⟩
    · obtain rfl | rfl := htype
      · exact hdebt ▸ .inl rfl
      · exact hdebt ▸ .inr rfl
    · obtain ⟨es, hes, hanswers⟩ := hp.events
      obtain ⟨es', hes', hmarks⟩ := hs.events
      obtain rfl : es' = es ++ [.frame fd' type' payload none] :=
        List.append_cancel_left (hes'.symm.trans (by rw [ho, hes, List.append_assoc]))
      have hbefore : ledger fd v.out = ledger fd w.out := ledger_same hes (fun e he ↦
        note_same (hmarks e (List.mem_append_left _ he)) (hanswers e he))
      rw [ho, ledger_append, hbefore]
      by_cases heq : fd = fd'
      · rw [if_pos heq]
        exact if_pos ⟨heq.symm, hpush⟩
      · rw [if_neg heq]
        exact if_neg (fun hsame ↦ heq hsame.1.symm)

theorem proceed_pushed (hrefusing : ∀ e, c ≠ .refusing e)
    (hreplying : ∀ type payload, c ≠ .replying type payload) :
    Pushed w (proceed verify w i c).1 := by
  cases c with
  | refusing e => exact absurd rfl (hrefusing e)
  | replying type payload => exact absurd rfl (hreplying type payload)
  | reading => exact .refl w
  | testing => exact .refl w
  | registering username key => exact addUser_pushed w username key
  | identifying username signature =>
    simp only [proceed]
    split <;> exact .refl w
  | accrediting k username signature =>
    simp only [proceed]
    split
    · exact .refl w
    · split
      · exact .quiet rfl id
      · exact .event rfl rfl id
  | onlining k username => exact .quiet rfl id
  | announcing username status after =>
    simp only [proceed]
    split <;> exact malloc_pushed w
  | sweeping username status j after =>
    exact Neutral.sweeping pushed_neutral w i username status j after
  | delivering => exact pushed_neutral.deliverQueuedMessages w i
  | seekingKey username =>
    simp only [proceed]
    split <;> exact .refl w
  | copyingKey k username => exact .refl w
  | seekingRecipient recipient data =>
    simp only [proceed]
    split <;> exact .refl w
  | drawing recipient data => exact .quiet rfl id
  | locating id recipient data =>
    simp only [proceed]
    split <;> exact .refl w
  | sending id recipient data j => exact Neutral.sending pushed_neutral w i id recipient data j
  | queueing id recipient data =>
    simp only [proceed]
    split
    · exact .refl w
    · split <;> exact .refl w
  | storing id recipient data j => exact Neutral.storeMessage pushed_neutral w j recipient _ data
  | fetching => exact pushed_neutral.deliverQueuedMessages w i
  | seekingSelf status =>
    simp only [proceed]
    split <;> exact .refl w
  | settingUser k status => exact .quiet rfl id
  | settingClient status => exact .quiet rfl id
  | listing =>
    simp only [proceed]
    split <;> exact malloc_pushed w
  | snapshotting k users =>
    simp only [proceed]
    split <;> exact .refl w
  | hangingUp => exact .quiet rfl id
  | closing =>
    simp only [proceed]
    split
    · split <;> exact .refl w
    · exact .refl w
  | offlining k => exact .quiet rfl id
  | shutting =>
    refine Pushed.trans (v := closeSocket w i) ?_ (.quiet rfl id)
    unfold closeSocket
    split
    · exact .refl w
    · exact .event rfl rfl id
  | done => exact .refl w

theorem proceed_owes (hrefusing : ∀ e, c ≠ .refusing e)
    (hreplying : ∀ type payload, c ≠ .replying type payload) (h : Control.owes c debt) :
    Control.owes (proceed verify w i c).2 debt ∨
      debt = none ∧ (proceed verify w i c).2 = .testing := by
  have hpush : ∀ t : MessageType, t = .registerResponse ∨ t = .loginResponse ∨
      t = .publicKeyResponse ∨ t = .messageAck ∨ t = .userListResponse →
        t ≠ .incomingMessage ∧ t ≠ .statusUpdate := by
    rintro t (rfl | rfl | rfl | rfl | rfl) <;> exact ⟨by decide, by decide⟩
  cases c with
  | refusing e => exact absurd rfl (hrefusing e)
  | replying type payload => exact absurd rfl (hreplying type payload)
  | registering username key => exact .inl ⟨h, hpush _ (.inl rfl)⟩
  | identifying username signature =>
    simp only [proceed]
    split
    · exact .inl ⟨h, hpush _ (.inr (.inl rfl))⟩
    · exact .inl h
  | accrediting k username signature =>
    simp only [proceed]
    split
    · exact .inl ⟨h, hpush _ (.inr (.inl rfl))⟩
    · split <;> exact .inl h
  | onlining k username => exact .inl h
  | announcing username status after =>
    simp only [proceed]
    cases after with
    | loggedIn => split <;> exact .inl h
    | statusSet =>
      split
      · exact .inr ⟨h, rfl⟩
      · exact .inl h
    | closing => cases h
  | sweeping username status j after =>
    simp only [proceed]
    cases after with
    | loggedIn =>
      split
      · split <;> exact .inl h
      · exact .inl h
    | statusSet =>
      split
      · split <;> exact .inl h
      · exact .inr ⟨h, rfl⟩
    | closing => cases h
  | delivering => exact .inl ⟨h, hpush _ (.inr (.inl rfl))⟩
  | seekingKey username =>
    simp only [proceed]
    split
    · exact .inl ⟨h, hpush _ (.inr (.inr (.inl rfl)))⟩
    · exact .inl h
  | copyingKey k username => exact .inl ⟨h, hpush _ (.inr (.inr (.inl rfl)))⟩
  | seekingRecipient recipient data =>
    simp only [proceed]
    split
    · exact .inl (by rw [h]; rfl)
    · exact .inl h
  | drawing recipient data => exact .inl h
  | locating id recipient data =>
    simp only [proceed]
    split <;> exact .inl h
  | sending id recipient data j =>
    simp only [proceed]
    split
    · exact .inl ⟨h, hpush _ (.inr (.inr (.inr (.inl rfl))))⟩
    · split
      · exact .inl ⟨h, hpush _ (.inr (.inr (.inr (.inl rfl))))⟩
      · exact .inl h
  | queueing id recipient data =>
    simp only [proceed]
    split
    · exact .inl ⟨h, hpush _ (.inr (.inr (.inr (.inl rfl))))⟩
    · split
      · exact .inl ⟨h, hpush _ (.inr (.inr (.inr (.inl rfl))))⟩
      · exact .inl h
  | storing id recipient data j => exact .inl ⟨h, hpush _ (.inr (.inr (.inr (.inl rfl))))⟩
  | fetching => exact .inr ⟨h, rfl⟩
  | seekingSelf status =>
    simp only [proceed]
    split
    · exact .inr ⟨h, rfl⟩
    · exact .inl h
  | settingUser k status => exact .inl h
  | settingClient status => exact .inl h
  | listing =>
    simp only [proceed]
    split
    · exact .inl (by rw [h]; rfl)
    · exact .inl h
  | snapshotting k users =>
    simp only [proceed]
    split
    · exact .inl h
    · exact .inl ⟨h, hpush _ (.inr (.inr (.inr (.inr rfl))))⟩
  | hangingUp => exact .inr ⟨h, rfl⟩
  | _ => cases h

/-- A request is sent where it is owed what it is owed. -/
theorem route_owes (authenticated : Bool) (type : UInt8) (payload : Bytes) :
    Control.owes (route authenticated type payload) (owed authenticated type payload) := by
  have hparsed : ∀ {α : Type} (request : Except Refusal α) (next : α → Control) (t : MessageType),
      (∀ a, Control.owes (next a) (some t)) → Control.owes (parsed request next) (some t) := by
    intro α request next t hnext
    exact parsed_of (P := (Control.owes · (some t))) request (fun _ ↦ rfl) hnext
  have hlocked : ∀ {next : Control} (t : MessageType), Control.owes next (some t) →
      Control.owes (loggedInOnly authenticated next) (some t) := by
    intro next t hnext
    exact loggedInOnly_of (P := (Control.owes · (some t))) authenticated (fun _ ↦ rfl)
      (fun _ ↦ hnext)
  unfold route owed
  split_ifs with hregister hlogin hkey hsend hget hin hstatus hvalid hlist hlogout
  · exact hparsed _ _ _ (fun _ ↦ rfl)
  · exact hparsed _ _ _ (fun _ ↦ rfl)
  · exact hlocked _ (hparsed _ _ _ (fun _ ↦ rfl))
  · exact hlocked _ (hparsed _ _ _ (fun _ ↦ rfl))
  · rw [hin]
    rfl
  · rw [Bool.eq_false_iff.mpr hin]
    rfl
  · obtain ⟨status, hok⟩ := (parseSetStatus_ok payload).mpr hvalid.2
    rw [hvalid.1, hok]
    rfl
  · refine loggedInOnly_of (P := (Control.owes · _)) authenticated (fun _ ↦ rfl) (fun hin ↦ ?_)
    cases hparse : parseSetStatus payload with
    | error e => rfl
    | ok status => exact absurd ⟨hin, (parseSetStatus_ok payload).mp ⟨status, hparse⟩⟩ hvalid
  · exact hlocked _ rfl
  · rfl
  · rfl

theorem proceed_faultless (h : w.env.Faultless) : (proceed verify w i c).1.env.Faultless := by
  have hreply : ∀ fd type payload, (sendNetworkMessage w fd type payload none).2.env.Faultless :=
    fun fd type payload ↦ (sendNetworkMessage_faultless h fd type payload none).1
  cases c with
  | refusing e =>
    have hroom := (malloc_faultless h).2
    simp only [proceed, refuse, sendError]
    split
    · exact hroom
    · exact (sendNetworkMessage_faultless hroom _ _ _ none).1
  | replying type payload => exact hreply _ type payload
  | _ =>
    exact (proceed_pushed (fun e he ↦ by cases he) (fun type payload he ↦ by cases he)).faultless h

/-- A request that is not taken leaves nothing behind but the `ERROR` of the
rate limit. -/
theorem refused_ledger (hreq : (takeRequest w i stream).1 = none)
    (hfd : (w.server.clients i).socketFd = some h) :
    ∃ tail, (tail = [] ∨ tail = [.error]) ∧ ∀ fd, ledger fd (takeRequest w i stream).2.out =
      if fd = h then { ledger fd w.out with answers := (ledger fd w.out).answers ++ tail }
      else ledger fd w.out := by
  have hquiet : ∀ v : World, v.out = w.out →
      ∃ tail : List MessageType, (tail = [] ∨ tail = [.error]) ∧ ∀ fd, ledger fd v.out =
        if fd = h then { ledger fd w.out with answers := (ledger fd w.out).answers ++ tail }
      else ledger fd w.out :=
    fun v hv ↦ ⟨[], .inl rfl, fun fd ↦ by rw [hv, List.append_nil, ite_self]⟩
  have hsilent := receiveNetworkMessage_silent w stream
  unfold takeRequest at hreq ⊢
  dsimp only at hreq ⊢
  split
  · exact hquiet _ hsilent.out
  · exact hquiet _ hsilent.out
  next type payload hmessage =>
    rw [hmessage] at hreq
    dsimp only at hreq
    split
    next hlimited =>
      obtain ⟨r, hserver, hout, _⟩ := checkRateLimit_server (receiveNetworkMessage w stream).2 i
      generalize (checkRateLimit (receiveNetworkMessage w stream).2 i).2 = v at hserver hout ⊢
      have hsocket : (v.server.clients i).socketFd = some h := by
        rw [hserver, modifyClient_self, hsilent.server]
        exact hfd
      obtain ⟨types, hpaid, hledger⟩ := @handled_ledger v _ i h false (some .error)
        (refuse_still v i ⟨.rateLimit, "Rate limit exceeded"⟩)
        (refuse_handled (.refl v) rfl rfl ⟨.rateLimit, "Rate limit exceeded"⟩)
        (fun hf ↦ Bool.noConfusion hf) hsocket
      refine ⟨types, ?_, fun fd ↦ ?_⟩
      · obtain (htypes | htypes) | ⟨_, htypes⟩ := hpaid
        · exact .inr htypes
        · exact .inr htypes
        · exact .inl htypes
      · rw [← hsilent.out, ← hout]
        exact hledger fd
    next hallowed =>
      rw [if_neg hallowed] at hreq
      split at hreq <;> cases hreq

theorem takeRequest_env (hf : w.env.Faultless) : (takeRequest w i stream).2.env.Faultless := by
  have hreceived := receiveNetworkMessage_faultless stream hf
  have hlimit : (checkRateLimit (receiveNetworkMessage w stream).2 i).2.env.Faultless := by
    have ht := time_faultless hreceived
    unfold checkRateLimit
    dsimp only
    split <;> exact ht
  unfold takeRequest
  dsimp only
  split
  · exact hreceived
  · exact hreceived
  · split
    · have hrefused := @proceed_faultless (fun _ _ _ ↦ true) _ i
        (.refusing ⟨.rateLimit, "Rate limit exceeded"⟩) hlimit
      exact hrefused
    · split <;> exact hlimit

/-- A request that is taken is owed what the login of its connection makes it. -/
theorem taken_ledger (hreq : (takeRequest w i stream).1 = some (type, payload))
    (hfd : (w.server.clients i).socketFd = some h) :
    ∀ fd, ledger fd (takeRequest w i stream).2.out = if fd = h then
      { ledger fd w.out with debts :=
        (ledger fd w.out).debts ++ [owed (ledger fd w.out).loggedIn type payload] }
      else ledger fd w.out := by
  intro fd
  rw [(takeRequest_some hfd hreq).1, ledger_append]
  by_cases heq : fd = h
  · rw [if_pos heq]
    exact if_pos heq.symm
  · rw [if_neg heq]
    exact if_neg (Ne.symm heq)

structure Accounted (faultless : Bool) (m : Pool) : Prop where
  rings : Rings m.world
  manned : Manned m
  env : faultless = true → m.world.env.Faultless
  login : ∀ h handler, m.handlers h = some handler → handler.control ≠ .done →
    (m.world.server.clients handler.slot).authenticated = (ledger h m.world.out).loggedIn
  blank : ∀ h, m.handlers h = none → ledger h m.world.out = .blank
  turn : ∀ h handler, m.handlers h = some handler →
    InTurn faultless handler.control (ledger h m.world.out)

theorem initial_accounted : Accounted faultless Pool.initial where
  rings := initial_rings
  manned := initial_manned
  env _ := by decide
  login _ _ hh := by cases hh
  blank _ _ := rfl
  turn _ _ hh := by cases hh

theorem InTurn.start : InTurn faultless .testing .blank :=
  ⟨[], [], [], [], rfl, rfl, .nil, .testing⟩

/-- One handler has gone on, and the other connections have not been noted for. -/
theorem Accounted.put (hm : Accounted faultless m) (hh : m.handlers h = some ⟨i, c⟩)
    (hc : c ≠ .done) (hrings : Rings w') (hmanned : Manned (m.put h i (w', c')))
    (henv : faultless = true → w'.env.Faultless)
    (hothers : ∀ j, j ≠ i →
      (w'.server.clients j).authenticated = (m.world.server.clients j).authenticated)
    (hledger : ∀ fd, fd ≠ h → ledger fd w'.out = ledger fd m.world.out)
    (hlogin : c' ≠ .done → (w'.server.clients i).authenticated = (ledger h w'.out).loggedIn)
    (hturn : InTurn faultless c' (ledger h w'.out)) : Accounted faultless (m.put h i (w', c')) := by
  have hold : ∀ h' handler, (m.put h i (w', c')).handlers h' = some handler →
      h' = h ∧ handler = ⟨i, c'⟩ ∨ h' ≠ h ∧ m.handlers h' = some handler := by
    intro h' handler hh'
    by_cases heq : h' = h
    · subst heq
      have hnew : some (⟨i, c'⟩ : Handler) = some handler :=
        (Function.update_self h' _ m.handlers).symm.trans hh'
      exact .inl ⟨rfl, (Option.some.inj hnew).symm⟩
    · exact .inr ⟨heq, (Function.update_of_ne heq _ m.handlers).symm.trans hh'⟩
  refine ⟨hrings, hmanned, henv, fun h' handler hh' hne ↦ ?_, fun h' hnone ↦ ?_,
    fun h' handler hh' ↦ ?_⟩
  · obtain ⟨rfl, rfl⟩ | ⟨hother, hh''⟩ := hold h' handler hh'
    · exact hlogin hne
    · have hslot : handler.slot ≠ i := by
        intro heq
        have hown := hm.manned.owner h' handler hh'' hne
        rw [heq] at hown
        exact hother (Option.some.inj (hown.symm.trans (hm.manned.owner h _ hh hc)))
      refine (hothers _ hslot).trans ?_
      rw [hm.login h' handler hh'' hne]
      exact congrArg Ledger.loggedIn (hledger h' hother).symm
  · have hne : h' ≠ h := by
      rintro rfl
      have hsome : some (⟨i, c'⟩ : Handler) = none :=
        (Function.update_self h' _ m.handlers).symm.trans hnone
      cases hsome
    exact (hledger h' hne).trans
      (hm.blank h' ((Function.update_of_ne hne _ m.handlers).symm.trans hnone))
  · obtain ⟨rfl, rfl⟩ | ⟨hother, hh''⟩ := hold h' handler hh'
    · exact hturn
    · have hsame := hm.turn h' handler hh''
      rw [← hledger h' hother] at hsame
      exact hsame

theorem InTurn.login (h : InTurn faultless c l) (b : Bool) :
    InTurn faultless c { l with loggedIn := b } := h

theorem InTurn.next {paid : List (Option MessageType)} {groups : List (List MessageType)}
    {types : List MessageType} (hpaid : List.Forall₂ (Paid faultless) paid groups)
    (h : Paid faultless debt types) :
    List.Forall₂ (Paid faultless) (paid ++ [debt]) (groups ++ [types]) :=
  List.rel_append hpaid (.cons h .nil)

theorem InTurn.proceed (h : InTurn faultless c l) (hrefusing : ∀ e, c ≠ .refusing e)
    (hreplying : ∀ type payload, c ≠ .replying type payload) :
    InTurn faultless (proceed verify w i c).2 l := by
  obtain ⟨paid, due, groups, tail, hdebts, hanswers, hpaid, hstage⟩ := h
  cases hstage with
  | reading => exact ⟨paid, [], groups, [], hdebts, hanswers, hpaid, .reading⟩
  | testing =>
    simp only [Machine.proceed]
    split
    · exact ⟨paid, [], groups, [], hdebts, hanswers, hpaid, .reading⟩
    · exact ⟨paid, [], groups, [], hdebts, hanswers, hpaid, .leaving _ _ rfl (.inl rfl)⟩
  | working _ debt howes =>
    obtain hstays | ⟨rfl, hdone⟩ := @proceed_owes verify w i c debt hrefusing hreplying howes
    · exact ⟨paid, [debt], groups, [], hdebts, hanswers, hpaid, .working _ debt hstays⟩
    · rw [hdone]
      exact ⟨paid ++ [none], [], groups ++ [[]], [], by rw [hdebts, List.append_nil],
        by rw [hanswers, List.flatten_append]; simp, InTurn.next hpaid (.inl rfl), .testing⟩
  | leaving _ _ hleaving htail =>
    exact ⟨paid, [], groups, tail, hdebts, hanswers, hpaid,
      .leaving _ _ (proceed_leaving hleaving) htail⟩

/-- A handler that is at a request is done with it once it has paid. -/
theorem InTurn.answer (h : InTurn faultless c l) (hleaving : Control.leaving c = false)
    (hc : c ≠ .reading ∧ c ≠ .testing) :
    ∃ debt, Control.owes c debt ∧ ∀ types, Paid faultless debt types →
      InTurn faultless .testing { l with answers := l.answers ++ types } := by
  obtain ⟨paid, due, groups, tail, hdebts, hanswers, hpaid, hstage⟩ := h
  cases hstage with
  | reading => exact absurd rfl hc.1
  | testing => exact absurd rfl hc.2
  | working _ debt howes =>
    refine ⟨debt, howes, fun types htypes ↦ ⟨paid ++ [debt], [], groups ++ [types], [],
      by rw [hdebts, List.append_nil], ?_, InTurn.next hpaid htypes, .testing⟩⟩
    dsimp only
    rw [hanswers, List.flatten_append]
    simp
  | leaving _ _ hout =>
    rw [hleaving] at hout
    cases hout

structure Noted (w : World) (i : ℕ) (h : Fd) (c : Control) (w' : World) (b : Bool) : Prop where
  book : ∀ fd, ledger fd w'.out = if fd = h then
      { ledger fd w.out with loggedIn := (ledger fd w.out).loggedIn || b }
    else ledger fd w.out
  self : c ≠ .shutting →
    (w'.server.clients i).authenticated = ((w.server.clients i).authenticated || b)
  other : ∀ j, j ≠ i → (w'.server.clients j).authenticated = (w.server.clients j).authenticated

theorem Noted.quiet (hs : Section verify w i c w') (hl : ∀ fd, ledger fd w'.out = ledger fd w.out)
    (hself : c ≠ .shutting →
      (w'.server.clients i).authenticated = (w.server.clients i).authenticated) :
    Noted w i h c w' false :=
  ⟨fun fd ↦ by rw [hl fd, Bool.or_false, ite_self], fun hc ↦ by rw [hself hc, Bool.or_false],
    fun j hj ↦ (Section.others hs hj).authenticated⟩

theorem section_noted (hs : Section verify w i c w') (hp : Pushed w w')
    (hfd : (w.server.clients i).socketFd = some h) : ∃ b, Noted w i h c w' b := by
  have hsilent : w'.out = w.out → ∀ fd, ledger fd w'.out = ledger fd w.out :=
    fun ho fd ↦ by rw [ho]
  cases id hs with
  | still h =>
    exact ⟨false, .quiet hs (fun _ ↦ pushed_ledger h hp) (fun _ ↦ (h.clients i).authenticated)⟩
  | added username key _ _ hw =>
    refine ⟨false, .quiet hs (hsilent ?_) (fun _ ↦ ?_)⟩
    · rw [hw]
      unfold addUser
      split_ifs <;> rfl
    · rw [hw]
      unfold addUser
      split_ifs <;> rfl
  | login k username signature _ _ hserver ho =>
    refine ⟨true, fun fd ↦ ?_, fun _ ↦ ?_, fun j hj ↦ (Section.others hs hj).authenticated⟩
    · rw [hfd] at ho
      rw [ho, ledger_append, Bool.or_true]
      by_cases heq : fd = h
      · rw [if_pos heq]
        exact if_pos heq.symm
      · rw [if_neg heq]
        exact if_neg (Ne.symm heq)
    · rw [modifyClient_at hserver, Bool.or_true]
  | status k status _ hw =>
    exact ⟨false, .quiet hs (hsilent (by rw [hw]; rfl)) (fun _ ↦ by rw [hw]; rfl)⟩
  | hangUp _ hw =>
    refine ⟨false, .quiet hs (hsilent (by rw [hw]; rfl)) (fun _ ↦ ?_)⟩
    rw [hw, modifyClient_self]
  | shut hc _ ho =>
    refine ⟨false, .quiet hs (fun fd ↦ ledger_same ho (fun e he l ↦ ?_)) (fun hne ↦ absurd hc hne)⟩
    rw [hfd] at he
    rw [List.mem_singleton.mp he]
    rfl

def Input.Faultless : Input → Prop
  | .environment env => env.Faultless
  | _ => True

instance : (x : Input) → Decidable (Input.Faultless x)
  | .environment env => inferInstanceAs (Decidable env.Faultless)
  | .accept _ _ => isTrue trivial
  | .receive _ _ => isTrue trivial
  | .go _ => isTrue trivial

/-- Nobody is put into a slot whose handler is at work, and where nothing is to
fail no environment makes it. -/
def orderly (faultless : Bool) (m : Pool) (x : Input) : Prop :=
  vacant m x = true ∧ (faultless = true → Input.Faultless x)

instance (faultless : Bool) (m : Pool) (x : Input) : Decidable (orderly faultless m x) :=
  inferInstanceAs (Decidable (vacant m x = true ∧ (faultless = true → Input.Faultless x)))

theorem receive_accounted (hm : Accounted faultless m)
    (hh : m.handlers h = some ⟨i, .reading⟩)
    (hrings : Rings (receiveRequest m.world i stream).1)
    (hmanned : Manned (m.put h i (receiveRequest m.world i stream))) :
    Accounted faultless (m.put h i (receiveRequest m.world i stream)) := by
  have hreading : Control.reading ≠ .done := by decide
  have hfd := hm.manned.owner h _ hh hreading
  have hids := (takeRequest_admitted m.world i stream).identity
  have hlogin := hm.login h _ hh hreading
  have henv : faultless = true → (takeRequest m.world i stream).2.env.Faultless :=
    fun hf ↦ takeRequest_env (hm.env hf)
  obtain ⟨paid, due, groups, tail, hdebts, hanswers, hpaid, hstage⟩ := hm.turn h _ hh
  obtain ⟨rfl, rfl⟩ : due = [] ∧ tail = [] := by
    cases hstage with
    | reading => exact ⟨rfl, rfl⟩
    | working _ _ howes => cases howes
    | leaving _ _ hleaving => cases hleaving
  rw [List.append_nil] at hdebts hanswers
  unfold receiveRequest at hrings hmanned ⊢
  dsimp only at hrings hmanned ⊢
  cases hreq : (takeRequest m.world i stream).1 with
  | none =>
    rw [hreq] at hrings hmanned
    obtain ⟨tail, htail, hledger⟩ := refused_ledger hreq hfd
    refine hm.put hh hreading hrings hmanned henv (fun j _ ↦ (hids j).1.authenticated)
      (fun fd hfd ↦ (hledger fd).trans (if_neg hfd)) (fun _ ↦ ?_) ?_
    · rw [hledger h, if_pos rfl, (hids i).1.authenticated]
      exact hlogin
    · rw [hledger h, if_pos rfl]
      exact ⟨paid, [], groups, tail, hdebts.trans (List.append_nil _).symm,
        congrArg (· ++ tail) hanswers, hpaid, .leaving _ _ rfl htail⟩
  | some request =>
    obtain ⟨type, payload⟩ := request
    rw [hreq] at hrings hmanned
    have hledger := taken_ledger hreq hfd
    refine hm.put hh hreading hrings hmanned henv (fun j _ ↦ (hids j).1.authenticated)
      (fun fd hfd ↦ (hledger fd).trans (if_neg hfd)) (fun _ ↦ ?_) ?_
    · rw [hledger h, if_pos rfl, (hids i).1.authenticated]
      exact hlogin
    · rw [hledger h, if_pos rfl, (hids i).1.authenticated, hlogin]
      exact ⟨paid, [owed _ type payload], groups, [], congrArg (· ++ _) hdebts,
        hanswers.trans (List.append_nil _).symm, hpaid,
        .working _ _ (route_owes _ type payload)⟩

theorem go_accounted (hm : Accounted faultless m) (hh : m.handlers h = some ⟨i, c⟩)
    (hrings : Rings (proceed verify m.world i c).1)
    (hmanned : Manned (m.put h i (proceed verify m.world i c))) :
    Accounted faultless (m.put h i (proceed verify m.world i c)) := by
  by_cases hc : c = .done
  · subst hc
    have hsame : m.put h i (proceed verify m.world i .done) = m := by
      rw [Machine.Pool.put]
      exact congrArg (Pool.mk m.world) (Function.update_eq_self_iff.mpr hh.symm)
    rw [hsame]
    exact hm
  have hfd := hm.manned.owner h _ hh hc
  have hlogin := hm.login h _ hh hc
  have hturn := hm.turn h _ hh
  have henv : faultless = true → (proceed verify m.world i c).1.env.Faultless :=
    fun hf ↦ proceed_faultless (hm.env hf)
  have hanswer : ∀ w' (types : List MessageType), (proceed verify m.world i c) = (w', .testing) →
      Still m.world w' →
      (∀ fd, ledger fd w'.out = if fd = h then
        { ledger fd m.world.out with answers := (ledger fd m.world.out).answers ++ types }
      else ledger fd m.world.out) →
      InTurn faultless .testing
        { ledger h m.world.out with answers := (ledger h m.world.out).answers ++ types } →
      Accounted faultless (m.put h i (proceed verify m.world i c)) := by
    intro w' types hp hstill hledger hnext
    rw [hp] at hrings hmanned henv ⊢
    refine hm.put hh hc hrings hmanned henv (fun j _ ↦ (hstill.clients j).authenticated)
      (fun fd hfd ↦ (hledger fd).trans (if_neg hfd)) (fun _ ↦ ?_) ?_
    · rw [hledger h, if_pos rfl, (hstill.clients i).authenticated]
      exact hlogin
    · rw [hledger h, if_pos rfl]
      exact hnext
  by_cases hrefusing : ∃ e, c = .refusing e
  · obtain ⟨e, rfl⟩ := hrefusing
    obtain ⟨debt, howes, hpays⟩ := hturn.answer rfl ⟨by simp, by simp⟩
    obtain ⟨t, rfl⟩ := Option.isSome_iff_exists.mp howes
    obtain ⟨types, hpaid, hledger⟩ := handled_ledger (refuse_still m.world i e)
      (@refuse_handled i m.world m.world t (.refl _) rfl rfl e) hm.env hfd
    exact hanswer _ types rfl (refuse_still m.world i e) hledger (hpays types hpaid)
  by_cases hreplying : ∃ type payload, c = .replying type payload
  · obtain ⟨type, payload, rfl⟩ := hreplying
    obtain ⟨debt, ⟨rfl, hpush⟩, hpays⟩ := hturn.answer rfl ⟨by simp, by simp⟩
    obtain ⟨types, hpaid, hledger⟩ := handled_ledger (reply_still m.world i type payload)
      (@reply_handled i m.world m.world type type payload (.refl _) rfl (.inl rfl) hpush
        (fun _ ↦ ⟨rfl, rfl⟩)) hm.env hfd
    exact hanswer _ types rfl (reply_still m.world i type payload) hledger (hpays types hpaid)
  have hrefusing' : ∀ e, c ≠ .refusing e := fun e he ↦ hrefusing ⟨e, he⟩
  have hreplying' : ∀ type payload, c ≠ .replying type payload :=
    fun type payload he ↦ hreplying ⟨type, payload, he⟩
  obtain ⟨b, hb⟩ := section_noted (proceed_section m.world i c)
    (@proceed_pushed verify m.world i c hrefusing' hreplying') hfd
  rw [← Prod.mk.eta (p := proceed verify m.world i c)] at hmanned ⊢
  refine hm.put hh hc hrings hmanned henv hb.other (fun fd hne ↦ (hb.book fd).trans (if_neg hne))
    (fun hnext ↦ ?_) ?_
  · rw [hb.book h, if_pos rfl, hb.self (fun hc ↦ hnext (by rw [hc]; rfl)), hlogin]
  · rw [hb.book h, if_pos rfl]
    exact (hturn.proceed hrefusing' hreplying').login _

theorem accept_accounted (hm : Accounted faultless m) {challenge : Challenge} {created : Bool}
    (hheld : m.held .clients = false) (hx : vacant m (.accept challenge created) = true)
    (hrings : Rings (acceptHandler m challenge created).world)
    (hmanned : Manned (acceptHandler m challenge created)) :
    Accounted faultless (acceptHandler m challenge created) := by
  have henv : (acceptHandler m challenge created).world.env = m.world.env := by
    rw [acceptHandler_world]
    unfold acceptClient
    split
    · rfl
    · cases created <;> rfl
  have henv' : faultless = true →
      (acceptHandler m challenge created).world.env.Faultless := by
    intro hf
    rw [henv]
    exact hm.env hf
  have hnew : m.handlers m.world.nextFd = none := by
    cases hnone : m.handlers m.world.nextFd with
    | none => rfl
    | some handler => exact absurd (hm.manned.bounded _ _ hnone) (Nat.lt_irrefl _)
  have hclosed : ∀ {es : List Event}, (∀ e ∈ es, e = .closed m.world.nextFd) →
      (acceptHandler m challenge created).world.out = m.world.out ++ es →
      ∀ fd, ledger fd (acceptHandler m challenge created).world.out = ledger fd m.world.out := by
    intro es hes ho fd
    exact ledger_same ho (fun e he l ↦ by rw [hes e he]; rfl)
  cases acceptHandler_joined m challenge created with
  | full hs _ ho hh =>
    have hsame := hclosed (fun e he ↦ List.mem_singleton.mp he) ho
    refine ⟨hrings, hmanned, henv', fun h handler hh' hne ↦ ?_,
      fun h hnone ↦ ?_, fun h handler hh' ↦ ?_⟩
    · rw [hs, hsame]
      exact hm.login h handler (hh ▸ hh') hne
    · exact (hsame h).trans (hm.blank h (hh ▸ hnone))
    · rw [hsame]
      exact hm.turn h handler (hh ▸ hh')
  | slot i created' es hi hself hother _ _ _ ho hes hh =>
    have hsame := hclosed hes ho
    have hold : ∀ h handler, (acceptHandler m challenge created).handlers h = some handler →
        h = m.world.nextFd ∧ handler = ⟨i, .testing⟩ ∨ m.handlers h = some handler := by
      intro h handler hh'
      rw [hh] at hh'
      split at hh'
      · by_cases hfd : h = m.world.nextFd
        · subst hfd
          rw [Function.update_self, Option.some.injEq] at hh'
          exact .inl ⟨rfl, hh'.symm⟩
        · rw [Function.update_of_ne hfd] at hh'
          exact .inr hh'
      · exact .inr hh'
    refine ⟨hrings, hmanned, henv', fun h handler hh' hne ↦ ?_,
      fun h hnone ↦ ?_, fun h handler hh' ↦ ?_⟩
    · rw [hsame]
      obtain ⟨rfl, rfl⟩ | hh'' := hold h handler hh'
      · rw [hself, hm.blank _ hnew]
        rfl
      · rw [hother _ (vacant_slot hm.manned hheld hx hi hh'' hne)]
        exact hm.login h handler hh'' hne
    · rw [hsame]
      refine hm.blank h ?_
      rw [hh] at hnone
      split at hnone
      · by_cases hfd : h = m.world.nextFd
        · exact hfd ▸ hnew
        · rwa [Function.update_of_ne hfd] at hnone
      · exact hnone
    · rw [hsame]
      obtain ⟨rfl, rfl⟩ | hh'' := hold h handler hh'
      · rw [hm.blank _ hnew]
        exact .start
      · exact hm.turn h handler hh''

theorem step_accounted (hm : Accounted faultless m) {x : Input} (hx : orderly faultless m x) :
    Accounted faultless (step verify m x) := by
  obtain ⟨i, es, hes⟩ := @step_handled verify m hm.rings x
  have hmanned := Turn.manned (@step_turn verify m x) hm.rings hm.manned hx.1
  have hrings := hes.rings
  cases @step_turn verify m x with
  | idle h => rwa [h]
  | accept challenge created hacc hheld h =>
    subst hacc
    rw [h] at hmanned hrings ⊢
    exact accept_accounted hm hheld hx.1 hrings hmanned
  | receive h stream i _ hh h' =>
    rw [h'] at hmanned hrings ⊢
    exact receive_accounted hm hh hrings hmanned
  | go h i c _ hh _ h' =>
    rw [h'] at hmanned hrings ⊢
    exact go_accounted hm hh hrings hmanned
  | environment env henv h =>
    subst henv
    rw [h] at hmanned hrings ⊢
    exact ⟨hrings, hmanned, hx.2, hm.login, hm.blank, hm.turn⟩

/-- In every interleaving of the handlers a connection is answered its requests
one by one in their order, with nothing else in between but what is pushed. -/
theorem answered_in_turn (faultless : Bool) (xs : List Input)
    (hx : Runs.Along (step verify) (orderly faultless) Pool.initial xs) (h : Fd) :
    ((reach verify xs).handlers h = none → ledger h (reach verify xs).world.out = .blank) ∧
      ∀ handler, (reach verify xs).handlers h = some handler →
        InTurn faultless handler.control (ledger h (reach verify xs).world.out) := by
  have hm : Accounted faultless (reach verify xs) :=
    (Runs.Along.always (Q := Accounted faultless) (fun _ _ hm hx ↦ step_accounted hm hx)
      initial_accounted hx).last
  exact ⟨hm.blank h, hm.turn h⟩

def crossedRequests : List Input :=
  [.accept (Block.zero _) true, .accept (Block.zero _) true, .go 0, .go 1,
    .receive 0 (registerPacket (text "alice") (List.replicate 32 7)),
    .receive 1 (packet 0x07 []), .go 0, .go 1, .go 1, .go 0]

theorem answered_in_turn_crossed :
    (ledger 0 (reach (fun _ _ _ ↦ true) crossedRequests).world.out).answers =
        [.registerResponse] ∧
      InTurn true .testing (ledger 0 (reach (fun _ _ _ ↦ true) crossedRequests).world.out) ∧
      InTurn true .reading (ledger 1 (reach (fun _ _ _ ↦ true) crossedRequests).world.out) := by
  have hx : Runs.Along (step fun _ _ _ ↦ true) (orderly true) Pool.initial crossedRequests := by
    decide +kernel
  have hh : (reach (fun _ _ _ ↦ true) crossedRequests).handlers 0 = some ⟨0, .testing⟩ := by
    decide +kernel
  have hh' : (reach (fun _ _ _ ↦ true) crossedRequests).handlers 1 = some ⟨1, .reading⟩ := by
    decide +kernel
  exact ⟨by decide +kernel, (answered_in_turn true crossedRequests hx 0).2 _ hh,
    (answered_in_turn true crossedRequests hx 1).2 _ hh'⟩

end CChat.Threads.Replies
