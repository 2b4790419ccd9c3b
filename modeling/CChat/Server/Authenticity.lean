import CChat.Library.Traces
import CChat.Server.History

namespace CChat.Server.Authenticity

open CChat.Library CChat.Library.Circular CChat.Library.Traces CChat.Protocol.Types State Network
  Users Queue Handlers Loop Effects HandlerEffects Views Steps Invariants History

variable {verify : Signature → Challenge → Key → Bool} {g : Guards} {i : ℕ} {w w' : World}

def senderField (payload : Bytes) : Bytes := (payload.drop 5).take (payload.getD 4 0).toNat

def dataField (payload : Bytes) : Bytes := payload.drop (11 + (payload.getD 4 0).toNat)

theorem directPayload_nameLength (id : UInt32) (sender : Username) (t : ℤ) (data : Bytes) :
    ((directPayload id sender t data).getD 4 0).toNat = sender.bytes.length := by
  have hlen : (BigEndian.bytes 4 id.toNat).length = 4 := BigEndian.bytes_length 4 _
  have hfits : sender.bytes.length < 32 := sender.fits
  have hget : (directPayload id sender t data).getD 4 0 = UInt8.ofNat sender.bytes.length := by
    rw [directPayload, List.getD_eq_getElem?_getD, List.getElem?_append_right (by omega), hlen]
    rfl
  rw [hget, UInt8.toNat_ofNat']
  omega

theorem directPayload_sender (id : UInt32) (sender : Username) (t : ℤ) (data : Bytes) :
    senderField (directPayload id sender t data) = sender.bytes := by
  have hlen : (BigEndian.bytes 4 id.toNat).length = 4 := BigEndian.bytes_length 4 _
  have hdrop : (directPayload id sender t data).drop 5 = sender.bytes ++
      (BigEndian.bytes 4 (timestampBits t) ++ (BigEndian.bytes 2 data.length ++ data)) := by
    rw [directPayload, List.drop_append, hlen, List.drop_of_length_le (by omega)]
    rfl
  rw [senderField, directPayload_nameLength, hdrop, List.take_left]

theorem directPayload_data (id : UInt32) (sender : Username) (t : ℤ) (data : Bytes) :
    dataField (directPayload id sender t data) = data := by
  have h₄ : (BigEndian.bytes 4 id.toNat).length = 4 := BigEndian.bytes_length 4 _
  have h₄' : (BigEndian.bytes 4 (timestampBits t)).length = 4 := BigEndian.bytes_length 4 _
  have h₂ : (BigEndian.bytes 2 data.length).length = 2 := BigEndian.bytes_length 2 _
  have hsplit : directPayload id sender t data =
      (BigEndian.bytes 4 id.toNat ++ (UInt8.ofNat sender.bytes.length :: sender.bytes ++
        (BigEndian.bytes 4 (timestampBits t) ++ BigEndian.bytes 2 data.length))) ++ data := by
    simp only [directPayload, List.append_assoc]
  have hlen : (BigEndian.bytes 4 id.toNat ++ (UInt8.ofNat sender.bytes.length :: sender.bytes ++
      (BigEndian.bytes 4 (timestampBits t) ++ BigEndian.bytes 2 data.length))).length =
      11 + sender.bytes.length := by
    simp only [List.length_append, List.length_cons, h₄, h₄', h₂]
    omega
  rw [dataField, directPayload_nameLength, hsplit, ← hlen, List.drop_left]

theorem queuedPayload_eq {m : StoredMessage} {data : Bytes} (hdata : m.encryptedData = some data)
    (hlen : m.encryptedLen = data.length) :
    queuedPayload m = directPayload m.messageId m.sender m.timestamp data := by
  simp only [queuedPayload, directPayload, hdata, hlen, Option.getD_some, List.take_length]

def Origin (out : List Event) (sender recipient : Username) (data : Bytes) : Prop :=
  ∃ pre fd payload post, out = pre ++ .request fd MessageType.sendMessage.code payload :: post ∧
    lastLogin pre fd = some sender ∧ parseSendMessage payload = .ok (recipient, data)

theorem Origin.append {out : List Event} {sender recipient : Username} {data : Bytes}
    (h : Origin out sender recipient data) (es : List Event) :
    Origin (out ++ es) sender recipient data := by
  obtain ⟨pre, fd, payload, post, hout, hlogin, hparse⟩ := h
  refine ⟨pre, fd, payload, post ++ es, ?_, hlogin, hparse⟩
  rw [hout, List.append_assoc, List.cons_append]

theorem Asked.origin {recipient : Username} {data : Bytes} (h : Asked w i recipient data)
    (hw : Linked w) (hi : (w.server.clients i).authenticated = true) :
    Origin w.out (w.server.clients i).username recipient data := by
  obtain ⟨fd, pre, payload, post, hfd, hout, hpost, hparse⟩ := h
  refine ⟨pre, fd, payload, post, hout, ?_, hparse⟩
  have hlast := hw.authenticated hfd hi
  rw [hout, lastLogin_append] at hlast
  · exact hlast
  · intro e he
    obtain rfl | he := List.mem_cons.mp he
    · rfl
    · exact hpost e he

/-- An `INCOMING_MESSAGE` frame carries a sender and a ciphertext for which a
connection logged in as that sender has asked. -/
def IncomingFrom (out : List Event) : Event → Prop
  | .frame _ .incomingMessage payload _ => ∃ sender recipient, senderField payload = sender.bytes ∧
      Origin out sender recipient (dataField payload)
  | _ => True

structure Sourced (w : World) : Prop where
  stored : ∀ j, ∀ m ∈ pending (w.server.clients j), ∃ data, m.encryptedData = some data ∧
    Origin w.out m.sender m.recipient data
  incoming : Justified IncomingFrom w.out

theorem direct_incomingFrom {out : List Event} {sender recipient : Username} {data : Bytes}
    (h : Origin out sender recipient data) (fd : Fd) (id : UInt32) (t : ℤ)
    (entry : Option StoredMessage) :
    IncomingFrom out (.frame fd .incomingMessage (directPayload id sender t data) entry) := by
  refine ⟨sender, recipient, directPayload_sender id sender t data, ?_⟩
  rw [directPayload_data]
  exact h

theorem Cause.incomingFrom {e : Event} (h : Cause verify g i w e) (hq : Queues w) (hl : Linked w)
    (hw : Sourced w) : IncomingFrom w.out e := by
  cases h with
  | emission e he =>
    cases he with
    | request => trivial
    | reply fd type payload _ htype =>
      cases type with
      | incomingMessage => exact absurd rfl htype.1
      | _ => trivial
    | torn => trivial
    | direct j fd recipient data id t hi _ _ hasked =>
      exact direct_incomingFrom (Asked.origin hasked hl hi) fd id t none
    | status => trivial
  | login => trivial
  | queued => trivial
  | delivered fd m _ hcount hm _ =>
    have hmem : m ∈ pending (w.server.clients i) := by
      rw [pending, window_cons (hq.ring i) hcount, hm]
      exact List.mem_cons_self
    obtain ⟨data, hdata, horigin⟩ := hw.stored i m hmem
    obtain ⟨data', hdata', hlen, _⟩ := (hq.waiting i m hmem).data
    obtain rfl := Option.some.inj (hdata.symm.trans hdata')
    rw [queuedPayload_eq hdata hlen]
    exact direct_incomingFrom horigin fd m.messageId m.timestamp (some m)
  | closed => trivial

theorem Effect.sourced (h : Effect verify g i w w') (hq : Queues w) (hl : Linked w)
    (hw : Sourced w) : Sourced w' := by
  refine ⟨fun j m hm ↦ ?_, ?_⟩
  · obtain ⟨es, ho⟩ := Effect.grows h
    rw [ho]
    obtain hold | ⟨data, hi, _, hasked, hsender, hdata, _⟩ := (Effect.pending h hq).origin j hm
    · obtain ⟨data, hdata, horigin⟩ := hw.stored j m hold
      exact ⟨data, hdata, horigin.append es⟩
    · refine ⟨data, hdata, Origin.append ?_ es⟩
      rw [hsender]
      exact Asked.origin hasked hl hi
  · obtain ho | ⟨e, ho, hcause⟩ := Effect.cause h
    · rw [ho]
      exact hw.incoming
    · rw [ho]
      exact hw.incoming.concat (Cause.incomingFrom hcause hq hl hw)

theorem Accepted.sourced {challenge : Challenge} {created : Bool}
    (h : Accepted w challenge created w') (hw : Sourced w) : Sourced w' := by
  have hout : ∀ es : List Event, es = [] ∨ es = [.closed w.nextFd] →
      Justified IncomingFrom (w.out ++ es) := by
    rintro es (rfl | rfl)
    · rw [List.append_nil]
      exact hw.incoming
    · exact hw.incoming.concat trivial
  cases h with
  | full hs _ ho =>
    refine ⟨fun j m hm ↦ ?_, ho ▸ hout _ (.inr rfl)⟩
    rw [hs] at hm
    obtain ⟨data, hdata, horigin⟩ := hw.stored j m hm
    exact ⟨data, hdata, ho ▸ horigin.append _⟩
  | slot k es _ _ hself hother _ _ _ _ ho hes =>
    refine ⟨fun j m hm ↦ ?_, ho ▸ hout es hes⟩
    by_cases hj : j = k
    · rw [hj, hself] at hm
      cases hm
    · rw [hother j hj] at hm
      obtain ⟨data, hdata, horigin⟩ := hw.stored j m hm
      exact ⟨data, hdata, ho ▸ horigin.append es⟩

theorem Turn.sourced {x : Input} (h : Turn verify w x w') (hs : Steady w) (hw : Sourced w) :
    Sourced w' := by
  cases h with
  | accept _ _ _ h => exact Accepted.sourced h hw
  | idle _ _ _ _ _ h => exact h ▸ hw
  | handled _ _ _ _ _ _ _ hchain _ =>
    exact (Chain.carry (fun _ _ he hv ↦ Effect.sourced he hv.queues hv.linked) hchain
      hs.consistent hw).2

theorem Effect.records (h : Effect verify g i w w') :
    w.server.userCount ≤ w'.server.userCount ∧ ∀ k < w.server.userCount,
      (w'.server.users k).username = (w.server.users k).username ∧
      (w'.server.users k).publicKey = (w.server.users k).publicKey ∧
      (w'.server.users k).isRegistered = (w.server.users k).isRegistered := by
  cases Effect.users h with
  | same hu hc =>
    rw [hu, hc]
    exact ⟨Nat.le_refl _, fun _ _ ↦ ⟨rfl, rfl, rfl⟩⟩
  | status l status _ _ hu hc _ =>
    rw [hu, hc]
    refine ⟨Nat.le_refl _, fun k _ ↦ ?_⟩
    by_cases hk : k = l
    · subst hk
      simp
    · simp [Function.update_of_ne hk]
  | register _ _ _ _ hu hc =>
    rw [hu, hc]
    refine ⟨Nat.le_succ _, fun k hk ↦ ?_⟩
    simp [Function.update_of_ne (Nat.ne_of_lt hk)]

def LoginsVerified (verify : Signature → Challenge → Key → Bool) (w : World) : Prop :=
  ∀ fd name signature challenge key, .login fd name signature challenge key ∈ w.out →
    verify signature challenge key = true ∧
      ∃ k, findUser w.server name = some k ∧ (w.server.users k).publicKey = key

theorem Effect.loginsVerified (h : Effect verify g i w w') (hw : LoginsVerified verify w) :
    LoginsVerified verify w' := by
  obtain ⟨hcount, hrecords⟩ := Effect.records h
  have hkeep : ∀ name k, findUser w.server name = some k →
      findUser w'.server name = some k ∧
        (w'.server.users k).publicKey = (w.server.users k).publicKey := by
    intro name k hk
    refine ⟨findUser_longer hcount (fun l hl ↦ ?_) hk, (hrecords k (findUser_some hk).1).2.1⟩
    exact ⟨(hrecords l hl).1, (hrecords l hl).2.2⟩
  have hold : ∀ fd name signature challenge key,
      .login fd name signature challenge key ∈ w.out → verify signature challenge key = true ∧
        ∃ k, findUser w'.server name = some k ∧ (w'.server.users k).publicKey = key := by
    intro fd name signature challenge key hmem
    obtain ⟨hv, k, hk, hkey⟩ := hw fd name signature challenge key hmem
    exact ⟨hv, k, (hkeep name k hk).1, (hkeep name k hk).2.trans hkey⟩
  intro fd name signature challenge key hmem
  obtain ho | ⟨e, ho, hcause⟩ := Effect.cause h
  · exact hold fd name signature challenge key (ho ▸ hmem)
  · rw [ho, List.mem_append, List.mem_singleton] at hmem
    obtain hmem | rfl := hmem
    · exact hold fd name signature challenge key hmem
    · cases hcause with
      | emission _ he => cases he
      | login _ _ _ k _ hk hv _ => exact ⟨hv, k, (hkeep name k hk).1, (hkeep name k hk).2⟩

theorem Turn.loginsVerified {x : Input} (h : Turn verify w x w') (hs : Steady w)
    (hw : LoginsVerified verify w) : LoginsVerified verify w' := by
  cases h with
  | accept _ _ _ h =>
    cases h with
    | full hsame _ ho =>
      intro fd name signature challenge key hmem
      rw [ho, List.mem_append, List.mem_singleton] at hmem
      rw [hsame]
      exact hw fd name signature challenge key (hmem.resolve_right (by simp))
    | slot _ es _ _ _ _ _ _ husers _ ho hes =>
      intro fd name signature challenge key hmem
      have hold : .login fd name signature challenge key ∈ w.out := by
        rw [ho, List.mem_append] at hmem
        obtain rfl | rfl := hes
        · exact hmem.resolve_right (by simp)
        · exact hmem.resolve_right (by simp)
      obtain ⟨hv, k, hk, hkey⟩ := hw fd name signature challenge key hold
      exact ⟨hv, k, by rw [findUser_congr husers.1 husers.2.1, hk], by rw [husers.1, hkey]⟩
  | idle _ _ _ _ _ h => exact h ▸ hw
  | handled _ _ _ _ _ _ _ hchain _ =>
    exact (Chain.carry (fun _ _ he _ ↦ Effect.loginsVerified he) hchain hs.consistent hw).2

/-- A `STATUS_UPDATE` frame is about the user last logged in on `fd`. -/
def StatusFrom (fd : Fd) (out : List Event) : Event → Prop
  | .frame _ .statusUpdate payload _ =>
    ∃ name status, payload = statusPayload name status ∧ lastLogin out fd = some name
  | _ => True

/-- What the handler of slot `i` on `fd` has done to the presence of users since
a world. -/
structure Presence (w : World) (i : ℕ) (fd : Fd) (v : World) : Prop where
  socket : ∀ fd', (v.server.clients i).socketFd = some fd' → fd' = fd
  count_le : w.server.userCount ≤ v.server.userCount
  names : ∀ k < w.server.userCount, (v.server.users k).username = (w.server.users k).username
  changed : ∀ k < w.server.userCount,
    (v.server.users k).status ≠ (w.server.users k).status →
      lastLogin v.out fd = some (w.server.users k).username
  frames : ∃ es, v.out = w.out ++ es ∧ Justified (fun pre ↦ StatusFrom fd (w.out ++ pre)) es

theorem Presence.refl {fd : Fd} (hfd : (w.server.clients i).socketFd = some fd) :
    Presence w i fd w := by
  refine ⟨fun fd' h ↦ ?_, Nat.le_refl _, fun _ _ ↦ rfl, fun _ _ h ↦ absurd rfl h, [], by simp, .nil⟩
  exact Option.some.inj (h.symm.trans hfd)

theorem Presence.last {fd : Fd} {v : World} (h : Presence w i fd v) (hv : Consistent v)
    (hi : (v.server.clients i).authenticated = true) :
    lastLogin v.out fd = some (v.server.clients i).username := by
  obtain ⟨fd', hfd'⟩ := hv.sockets.authenticated i hi
  exact h.socket fd' hfd' ▸ hv.linked.authenticated hfd' hi

theorem Cause.statusFrom {fd : Fd} {v : World} {e : Event} (hp : Presence w i fd v)
    (h : Cause verify g i v e) (hv : Consistent v) : StatusFrom fd v.out e := by
  cases h with
  | emission e he =>
    cases he with
    | request => trivial
    | reply fd' type payload _ htype =>
      cases type with
      | statusUpdate => exact absurd rfl htype.2
      | _ => trivial
    | torn => trivial
    | direct => trivial
    | status j fd' status hi _ _ => exact ⟨_, status, rfl, hp.last hv hi⟩
  | login => trivial
  | queued => trivial
  | delivered => trivial
  | closed => trivial

theorem Effect.last (h : Effect verify g i w w') :
    (∀ fd, lastLogin w'.out fd = lastLogin w.out fd) ∨
      ∃ name fd, g.login w name ∧ (w.server.clients i).socketFd = some fd ∧
        lastLogin w'.out fd = some name ∧ w'.out ≠ w.out := by
  cases Effect.identity h with
  | same es _ ho hes => exact .inl (fun fd ↦ by rw [ho, lastLogin_append hes])
  | login name s fd k hg _ _ hfd _ _ ho =>
    refine .inr ⟨name, fd, hg, hfd, ?_, ?_⟩
    · rw [ho, lastLogin_login, if_pos rfl]
    · rw [ho]
      simp
  | logout _ _ _ ho => exact .inl (fun fd ↦ by rw [ho])
  | close _ _ _ ho => exact .inl (fun fd ↦ by rw [ho, lastLogin_append (closedEvents_isLogin _)])

theorem Effect.presence {stream : Bytes} {env : Env} {fd : Fd} {v v' : World}
    (h : Effect verify (turnGuards verify w i stream env) i v v') (hv : Consistent v)
    (hp : Presence w i fd v) : Presence w i fd v' := by
  obtain ⟨hcount, hrecords⟩ := Effect.records h
  refine ⟨fun fd' hfd' ↦ ?_, hp.count_le.trans hcount, fun k hk ↦ ?_, fun k hk hne ↦ ?_, ?_⟩
  · obtain ⟨hs, _⟩ | ⟨hs, _⟩ := IdentityView.socket (Effect.identity h) i
    · exact hp.socket fd' (hs ▸ hfd')
    · rw [hs] at hfd'
      cases hfd'
  · rw [(hrecords k (hk.trans_le hp.count_le)).1, hp.names k hk]
  · have hlast : v'.server.users k = v.server.users k →
        lastLogin v'.out fd = some (w.server.users k).username := by
      intro hsame
      rw [hsame] at hne
      obtain hkeep | ⟨_, _, hg, _⟩ := Effect.last h
      · rw [hkeep]
        exact hp.changed k hk hne
      · rw [hg.2.users] at hne
        exact absurd rfl hne
    cases Effect.users h with
    | same hu => exact hlast (by rw [hu])
    | status l status hi hl hu _ ho =>
      by_cases hkl : k = l
      · rw [ho, hp.last hv hi, ← (findUser_some hl).2.2, ← hkl, hp.names k hk]
      · exact hlast (by rw [hu, Function.update_of_ne hkl])
    | register _ _ _ _ hu =>
      exact hlast (by rw [hu, Function.update_of_ne (Nat.ne_of_lt (hk.trans_le hp.count_le))])
  · obtain ⟨es, hes, hjust⟩ := hp.frames
    obtain ho | ⟨e, ho, hcause⟩ := Effect.cause h
    · exact ⟨es, ho.trans hes, hjust⟩
    · refine ⟨es ++ [e], by rw [ho, hes, List.append_assoc], hjust.concat ?_⟩
      exact hes ▸ Cause.statusFrom hp hcause hv

/-- The server's state as the handler of slot `i` leaves it before any login:
nothing new but a user record at the end of the table, the slot's own rate
limit and its own closing. -/
structure Quiet (w : World) (i : ℕ) (v : World) : Prop where
  users : v.server.users = w.server.users ∧ v.server.userCount = w.server.userCount ∨
    v.server.userCount = w.server.userCount + 1 ∧
      ∀ k, k ≠ w.server.userCount → v.server.users k = w.server.users k
  others : ∀ j, j ≠ i → v.server.clients j = w.server.clients j
  own : ∃ r b, v.server.clients i = { w.server.clients i with rateLimit := r, connected := b } ∨
    v.server.clients i = closedClient { w.server.clients i with rateLimit := r }
  clientCount : v.server.clientCount = w.server.clientCount
  nextMessageId : v.server.nextMessageId = w.server.nextMessageId
  running : v.server.running = w.server.running

theorem Quiet.refl (w : World) (i : ℕ) : Quiet w i w :=
  ⟨.inl ⟨rfl, rfl⟩, fun _ _ ↦ rfl,
    ⟨(w.server.clients i).rateLimit, (w.server.clients i).connected, .inl rfl⟩, rfl, rfl, rfl⟩

theorem Quiet.modify {v v' : World} (h : Quiet w i v)
    {f : ClientConnection → ClientConnection} (hs : v'.server = (v.modifyClient i f).server)
    (hown : ∃ r b, f (v.server.clients i) =
        { w.server.clients i with rateLimit := r, connected := b } ∨
      f (v.server.clients i) = closedClient { w.server.clients i with rateLimit := r }) :
    Quiet w i v' := by
  refine ⟨?_, fun j hj ↦ ?_, ?_, ?_, ?_, ?_⟩
  · rw [hs]
    exact h.users
  · rw [modifyClient_off hs j hj]
    exact h.others j hj
  · rw [modifyClient_at hs]
    exact hown
  · rw [hs]
    exact h.clientCount
  · rw [hs]
    exact h.nextMessageId
  · rw [hs]
    exact h.running

theorem Quiet.copy {v v' : World} (h : Quiet w i v) (hs : v'.server = v.server) : Quiet w i v' := by
  refine ⟨?_, ?_, ?_, ?_, ?_, ?_⟩ <;> rw [hs]
  exacts [h.users, h.others, h.own, h.clientCount, h.nextMessageId, h.running]

/-- What the handler of slot `i` on `fd` has done since a world, as long as no
login was granted on its socket. -/
structure Harmless (w : World) (i : ℕ) (fd : Fd) (v : World) : Prop where
  state : Quiet w i v
  events : ∃ es, v.out = w.out ++ es ∧ ∀ e ∈ es, Event.fd e = some fd

theorem Quiet.unauthenticated {fd : Fd} {v : World} (h : Quiet w i v) (hl : Linked v)
    (hfd : (w.server.clients i).socketFd = some fd) (hlast : lastLogin v.out fd = none) :
    (v.server.clients i).authenticated = false := by
  obtain ⟨r, b, hown | hown⟩ := h.own
  · have hsocket : (v.server.clients i).socketFd = some fd := by rw [hown, ← hfd]
    have hlogin := hl.login i fd hsocket
    rw [hlast] at hlogin
    by_cases hauth : (v.server.clients i).authenticated = true
    · rw [if_pos hauth] at hlogin
      cases hlogin
    · simpa using hauth
  · rw [hown]
    rfl

theorem Harmless.stay {fd : Fd} {v v' : World} (h : Harmless w i fd v) (ho : v'.out = v.out)
    (hstate : Quiet w i v') : Harmless w i fd v' := by
  obtain ⟨es, hes, hfds⟩ := h.events
  exact ⟨hstate, es, ho.trans hes, hfds⟩

theorem Harmless.write {fd : Fd} {v v' : World} (h : Harmless w i fd v) {e : Event}
    (ho : v'.out = v.out ++ [e]) (he : Event.fd e = some fd) (hstate : Quiet w i v') :
    Harmless w i fd v' := by
  obtain ⟨es, hes, hfds⟩ := h.events
  refine ⟨hstate, es ++ [e], by rw [ho, hes, List.append_assoc], ?_⟩
  intro e' he'
  rw [List.mem_append, List.mem_singleton] at he'
  obtain hold | rfl := he'
  · exact hfds e' hold
  · exact he

theorem Quiet.limit {v v' : World} {r : RateLimit} (h : Quiet w i v)
    (hs : v'.server = (v.modifyClient i (fun c ↦ { c with rateLimit := r })).server) :
    Quiet w i v' := by
  refine h.modify hs ⟨r, ?_⟩
  obtain ⟨_, b, hc | hc⟩ := h.own
  · exact ⟨b, .inl (by rw [hc])⟩
  · exact ⟨true, .inr (by rw [hc]; rfl)⟩

theorem Quiet.disconnect {v v' : World} (h : Quiet w i v)
    (hs : v'.server = (v.modifyClient i (fun c ↦ { c with connected := false })).server) :
    Quiet w i v' := by
  refine h.modify hs ?_
  obtain ⟨r, _, hc | hc⟩ := h.own
  · exact ⟨r, false, .inl (by rw [hc])⟩
  · exact ⟨r, false, .inr (by rw [hc]; rfl)⟩

theorem Quiet.close {v v' : World} (h : Quiet w i v)
    (hs : v'.server = (v.modifyClient i closedClient).server) : Quiet w i v' := by
  refine h.modify hs ?_
  obtain ⟨r, _, hc | hc⟩ := h.own
  · exact ⟨r, false, .inr (by rw [hc]; rfl)⟩
  · exact ⟨r, false, .inr (by rw [hc]; rfl)⟩

theorem Quiet.register {v v' : World} {u : UserRecord} (h : Quiet w i v)
    (hfresh : v.server.users = w.server.users ∧ v.server.userCount = w.server.userCount)
    (hs : v'.server = { v.server with
      users := Function.update v.server.users v.server.userCount u
      userCount := v.server.userCount + 1 }) : Quiet w i v' := by
  refine ⟨.inr ⟨?_, fun k hk ↦ ?_⟩, ?_, ?_, ?_, ?_, ?_⟩
  · rw [hs, ← hfresh.2]
  · rw [hs, hfresh.1, hfresh.2]
    exact Function.update_of_ne hk _ _
  · rw [hs]
    exact h.others
  · rw [hs]
    exact h.own
  · rw [hs]
    exact h.clientCount
  · rw [hs]
    exact h.nextMessageId
  · rw [hs]
    exact h.running

/-- An effect behind which no login was granted is one of a connection without
a login: what needs one is not its effect. -/
theorem Effect.harmless {stream : Bytes} {env : Env} {fd : Fd} {v v' : World}
    (h : Effect verify (turnGuards verify w i stream env) i v v') (hv : Consistent v)
    (hfd : (w.server.clients i).socketFd = some fd) (hp : Presence w i fd v)
    (hw : lastLogin v.out fd = none → Harmless w i fd v) (hlast : lastLogin v'.out fd = none) :
    Harmless w i fd v' := by
  have hsame : lastLogin v.out fd = none := by
    obtain hkeep | ⟨name, fd', _, hfd', hlogin, _⟩ := Effect.last h
    · exact hkeep fd ▸ hlast
    · rw [hp.socket fd' hfd', hlast] at hlogin
      cases hlogin
  have hv' := hw hsame
  have hq := hv'.state
  have hauth := hq.unauthenticated hv.linked hfd hsame
  have hno : (v.server.clients i).authenticated = true → Harmless w i fd v' := by
    intro hi
    rw [hauth] at hi
    cases hi
  have hown : ∀ fd', (v.server.clients i).socketFd = some fd' → some fd' = some fd :=
    fun fd' hfd' ↦ congrArg some (hp.socket fd' hfd')
  cases h with
  | silent h => exact hv'.stay h.out (hq.copy h.server)
  | emit e he hs _ ho =>
    cases he with
    | request fd' _ _ hfd' => exact hv'.write ho (hown fd' hfd') (hq.copy hs)
    | reply fd' _ _ hfd' => exact hv'.write ho (hown fd' hfd') (hq.copy hs)
    | torn j fd' _ hfd' hj =>
      obtain rfl | hi := hj
      · exact hv'.write ho (hown fd' hfd') (hq.copy hs)
      · exact hno hi.1
    | direct _ _ _ _ _ _ hi => exact hno hi
    | status _ _ _ hi => exact hno hi
  | tune c _ _ htuned hs _ ho =>
    obtain hi | ⟨r, rfl⟩ := htuned
    · exact hno hi
    · exact hv'.stay ho (hq.limit hs)
  | setStatus _ _ hi => exact hno hi
  | register name key hg _ _ _ hs _ ho =>
    exact hv'.stay ho (hq.register ⟨hg.users, hg.userCount⟩ hs)
  | login name s fd' k _ _ _ hfd' _ _ ho =>
    rw [ho, lastLogin_login, if_pos (hp.socket fd' hfd')] at hlast
    cases hlast
  | nextId hi => exact hno hi
  | enqueue _ _ _ hi => exact hno hi
  | spoil _ _ hi => exact hno hi
  | deliver _ _ hi => exact hno hi
  | skip hi => exact hno hi
  | logout _ hs _ ho => exact hv'.stay ho (hq.disconnect hs)
  | close _ hs _ ho =>
    cases hsocket : (v.server.clients i).socketFd with
    | none =>
      rw [hsocket] at ho
      exact hv'.stay (ho.trans (List.append_nil _)) (hq.close hs)
    | some fd' =>
      rw [hsocket] at ho
      exact hv'.write ho (hown fd' hsocket) (hq.close hs)

def Acts (w : World) (x : Input) (i : ℕ) (fd : Fd) : Prop :=
  (∃ stream env, x = .receive i stream env) ∧ (w.server.clients i).connected = true ∧
    (w.server.clients i).socketFd = some fd

/-- What one input may do to the users' presence and, when it comes from a
connection without a login, to anything at all. -/
structure StepAuthentic (w : World) (x : Input) (w' : World) : Prop where
  status_frames : ∀ pre dest payload entry post,
    w'.out = w.out ++ (pre ++ .frame dest .statusUpdate payload entry :: post) →
      ∃ i fd name status, Acts w x i fd ∧ payload = statusPayload name status ∧
        lastLogin (w.out ++ pre) fd = some name
  status_changes : ∀ k < w.server.userCount,
    (w'.server.users k).status ≠ (w.server.users k).status →
      ∃ i fd, Acts w x i fd ∧ lastLogin w'.out fd = some (w.server.users k).username
  harmless : ∀ i fd, Acts w x i fd → lastLogin w'.out fd = none → Harmless w i fd w' ∧
    ∃ r, w'.server.clients i = { w.server.clients i with rateLimit := r } ∨
      w'.server.clients i = closedClient { w.server.clients i with rateLimit := r }

theorem Accepted.stepAuthentic {challenge : Challenge} {created : Bool}
    (h : Accepted w challenge created w') : StepAuthentic w (.accept challenge created) w' := by
  refine ⟨fun pre dest payload entry post ho ↦ ?_, fun k _ hne ↦ ?_, ?_⟩
  · have hmem : Event.frame dest .statusUpdate payload entry ∈
        pre ++ .frame dest .statusUpdate payload entry :: post := by simp
    cases h with
    | full _ _ hout =>
      rw [List.append_cancel_left (ho.symm.trans hout)] at hmem
      simp at hmem
    | slot _ es _ _ _ _ _ _ _ _ hout hes =>
      rw [List.append_cancel_left (ho.symm.trans hout)] at hmem
      obtain rfl | rfl := hes <;> simp at hmem
  · cases h with
    | full hsame => exact absurd (by rw [hsame]) hne
    | slot _ _ _ _ _ _ _ _ husers => exact absurd (by rw [husers.1]) hne
  · rintro i fd ⟨⟨stream, env, hr⟩, _⟩
    cases hr

theorem idle_stepAuthentic {stream : Bytes} {env : Env}
    (hconn : (w.server.clients i).connected = false) :
    StepAuthentic w (.receive i stream env) w := by
  refine ⟨fun pre dest payload entry post ho ↦ ?_, fun k _ hne ↦ absurd rfl hne, ?_⟩
  · have hlen := congrArg List.length ho
    simp only [List.length_append, List.length_cons] at hlen
    omega
  · rintro i' fd ⟨⟨stream', env', hr⟩, hc, _⟩
    cases hr
    rw [hconn] at hc
    cases hc

theorem Turn.stepAuthentic {x : Input} (h : Turn verify w x w') (hs : Steady w) :
    StepAuthentic w x w' := by
  cases h with
  | accept challenge created hx h => exact hx ▸ Accepted.stepAuthentic h
  | idle i stream env hx hconn h =>
    rw [hx, h]
    exact idle_stepAuthentic hconn
  | handled i stream env fd hx hconn hfd hchain hend =>
    have hacts : Acts w x i fd := ⟨⟨stream, env, hx⟩, hconn, hfd⟩
    obtain ⟨_, hp, hharm⟩ := Chain.carry
      (P := fun v ↦ Presence w i fd v ∧ (lastLogin v.out fd = none → Harmless w i fd v))
      (fun v v' he hv h ↦ ⟨Effect.presence he hv h.1, Effect.harmless he hv hfd h.1 h.2⟩) hchain
      hs.consistent ⟨.refl hfd, fun _ ↦ ⟨.refl w i, [], by simp, by simp⟩⟩
    refine ⟨fun pre dest payload entry post ho ↦ ?_,
      fun k hk hne ↦ ⟨i, fd, hacts, hp.changed k hk hne⟩, ?_⟩
    · obtain ⟨es, hes, hjust⟩ := hp.frames
      have hsplit := List.append_cancel_left (hes.symm.trans ho)
      obtain ⟨name, status, hpayload, hlast⟩ := hjust pre _ post hsplit
      exact ⟨i, fd, name, status, hacts, hpayload, hlast⟩
    · rintro i' fd' ⟨⟨stream', env', hr⟩, _, hfd'⟩ hlast
      rw [hx] at hr
      cases hr
      obtain rfl := Option.some.inj (hfd.symm.trans hfd')
      refine ⟨hharm hlast, ?_⟩
      obtain ⟨r, b, hown | hown⟩ := (hharm hlast).state.own
      · refine ⟨r, .inl ?_⟩
        obtain ⟨hc, _⟩ | ⟨⟨c, hc⟩, _⟩ := hend
        · rw [hown] at hc ⊢
          have hb : b = true := hc
          rw [hb, ← hconn]
        · have hnone : (w'.server.clients i).socketFd = none := by rw [hc]; rfl
          rw [hown] at hnone
          exact absurd (hfd.symm.trans hnone) (by simp)
      · exact ⟨r, .inr hown⟩

theorem sourced_initial : Sourced World.initial := by
  refine ⟨?_, .nil⟩
  intro j m hm
  cases hm

/-- Every `INCOMING_MESSAGE` frame, every change of a status and every
`STATUS_UPDATE` frame comes from a connection last logged in as the user it
names; every login was granted on a signature under the registered key; and a
connection without a login touches only what is its own. -/
theorem sender_authenticity (verify : Signature → Challenge → Key → Bool) (xs : List Input) :
    Justified IncomingFrom (reach verify xs).out ∧ LoginsVerified verify (reach verify xs) ∧
      ∀ x, StepAuthentic (reach verify xs) x (step verify (reach verify xs) x) := by
  refine ⟨?_, ?_, fun x ↦ ?_⟩
  · have h : Sourced (reach verify xs) :=
      reach_invariant sourced_initial (fun _ _ _ hs h hw ↦ Turn.sourced h hs hw) xs
    exact h.incoming
  · exact reach_invariant (by intro _ _ _ _ _ h; cases h)
      (fun _ _ _ hs h hw ↦ Turn.loginsVerified h hs hw) xs
  · have hs := @reach_steady verify xs
    exact Turn.stepAuthentic (step_turn hs.sound x) hs

end CChat.Server.Authenticity
