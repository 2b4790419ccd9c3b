import CChat.Server.History

namespace CChat.Threads.DirectSend

open CChat.Library CChat.Protocol.Types CChat.Server.State CChat.Server.Network CChat.Server.Users
  CChat.Server.Handlers CChat.Server.Loop CChat.Server.Effects CChat.Server.HandlerEffects
  CChat.Server.Steps CChat.Server.Invariants CChat.Server.History

inductive Touch
  | taken
  | login (name : Username)
  | closed
deriving DecidableEq

/-- What `handle_send_message` holds from its lookup on: `slot` is
`recipient_client`, `handler` its own slot. -/
structure Target where
  slot : ℕ
  handler : ℕ
  recipient : Username
  id : UInt32
  data : Bytes

/-- A frame that the direct delivery hands to `send`: for whom, on which socket,
and the login of that socket's connection at that moment. -/
structure Write where
  recipient : Username
  fd : Fd
  login : Option Username
deriving DecidableEq

/-- The server while one handler is in `handle_send_message`: `found` is there
from its lookup to its write. -/
structure State where
  world : World
  found : Option Target
  touched : List Touch
  writes : List Write

def State.initial : State := ⟨World.initial, none, [], []⟩

inductive Section
  | register (name : Username) (key : Key)
  | accept (challenge : Challenge) (created : Bool)
  | login (i : ℕ) (name : Username) (signature : Signature)
  | logout (i : ℕ)
  | close (i : ℕ)
  | lookup (i : ℕ) (id : UInt32) (recipient : Username) (data : Bytes)
  | write (env : Env)

def loginOf (c : ClientConnection) : Option Username :=
  if c.authenticated then some c.username else none

def State.touch (s : State) (i : ℕ) (e : Touch) : List Touch :=
  if s.found.map Target.slot = some i then s.touched ++ [e] else s.touched

def register (s : State) (name : Username) (key : Key) : State :=
  { s with world := (addUser s.world name key).2 }

def accept (s : State) (challenge : Challenge) (created : Bool) : State :=
  let w := acceptClient s.world challenge created
  match freeSlot s.world.server with
  | none => { s with world := w }
  | some i => { s with world := w, touched := s.touch i .taken }

variable (verify : Signature → Challenge → Key → Bool)

def login (s : State) (i : ℕ) (name : Username) (signature : Signature) : State :=
  if (s.world.server.clients i).connected then
    let result := authenticateUser verify s.world i name signature
    if result.1 = 0 then { s with world := result.2, touched := s.touch i (.login name) }
    else { s with world := result.2 }
  else s

def logout (s : State) (i : ℕ) : State := { s with world := (handleLogout s.world i).2 }

def close (s : State) (i : ℕ) : State :=
  if (s.world.server.clients i).socketFd.isSome then
    { s with world := terminate s.world i, touched := s.touch i .closed }
  else s

def lookup (s : State) (i : ℕ) (id : UInt32) (recipient : Username) (data : Bytes) : State :=
  { s with
    found := (findClientByUsername s.world.server recipient).map (⟨·, i, recipient, id, data⟩)
    touched := [] }

/-- `handle_send_message` from its lookup to its `send_network_message`. -/
def deliver (w : World) (t : Target) : ℤ × World :=
  let now := time w
  let allocated := malloc now.2
  if !allocated.1 then (-1, allocated.2)
  else sendNetworkMessage allocated.2 (w.server.clients t.slot).socketFd .incomingMessage
    (directPayload t.id (w.server.clients t.handler).username now.1 t.data) none

def handed (env : Env) (t : Target) (c : ClientConnection) : List Write :=
  match c.socketFd with
  | none => []
  | some fd => if Env.allocates env 0 then [⟨t.recipient, fd, loginOf c⟩] else []

def write (s : State) (env : Env) : State :=
  match s.found with
  | none => s
  | some t =>
    { s with
      world := (deliver { s.world with env := env } t).2
      found := none
      writes := s.writes ++ handed env t (s.world.server.clients t.slot) }

def step (s : State) : Section → State
  | .register name key => register s name key
  | .accept challenge created => accept s challenge created
  | .login i name signature => login verify s i name signature
  | .logout i => logout s i
  | .close i => close s i
  | .lookup i id recipient data => lookup s i id recipient data
  | .write env => write s env

theorem deliver_server (w : World) (t : Target) : (deliver w t).2.server = w.server := by
  unfold deliver
  dsimp only
  split
  · rw [malloc_server, time_server]
  · rw [sendNetworkMessage_server, malloc_server, time_server]

theorem deliver_written (w : World) (t : Target) :
    (deliver w t).2.out = w.out ∨
      ∃ fd e, (w.server.clients t.slot).socketFd = some fd ∧ Env.allocates w.env 0 = true ∧
        (deliver w t).2.out = w.out ++ [e] ∧ Event.fd e = some fd := by
  rw [← time_malloc_allocates w]
  unfold deliver
  dsimp only
  split
  · exact .inl ((malloc_out _).trans (time_out _))
  next hok =>
    have hall : (malloc (time w).2).1 = true := by simpa using hok
    have hkept : (malloc (time w).2).2.out = w.out := (malloc_out _).trans (time_out _)
    cases sendNetworkMessage_written (malloc (time w).2).2 (w.server.clients t.slot).socketFd
      .incomingMessage (directPayload t.id (w.server.clients t.handler).username (time w).1 t.data)
      none with
    | whole fd hfd _ _ _ hout =>
      exact .inr ⟨fd, _, hfd, hall, by rw [hout, hkept], rfl⟩
    | torn fd bytes hfd _ _ _ hout =>
      exact .inr ⟨fd, _, hfd, hall, by rw [hout, hkept], rfl⟩
    | dead _ _ hsilent => exact .inl (hsilent.out.trans hkept)

/-- A message that is reported as delivered went through the two sections. -/
theorem relay_delivered {w : World} {i : ℕ} {id : UInt32} {recipient : Username} {data : Bytes}
    (h : (relay w i id recipient data).1 = 1) :
    ∃ j, findClientByUsername w.server recipient = some j ∧
      (relay w i id recipient data).2 = (deliver w ⟨j, i, recipient, id, data⟩).2 := by
  have hzero : (0 : UInt8) ≠ 1 := by decide
  have htwo : (2 : UInt8) ≠ 1 := by decide
  unfold relay at h ⊢
  dsimp only at h ⊢
  cases hj : findClientByUsername w.server recipient with
  | none =>
    rw [hj] at h
    exact absurd h htwo
  | some j =>
    rw [hj] at h
    refine ⟨j, rfl, ?_⟩
    dsimp only [deliver] at h ⊢
    split at h
    · exact absurd h hzero
    next hok =>
      rw [if_neg hok, if_neg hok]
      split at h
      next hsent => rw [if_pos hsent]
      · exact absurd h htwo

/-- One after the other, lookup and write are `relay`. -/
theorem lookup_write (s : State) (env : Env) {i : ℕ} {id : UInt32} {recipient : Username}
    {data : Bytes} (h : (relay { s.world with env := env } i id recipient data).1 = 1) :
    (write (lookup s i id recipient data) env).world =
      (relay { s.world with env := env } i id recipient data).2 := by
  obtain ⟨j, hj, hworld⟩ := relay_delivered h
  have hfound : (lookup s i id recipient data).found = some ⟨j, i, recipient, id, data⟩ :=
    congrArg (Option.map _) hj
  rw [hworld, write, hfound]
  rfl

/-- Whatever a write puts out goes to a socket it is noted with. -/
theorem write_noted (s : State) (env : Env) :
    ∃ es xs, (write s env).world.out = s.world.out ++ es ∧
      (write s env).writes = s.writes ++ xs ∧ ∀ e ∈ es, ∃ x ∈ xs, Event.fd e = some x.fd := by
  unfold write
  split
  · exact ⟨[], [], (List.append_nil _).symm, (List.append_nil _).symm, nofun⟩
  next t ht =>
    refine (deliver_written { s.world with env := env } t).elim (fun hout ↦ ?_) (fun hsent ↦ ?_)
    · exact ⟨[], _, hout.trans (List.append_nil _).symm, rfl, nofun⟩
    · obtain ⟨fd, e, hfd, hok, hout, he⟩ := hsent
      refine ⟨[e], _, hout, rfl, fun e' he' ↦ ?_⟩
      rw [List.mem_singleton.mp he']
      refine ⟨⟨t.recipient, fd, loginOf (s.world.server.clients t.slot)⟩, ?_, he⟩
      rw [handed, show (s.world.server.clients t.slot).socketFd = some fd from hfd]
      dsimp only
      rw [if_pos hok]
      exact List.mem_singleton_self _

/-- Every frame went to a connection that carried its recipient's login. -/
def Addressed (s : State) : Prop := ∀ e ∈ s.writes, e.login = some e.recipient

/-- What happened last to the slot that was found leaves it with the recipient's
login or without a socket. -/
def Unharmed (recipient : Username) : Option Touch → Prop
  | none => True
  | some .taken => False
  | some (.login name) => name = recipient
  | some .closed => True

def Undiverted (s : State) : Section → Prop
  | .write env => ∀ t, s.found = some t → Env.allocates env 0 = true →
    Unharmed t.recipient s.touched.getLast?
  | _ => True

def Standing (recipient : Username) (c : ClientConnection) : Option Touch → Prop
  | none => c.socketFd.isSome = true ∧ loginOf c = some recipient
  | some .taken => c.socketFd.isSome = true ∧ loginOf c = none
  | some (.login name) => c.socketFd.isSome = true ∧ loginOf c = some name
  | some .closed => c.socketFd = none

theorem Standing.unharmed {recipient : Username} {c : ClientConnection} {last : Option Touch}
    (h : Standing recipient c last) :
    Unharmed recipient last ↔ (c.socketFd.isSome = true → loginOf c = some recipient) := by
  cases last with
  | none => exact ⟨fun _ _ ↦ h.2, fun _ ↦ trivial⟩
  | some e =>
    cases e with
    | taken =>
      refine ⟨fun hu ↦ hu.elim, fun hu ↦ ?_⟩
      have hlogin := hu h.1
      rw [h.2] at hlogin
      cases hlogin
    | login name =>
      refine ⟨fun hu _ ↦ ?_, fun hu ↦ ?_⟩
      · obtain rfl : name = recipient := hu
        exact h.2
      · exact Option.some.inj (h.2.symm.trans (hu h.1))
    | closed =>
      refine ⟨fun _ hs ↦ ?_, fun _ ↦ trivial⟩
      rw [show c.socketFd = none from h] at hs
      cases hs

structure SameLogin (c c' : ClientConnection) : Prop where
  socketFd : c'.socketFd = c.socketFd
  login : loginOf c' = loginOf c
  connected : c'.connected = true → c.connected = true

theorem SameLogin.of_identity {c c' : ClientConnection} (h : SameIdentity c c') :
    SameLogin c c' := by
  refine ⟨h.socketFd, ?_, fun hc ↦ h.connected ▸ hc⟩
  rw [loginOf, loginOf, h.authenticated, h.username]

theorem Standing.same {recipient : Username} {c c' : ClientConnection} {last : Option Touch}
    (h : Standing recipient c last) (hsame : SameLogin c c') : Standing recipient c' last := by
  cases last with
  | none => rwa [Standing, hsame.socketFd, hsame.login]
  | some e => cases e <;> simpa only [Standing, hsame.socketFd, hsame.login] using h

/-- The invariant: a connected slot has a socket, and the slot that was found is
as the notes say. -/
structure Tracked (s : State) : Prop where
  connected : ∀ j, (s.world.server.clients j).connected = true →
    (s.world.server.clients j).socketFd.isSome = true
  found : ∀ t, s.found = some t →
    Standing t.recipient (s.world.server.clients t.slot) s.touched.getLast?

variable {s s' : State}

theorem Tracked.copy (h : Tracked s)
    (hsame : ∀ j, SameLogin (s.world.server.clients j) (s'.world.server.clients j))
    (hfound : s'.found = s.found ∨ s'.found = none) (htouched : s'.touched = s.touched) :
    Tracked s' := by
  refine ⟨fun j hj ↦ ?_, fun t ht ↦ ?_⟩
  · rw [(hsame j).socketFd]
    exact h.connected j ((hsame j).connected hj)
  · rw [htouched]
    obtain hkept | hgone := hfound
    · exact (h.found t (hkept ▸ ht)).same (hsame t.slot)
    · rw [hgone] at ht
      cases ht

theorem Tracked.touch {i : ℕ} {e : Touch} (h : Tracked s)
    (hother : ∀ j, j ≠ i → SameLogin (s.world.server.clients j) (s'.world.server.clients j))
    (hfound : s'.found = s.found) (htouched : s'.touched = s.touch i e)
    (hself : ∀ recipient, Standing recipient (s'.world.server.clients i) (some e))
    (hconn : (s'.world.server.clients i).connected = true →
      (s'.world.server.clients i).socketFd.isSome = true) : Tracked s' := by
  refine ⟨fun j hj ↦ ?_, fun t ht ↦ ?_⟩
  · by_cases hji : j = i
    · subst hji
      exact hconn hj
    · rw [(hother j hji).socketFd]
      exact h.connected j ((hother j hji).connected hj)
  · rw [hfound] at ht
    rw [htouched, State.touch, ht, Option.map_some]
    by_cases hti : t.slot = i
    · subst hti
      rw [if_pos rfl, List.getLast?_append]
      exact hself t.recipient
    · rw [if_neg (fun heq ↦ hti (Option.some.inj heq))]
      exact (h.found t ht).same (hother t.slot hti)

theorem accept_tracked (h : Tracked s) (challenge : Challenge) (created : Bool) :
    Tracked (accept s challenge created) := by
  unfold accept
  dsimp only
  split
  next hfull =>
    obtain ⟨hserver, _⟩ := acceptClient_full challenge created hfull
    refine h.copy (fun j ↦ ?_) (.inl rfl) rfl
    dsimp only
    rw [hserver]
    exact ⟨rfl, rfl, id⟩
  next i hslot =>
    obtain ⟨hself, hother, _⟩ := acceptClient_slot challenge created hslot
    refine h.touch (fun j hj ↦ ?_) rfl rfl (fun recipient ↦ ?_) (fun _ ↦ ?_)
    · dsimp only
      rw [hother j hj]
      exact ⟨rfl, rfl, id⟩
    · dsimp only
      rw [hself]
      exact ⟨rfl, rfl⟩
    · dsimp only
      rw [hself]
      rfl

theorem login_tracked (h : Tracked s) (i : ℕ) (name : Username) (signature : Signature) :
    Tracked (login verify s i name signature) := by
  unfold login
  split
  next hconn =>
    obtain ⟨fd, hfd⟩ := Option.isSome_iff_exists.mp (h.connected i hconn)
    dsimp only
    split
    next hzero =>
      obtain ⟨k, hk, hv⟩ := authenticateUser_zero hzero
      have hserver := (@authenticateUser_chain verify .any i s.world name signature fd k hfd hk hv
        trivial).2
      have hclients : ∀ j, (authenticateUser verify s.world i name signature).2.server.clients j =
          ((s.world.modifyClient i (fun c ↦
            { c with authenticated := true, username := name })).server.clients j) := by
        intro j
        rw [hserver]
        rfl
      refine h.touch (fun j hj ↦ ?_) rfl rfl (fun recipient ↦ ?_) (fun _ ↦ ?_)
      · dsimp only
        rw [hclients, modifyClient_other _ _ hj]
        exact ⟨rfl, rfl, id⟩
      · dsimp only
        rw [hclients, modifyClient_self]
        exact ⟨h.connected i hconn, rfl⟩
      · dsimp only
        rw [hclients, modifyClient_self]
        exact h.connected i hconn
    next hrejected =>
      refine h.copy (fun j ↦ ?_) (.inl rfl) rfl
      dsimp only
      rw [authenticateUser_rejects hrejected]
      exact ⟨rfl, rfl, id⟩
  · exact h

theorem logout_tracked (h : Tracked s) (i : ℕ) : Tracked (logout s i) := by
  refine h.copy (fun j ↦ ?_) (.inl rfl) rfl
  rw [logout, handleLogout]
  dsimp only
  by_cases hj : j = i
  · subst hj
    rw [modifyClient_self]
    exact ⟨rfl, rfl, fun hfalse ↦ absurd hfalse Bool.false_ne_true⟩
  · rw [modifyClient_other _ _ hj]
    exact ⟨rfl, rfl, id⟩

theorem close_tracked (h : Tracked s) (i : ℕ) : Tracked (close s i) := by
  unfold close
  split
  · obtain ⟨hchain, hself⟩ := @terminate_chain (fun _ _ _ ↦ false) .any i s.world
      (fun _ _ ↦ trivial)
    refine h.touch (fun j hj ↦ ?_) rfl rfl (fun recipient ↦ ?_) (fun hconn ↦ ?_)
    · exact .of_identity (Chain.others hchain j hj)
    · dsimp only
      rw [hself]
      rfl
    · dsimp only at hconn
      rw [hself] at hconn
      cases hconn
  · exact h

theorem register_tracked (h : Tracked s) (name : Username) (key : Key) :
    Tracked (register s name key) := by
  refine h.copy (fun j ↦ ?_) (.inl rfl) rfl
  have hclients : (addUser s.world name key).2.server.clients = s.world.server.clients := by
    unfold addUser
    split_ifs <;> rfl
  rw [register]
  dsimp only
  rw [hclients]
  exact ⟨rfl, rfl, fun hc ↦ hc⟩

theorem lookup_tracked (h : Tracked s) (i : ℕ) (id : UInt32) (recipient : Username)
    (data : Bytes) : Tracked (lookup s i id recipient data) := by
  refine ⟨h.connected, fun t ht ↦ ?_⟩
  obtain ⟨k, hk, rfl⟩ := Option.map_eq_some_iff.mp ht
  obtain ⟨_, hconn, hauth, hname⟩ := findClient_some hk
  exact ⟨h.connected k hconn, (if_pos hauth).trans (congrArg some hname)⟩

theorem write_tracked (h : Tracked s) (env : Env) : Tracked (write s env) := by
  unfold write
  split
  · exact h
  · refine h.copy (fun j ↦ ?_) (.inr rfl) rfl
    dsimp only
    rw [deliver_server]
    exact ⟨rfl, rfl, fun hc ↦ hc⟩

theorem step_tracked (h : Tracked s) (x : Section) : Tracked (step verify s x) := by
  cases x with
  | register name key => exact register_tracked h name key
  | accept challenge created => exact accept_tracked h challenge created
  | login i name signature => exact login_tracked verify h i name signature
  | logout i => exact logout_tracked h i
  | close i => exact close_tracked h i
  | lookup i id recipient data => exact lookup_tracked h i id recipient data
  | write env => exact write_tracked h env

theorem accept_writes (s : State) (challenge : Challenge) (created : Bool) :
    (accept s challenge created).writes = s.writes := by
  unfold accept
  dsimp only
  split <;> rfl

theorem login_writes (s : State) (i : ℕ) (name : Username) (signature : Signature) :
    (login verify s i name signature).writes = s.writes := by
  unfold login
  dsimp only
  split_ifs <;> rfl

theorem close_writes (s : State) (i : ℕ) : (close s i).writes = s.writes := by
  unfold close
  split <;> rfl

theorem step_writes (s : State) {x : Section} (hx : ∀ env, x ≠ .write env) :
    (step verify s x).writes = s.writes := by
  cases x with
  | register name key => rfl
  | accept challenge created => exact accept_writes s challenge created
  | login i name signature => exact login_writes verify s i name signature
  | logout i => rfl
  | close i => exact close_writes s i
  | lookup i id recipient data => rfl
  | write env => exact absurd rfl (hx env)

theorem handed_addressed {env : Env} {t : Target} {c : ClientConnection} :
    (∀ e ∈ handed env t c, e.login = some e.recipient) ↔
      (Env.allocates env 0 = true → c.socketFd.isSome = true → loginOf c = some t.recipient) := by
  unfold handed
  cases hfd : c.socketFd with
  | none => exact ⟨fun _ _ ↦ nofun, fun _ ↦ nofun⟩
  | some fd =>
    dsimp only
    split
    next hok =>
      refine ⟨fun hall _ _ ↦ hall _ List.mem_cons_self, fun hlogin e he ↦ ?_⟩
      rw [List.mem_singleton.mp he]
      exact hlogin hok rfl
    next hfail => exact ⟨fun _ hok ↦ absurd hok hfail, fun _ ↦ nofun⟩

theorem write_addressed (h : Tracked s) (hs : Addressed s) (env : Env) :
    Addressed (write s env) ↔ Undiverted s (.write env) := by
  unfold write Undiverted
  cases hfound : s.found with
  | none => exact ⟨fun _ ↦ nofun, fun _ ↦ hs⟩
  | some t =>
    have hstanding := (h.found t hfound).unharmed
    have hnew := @handed_addressed env t (s.world.server.clients t.slot)
    refine ⟨fun hall t' heq hok ↦ ?_, fun hcond e he ↦ ?_⟩
    · obtain rfl : t = t' := Option.some.inj heq
      have hhanded := hnew.mp (fun e he ↦ hall e (List.mem_append_right _ he))
      exact hstanding.mpr (hhanded hok)
    · obtain hold | hsent := List.mem_append.mp he
      · exact hs e hold
      · exact hnew.mpr (fun hok ↦ hstanding.mp (hcond t rfl hok)) e hsent

theorem step_addressed (h : Tracked s) (hs : Addressed s) (x : Section) :
    Addressed (step verify s x) ↔ Undiverted s x := by
  cases x with
  | write env => exact write_addressed h hs env
  | _ =>
    refine ⟨fun _ ↦ trivial, fun _ ↦ ?_⟩
    unfold Addressed
    rw [step_writes verify s (by intro env heq; cases heq)]
    exact hs

theorem tracked_initial : Tracked State.initial := by
  refine ⟨fun j hj ↦ ?_, fun t ht ↦ ?_⟩
  · cases hj
  · cases ht

theorem addressed_initial : Addressed State.initial := by
  intro e he
  cases he

/-- Every direct delivery of a run reaches its recipient's login, exactly when
no slot that was looked up has been given to a new connection or to another
login since, unless it then was closed or logged in as the recipient. -/
theorem deliveries_addressed_iff (xs : List Section) :
    Runs.Always (step verify) Addressed State.initial xs ↔
      Runs.Along (step verify) Undiverted State.initial xs := by
  refine ⟨fun h ↦ ?_, fun h ↦ ?_⟩
  · have htracked : Runs.Always (step verify) Tracked State.initial xs :=
      Runs.always_invariant (Q := Tracked) (fun s x hs ↦ step_tracked verify hs x) tracked_initial xs
    exact (h.and htracked).along
      (fun s x hs hs' ↦ (step_addressed verify hs.2 hs.1 x).mp hs'.1)
  · have hboth := h.always (Q := fun s ↦ Addressed s ∧ Tracked s)
      (fun s x hs hx ↦ ⟨(step_addressed verify hs.2 hs.1 x).mpr hx, step_tracked verify hs.2 x⟩)
      ⟨addressed_initial, tracked_initial⟩
    exact hboth.mono (fun s hs ↦ hs.1)

def alice : Username := Username.ofBytes (text "alice")
def bob : Username := Username.ofBytes (text "bob")
def eve : Username := Username.ofBytes (text "eve")

/-- Bob's slot is found for Alice's message; before the message is written he
is gone, and Eve has logged in on a connection that got his slot. -/
def overtaken : List Section :=
  [.register alice (Block.zero _), .register bob (Block.zero _), .register eve (Block.zero _),
    .accept (Block.zero _) true, .login 0 alice (Block.zero _),
    .accept (Block.zero _) true, .login 1 bob (Block.zero _),
    .lookup 0 1 bob (text "hi"), .close 1,
    .accept (Block.zero _) true, .login 1 eve (Block.zero _), .write Env.quiet]

theorem overtaken_misdelivers :
    ¬ Runs.Always (step (fun _ _ _ ↦ true)) Addressed State.initial overtaken := by
  intro h
  have hwrite : (⟨bob, 2, some eve⟩ : Write) ∈
      (Runs.run (step (fun _ _ _ ↦ true)) State.initial overtaken).writes := by
    decide +kernel
  have hlogin := h.last _ hwrite
  revert hlogin
  decide +kernel

end CChat.Threads.DirectSend
