import CChat.Library.Sessions
import CChat.Server.Answers
import CChat.Server.Authenticity
import CChat.Server.Registry
import CChat.Server.Unchanged

namespace CChat.Server.Presence

open CChat.Library CChat.Library.Circular CChat.Library.Sessions CChat.Protocol.Types
  CChat.Protocol.Wire State Network Users Queue Handlers Loop Effects HandlerEffects Views Steps
  Invariants History Registry Unchanged

variable {verify : Signature → Challenge → Key → Bool} {i : ℕ} {u v w w' : World} {fd : Fd}
  {stream : Bytes} {env : Env}

def loginOn (w : World) (fd : Fd) : Option Username :=
  ((List.range w.server.clientCount).find? (fun j ↦ (w.server.clients j).authenticated &&
    decide ((w.server.clients j).socketFd = some fd))).map (fun j ↦ (w.server.clients j).username)

/-- The status a login or an accepted `SET_STATUS` gives the user its
connection is logged in as. -/
def markOf (before : List Event) : Event → Option (Fd × UserStatus)
  | .login fd _ _ _ _ => some (fd, .online)
  | .request fd type payload =>
    if type = MessageType.setStatus.code ∧ (lastLogin before fd).isSome then
      (parseSetStatus payload).toOption.map (fd, ·)
    else none
  | _ => none

/-- The statuses given so far. A connection's last login is among them, so what
it was given under an earlier name is never its last. -/
def marks (out : List Event) : List (Fd × UserStatus) :=
  (out.foldl (fun p e ↦ (p.1 ++ [e], p.2 ++ (markOf p.1 e).toList)) ([], [])).2

def board (w : World) : Board Fd Username UserStatus where
  owner := loginOn w
  value username := (findUser w.server username).map (fun k ↦ (w.server.users k).status)
  marks := marks w.out

/-- A user without an authenticated connection is offline, and the status of
one with some is the last that one of these was given. -/
structure Follows (w : World) : Prop where
  offline : ∀ k < w.server.userCount,
    (∀ fd, loginOn w fd ≠ some (w.server.users k).username) → (w.server.users k).status = .offline
  given : ∀ k < w.server.userCount, ∀ fd, loginOn w fd = some (w.server.users k).username →
    latest (fun fd' ↦ decide (loginOn w fd' = some (w.server.users k).username)) (marks w.out) =
      some (w.server.users k).status

theorem marks_concat (out : List Event) (e : Event) :
    marks (out ++ [e]) = marks out ++ (markOf out e).toList := by
  have hfst : ∀ (es pre : List Event) (ms : List (Fd × UserStatus)),
      (es.foldl (fun p e ↦ (p.1 ++ [e], p.2 ++ (markOf p.1 e).toList)) (pre, ms)).1 = pre ++ es := by
    intro es
    induction es with
    | nil => exact fun pre _ ↦ (List.append_nil pre).symm
    | cons e es ih =>
      intro pre ms
      rw [List.foldl_cons, ih, List.append_assoc]
      rfl
  simp only [marks, List.foldl_append, List.foldl_cons, List.foldl_nil, hfst, List.nil_append]

theorem marks_append {out es : List Event} (h : ∀ e ∈ es, Event.isMark e = false) :
    marks (out ++ es) = marks out := by
  induction es generalizing out with
  | nil => rw [List.append_nil]
  | cons e es ih =>
    have hnone : markOf out e = none := by
      have he := h e List.mem_cons_self
      cases e with
      | login => cases he
      | request => cases he
      | _ => rfl
    have hrest := @ih (out ++ [e]) (fun e' he ↦ h e' (List.mem_cons_of_mem _ he))
    rw [List.append_assoc, List.singleton_append, marks_concat, hnone] at hrest
    rw [hrest, Option.toList_none, List.append_nil]

theorem loginOn_iff (hs : Sockets w) {name : Username} :
    loginOn w fd = some name ↔ ∃ j, (w.server.clients j).socketFd = some fd ∧
      (w.server.clients j).authenticated = true ∧ (w.server.clients j).username = name := by
  unfold loginOn
  rw [Option.map_eq_some_iff]
  refine ⟨?_, ?_⟩
  · rintro ⟨j, hj, hname⟩
    have hp := List.find?_some hj
    simp only [Bool.and_eq_true, decide_eq_true_eq] at hp
    exact ⟨j, hp.2, hp.1, hname⟩
  · rintro ⟨j, hfd, hauth, hname⟩
    refine ⟨j, ?_, hname⟩
    cases h : (List.range w.server.clientCount).find? (fun j ↦ (w.server.clients j).authenticated &&
        decide ((w.server.clients j).socketFd = some fd)) with
    | none =>
      have hnone := List.find?_eq_none.mp h j (List.mem_range.mpr (hs.socket j fd hfd).2)
      simp [hauth, hfd] at hnone
    | some k =>
      have hp := List.find?_some h
      simp only [Bool.and_eq_true, decide_eq_true_eq] at hp
      rw [hs.distinct k j fd hp.2 hfd]

theorem loginOn_slot (hs : Sockets w) (hfd : (w.server.clients i).socketFd = some fd) :
    loginOn w fd = if (w.server.clients i).authenticated then some (w.server.clients i).username
      else none := by
  refine Option.ext (fun name ↦ ?_)
  rw [loginOn_iff hs]
  refine ⟨?_, fun h ↦ ⟨i, hfd, ?_⟩⟩
  · rintro ⟨j, hj, hauth, hname⟩
    obtain rfl := hs.distinct j i fd hj hfd
    rw [if_pos hauth, hname]
  · split at h
    next hauth => exact ⟨hauth, Option.some.inj h⟩
    next => cases h

/-- What becomes of the logins when one slot changes that keeps its socket or
is left without a login. -/
theorem loginOn_update (hs : Sockets w) (hs' : Sockets w')
    (hfd : (w.server.clients i).socketFd = some fd)
    (hself : (w'.server.clients i).socketFd = some fd ∨
      (w'.server.clients i).authenticated = false)
    (hother : ∀ j, j ≠ i → SameIdentity (w.server.clients j) (w'.server.clients j)) :
    loginOn w' = Function.update (loginOn w) fd (if (w'.server.clients i).authenticated then
      some (w'.server.clients i).username else none) := by
  refine funext (fun fd' ↦ Option.ext (fun name ↦ ?_))
  rw [loginOn_iff hs']
  by_cases h : fd' = fd
  · subst h
    rw [Function.update_self]
    refine ⟨?_, fun hname ↦ ?_⟩
    · rintro ⟨j, hj, hauth, hname⟩
      have hji : j = i := by
        by_contra hne
        rw [(hother j hne).socketFd] at hj
        exact hne (hs.distinct j i fd' hj hfd)
      subst hji
      rw [if_pos hauth, hname]
    · split at hname
      next hauth =>
        have hsocket := hself.resolve_right (by simp [hauth])
        exact ⟨i, hsocket, hauth, Option.some.inj hname⟩
      next => cases hname
  · rw [Function.update_of_ne h, loginOn_iff hs]
    have hne : ∀ j, (w'.server.clients j).socketFd = some fd' →
        (w'.server.clients j).authenticated = true → j ≠ i := by
      rintro j hj hauth rfl
      obtain hsocket | hout := hself
      · exact h (Option.some.inj (hj.symm.trans hsocket))
      · rw [hauth] at hout
        cases hout
    refine exists_congr (fun j ↦ ⟨?_, ?_⟩)
    · rintro ⟨hj, hauth, hname⟩
      have hsame := hother j (hne j hj hauth)
      rw [hsame.socketFd] at hj
      rw [hsame.authenticated] at hauth
      rw [hsame.username] at hname
      exact ⟨hj, hauth, hname⟩
    · rintro ⟨hj, hauth, hname⟩
      have hji : j ≠ i := by
        rintro rfl
        exact h (Option.some.inj (hj.symm.trans hfd))
      have hsame := hother j hji
      rw [hsame.socketFd, hsame.authenticated, hsame.username]
      exact ⟨hj, hauth, hname⟩

theorem still_board (h : Still w w') : board w' = board w := by
  obtain ⟨es, ho, hes⟩ := h.events
  have howner : loginOn w' = loginOn w := by
    funext fd
    unfold loginOn
    simp only [h.clientCount, (h.clients _).authenticated, (h.clients _).socketFd,
      (h.clients _).username]
  have hvalue : ∀ name, findUser w'.server name = findUser w.server name :=
    findUser_congr h.users h.userCount
  simp only [Presence.board, howner, hvalue, h.users, ho, marks_append hes]

theorem status_value (he : Enrolled w.server) {name : Username} {k : ℕ} {status : UserStatus}
    (hk : findUser w.server name = some k)
    (hu : w'.server.users =
      Function.update w.server.users k { w.server.users k with status := status })
    (hc : w'.server.userCount = w.server.userCount) :
    (board w').value = Function.update (board w).value name (some status) := by
  funext name'
  have hfind := (SameRecords.status hu hc).find he name'
  by_cases h : name' = name
  · subst h
    rw [Function.update_self, board]
    dsimp only
    rw [hfind, hk, Option.map_some, hu, Function.update_self]
  · rw [Function.update_of_ne h, board, board]
    dsimp only
    rw [hfind]
    cases hl : findUser w.server name' with
    | none => rfl
    | some l =>
      have hne : l ≠ k := by
        rintro rfl
        exact h ((findUser_some hl).2.2.symm.trans (findUser_some hk).2.2)
      rw [Option.map_some, Option.map_some, hu, Function.update_of_ne hne]

theorem added_value (he : Enrolled w.server) {name : Username} {key : Key}
    (h : Added w.server name key w'.server) :
    (board w').value = Function.update (board w).value name (some .offline) := by
  funext name'
  by_cases hname : name' = name
  · subst hname
    rw [Function.update_self, board]
    dsimp only
    rw [h.find he, Option.map_some, h.new]
  · rw [Function.update_of_ne hname, board, board]
    dsimp only
    cases hl : findUser w.server name' with
    | some l =>
      rw [h.extends.find hl, Option.map_some, Option.map_some,
        h.old (Nat.ne_of_lt (findUser_some hl).1)]
    | none =>
      cases hl' : findUser w'.server name' with
      | none => rfl
      | some l =>
        obtain ⟨hlt, hfound⟩ := (h.enrolled he).find_iff.mp hl'
        by_cases hnew : l = w.server.userCount
        · rw [hnew, h.new] at hfound
          exact absurd hfound.symm hname
        · rw [h.userCount] at hlt
          rw [h.old hnew] at hfound
          exact absurd hfound (he.fresh hl (by omega))

structure Manned (verify : Signature → Challenge → Key → Bool) (w : World) : Prop where
  consistent : Consistent w
  enrolled : Enrolled w.server
  logins : Authenticity.LoginsVerified verify w

theorem Chain.manned {g : Guards} (h : Chain verify g i w w') (hw : Manned verify w) :
    Manned verify w' := by
  obtain ⟨hc, he, hl⟩ := Chain.carry
    (P := fun v ↦ Enrolled v.server ∧ Authenticity.LoginsVerified verify v)
    (fun _ _ heff _ hv ↦ ⟨Registry.Effect.enrolled heff hv.1,
      Authenticity.Effect.loginsVerified heff hv.2⟩) h hw.consistent ⟨hw.enrolled, hw.logins⟩
  exact ⟨hc, he, hl⟩

theorem Manned.user (hw : Manned verify w) (hauth : (w.server.clients i).authenticated = true) :
    ∃ k, findUser w.server (w.server.clients i).username = some k := by
  obtain ⟨fd, hfd⟩ := hw.consistent.sockets.authenticated i hauth
  obtain ⟨signature, challenge, key, hmem⟩ :=
    lastLogin_some (hw.consistent.linked.authenticated hfd hauth)
  obtain ⟨_, k, hk, _⟩ := hw.logins _ _ _ _ _ hmem
  exact ⟨k, hk⟩

theorem terminate_kept (w : World) (i : ℕ) :
    (terminate w i).server.users = (goOffline w i).server.users ∧
      (terminate w i).server.userCount = (goOffline w i).server.userCount ∧
      marks (terminate w i).out = marks (goOffline w i).out := by
  have hclosed : Still (goOffline w i) (closeSocket (goOffline w i) i) := by
    unfold closeSocket
    split
    · exact .refl _
    · exact .event rfl rfl rfl
  obtain ⟨es, ho, hes⟩ := hclosed.events
  refine ⟨hclosed.users, hclosed.userCount, ?_⟩
  rw [terminate, modifyClient_out, ho, marks_append hes]

theorem goOffline_none (hauth : (w.server.clients i).authenticated = false) :
    goOffline w i = w := by
  simp [goOffline, hauth]

theorem goOffline_user (hw : Manned verify w) {k : ℕ}
    (hauth : (w.server.clients i).authenticated = true)
    (hk : findUser w.server (w.server.clients i).username = some k) :
    Still (w.modifyUser k (fun u ↦ { u with status := .offline })) (goOffline w i) := by
  have hname : 0 < (w.server.clients i).username.bytes.length := by
    obtain ⟨hlt, _, heq⟩ := findUser_some hk
    rw [← heq]
    exact (hw.enrolled.named k hlt).1
  have hgo : goOffline w i = broadcastStatusUpdate
      (w.modifyUser k (fun u ↦ { u with status := .offline })) (w.server.clients i).username
      .offline := by
    simp [goOffline, hauth, hname, hk]
  rw [hgo]
  exact still_neutral.broadcast _ _ _

theorem terminate_board (hw : Manned verify w) (hfd : (w.server.clients i).socketFd = some fd) :
    board (terminate w i) = (board w).move .offline (.leave fd) := by
  obtain ⟨hchain, hclosed⟩ := @terminate_chain verify .any i w (fun _ _ ↦ trivial)
  obtain ⟨husers, hcount, hmarks⟩ := terminate_kept w i
  have hs := hw.consistent.sockets
  have howner : loginOn (terminate w i) = Function.update (loginOn w) fd none := by
    rw [loginOn_update hs (Chain.sockets hchain hs) hfd (.inr (by rw [hclosed]; rfl))
      (fun j hj ↦ Chain.others hchain j hj), hclosed]
    rfl
  have hslot := loginOn_slot hs hfd
  cases hauth : (w.server.clients i).authenticated with
  | false =>
    have hnone : loginOn w fd = none := by
      rw [hslot, hauth]
      rfl
    have hmove : (board w).move .offline (.leave fd) = board w := by
      simp only [Board.move, board, hnone]
    rw [goOffline_none hauth] at husers hcount hmarks
    have hsame : Function.update (loginOn w) fd none = loginOn w := by
      rw [← hnone]
      exact Function.update_eq_self fd _
    rw [hmove, board, howner, hsame, hmarks, husers]
    simp only [findUser_congr husers hcount]
    rfl
  | true =>
    obtain ⟨k, hk⟩ := hw.user hauth
    have hstill := goOffline_user hw hauth hk
    have hsome : loginOn w fd = some (w.server.clients i).username := by
      rw [hslot, hauth]
      rfl
    have hvalue : (board (terminate w i)).value =
        Function.update (board w).value (w.server.clients i).username (some .offline) :=
      status_value hw.enrolled hk (husers.trans hstill.users) (hcount.trans hstill.userCount)
    obtain ⟨es, ho, hes⟩ := hstill.events
    have hboard : board (terminate w i) = ⟨loginOn (terminate w i),
        (board (terminate w i)).value, marks (terminate w i).out⟩ := rfl
    rw [hboard, howner, hvalue, hmarks, ho, marks_append hes]
    simp only [Board.move, board, hsome]
    rfl

theorem noted_board (e : Event) : board (w.emit e) =
    { board w with marks := marks w.out ++ (markOf w.out e).toList } := by
  simp only [board, emit_out, marks_concat]
  rfl

/-- A request that is let through is noted, and the users are as they were. -/
theorem admitted_still {type : UInt8} {payload : Bytes}
    (hfd : (w.server.clients i).socketFd = some fd)
    (hreq : received w i stream env = some (type, payload)) :
    Still (w.emit (.request fd type payload)) (takeRequest { w with env := env } i stream).2 := by
  obtain ⟨ho, r, hs⟩ := @Answers.takeRequest_some i fd { w with env := env } stream type payload
    hfd hreq
  refine ⟨by rw [hs]; rfl, by rw [hs]; rfl, by rw [hs]; rfl, fun j ↦ ?_, [], ?_, by simp⟩
  · exact modifyClient_identity hs ⟨rfl, rfl, rfl, rfl, rfl⟩ j
  · rw [ho, List.append_nil]
    rfl

theorem dropped_still (hreq : received w i stream env = none)
    (hfd : (w.server.clients i).socketFd = some fd) :
    Still w (takeRequest { w with env := env } i stream).2 := by
  have hr : Still w (receiveNetworkMessage { w with env := env } stream).2 := by
    have h := receiveNetworkMessage_silent { w with env := env } stream
    exact .quiet h.server h.out
  have hlimit : Still w (checkRateLimit
      (receiveNetworkMessage { w with env := env } stream).2 i).2 := by
    obtain ⟨r, hs, ho, _⟩ :=
      checkRateLimit_server (receiveNetworkMessage { w with env := env } stream).2 i
    refine hr.trans ⟨by rw [hs]; rfl, by rw [hs]; rfl, by rw [hs]; rfl, ?_, [], ?_, by simp⟩
    · exact modifyClient_identity hs ⟨rfl, rfl, rfl, rfl, rfl⟩
    · rw [ho, List.append_nil]
  have hcounted : ((updateRateLimit (checkRateLimit
      (receiveNetworkMessage { w with env := env } stream).2 i).2 i).server.clients i).socketFd =
      some fd := by
    rw [updateRateLimit, modifyClient_self, (hlimit.clients i).socketFd]
    exact hfd
  unfold received at hreq
  unfold takeRequest at hreq ⊢
  dsimp only at hreq ⊢
  split
  · exact hr
  · exact hr
  next hmsg =>
    rw [hmsg] at hreq
    dsimp only at hreq
    split
    · exact hlimit.trans (sendError_still _ _ _ _)
    next hallowed =>
      rw [if_neg hallowed, hcounted] at hreq
      cases hreq

theorem unmarked_board {type : UInt8} {payload : Bytes}
    (hmark : markOf w.out (.request fd type payload) = none) :
    board (w.emit (.request fd type payload)) = board w := by
  rw [noted_board, hmark, Option.toList_none, List.append_nil]
  rfl

theorem markOf_other {before : List Event} {type : UInt8} {payload : Bytes}
    (htype : type ≠ MessageType.setStatus.code) :
    markOf before (.request fd type payload) = none := by simp [markOf, htype]

/-- What a `REGISTER_USER` does to the board. -/
theorem register_board (he : Enrolled w.server) (payload : Bytes) :
    board (handleRegisterUser w i payload).2 = board w ∨
      ∃ name, board (handleRegisterUser w i payload).2 = (board w).move .offline (.create name) ∧
        (board w).Enabled (.create name) := by
  unfold handleRegisterUser
  cases parseRegister payload with
  | error e => exact .inl (still_board (refuse_still w i e))
  | ok request =>
    obtain ⟨name, key⟩ := request
    dsimp only
    by_cases hzero : (addUser w name key).1 = 0
    · have hadded := addUser_zero hzero
      have hboard : board (addUser w name key).2 = (board w).move .offline (.create name) := by
        have hkept : loginOn (addUser w name key).2 = loginOn w ∧
            (addUser w name key).2.out = w.out := by
          unfold addUser
          split_ifs <;> exact ⟨rfl, rfl⟩
        have hvalue := added_value he hadded
        have heta : board (addUser w name key).2 = ⟨loginOn (addUser w name key).2,
            (board (addUser w name key).2).value, marks (addUser w name key).2.out⟩ := rfl
        rw [heta, hkept.1, hkept.2, hvalue]
        rfl
      refine .inr ⟨name, ?_, ?_⟩
      · rw [if_pos hzero, still_board (reply_still _ i _ _), hboard]
      · simp only [Board.Enabled, board, hadded.fresh, Option.map_none]
    · rw [if_neg hzero, addUser_fails hzero]
      split
      · exact .inl (still_board (reply_still w i _ _))
      · exact .inl (still_board (reply_still w i _ _))

theorem handleSetStatus_ok (hw : Manned verify w)
    (hauth : (w.server.clients i).authenticated = true) {payload : Bytes} {status : UserStatus}
    (hparse : parseSetStatus payload = .ok status) :
    board (handleSetStatus w i payload).2 = { board w with
      value := Function.update (board w).value (w.server.clients i).username (some status) } := by
  obtain ⟨k, hk⟩ := hw.user hauth
  have hset : Still (w.modifyUser k (fun u ↦ { u with status := status }))
      (handleSetStatus w i payload).2 := by
    simp only [handleSetStatus, hparse, hk]
    exact (modifyClient_still _ i ⟨rfl, rfl, rfl, rfl, rfl⟩).trans (still_neutral.broadcast _ _ _)
  have hvalue := @status_value w (w.modifyUser k (fun u ↦ { u with status := status }))
    hw.enrolled _ k status hk rfl rfl
  have heta : board (w.modifyUser k (fun u ↦ { u with status := status })) = ⟨loginOn w,
      (board (w.modifyUser k (fun u ↦ { u with status := status }))).value, marks w.out⟩ := rfl
  rw [still_board hset, heta, hvalue]
  rfl

theorem handleSetStatus_error {payload : Bytes} {e : Refusal}
    (hparse : parseSetStatus payload = .error e) : Still w (handleSetStatus w i payload).2 := by
  simp only [handleSetStatus, hparse]
  exact refuse_still w i e

theorem loggedIn_board (hw : Manned verify w) {name : Username} {signature : Signature} {k : ℕ}
    (hfd : (w.server.clients i).socketFd = some fd) (hk : findUser w.server name = some k)
    (hv : verify signature (w.server.clients i).challenge (w.server.users k).publicKey = true) :
    board (loggedIn w i name signature fd k) =
      (board w).move .offline (.join fd name .online) := by
  have hs := hw.consistent.sockets
  have hchain : Chain verify .any i w (loggedIn w i name signature fd k) :=
    loggedIn_chain hfd hk hv trivial
  have hself := loggedIn_self w i name signature fd k
  have howner : loginOn (loggedIn w i name signature fd k) =
      Function.update (loginOn w) fd (some name) := by
    rw [loginOn_update hs (Chain.sockets hchain hs) hfd (.inl (by rw [hself]; exact hfd))
      (fun j hj ↦ Chain.others hchain j hj), hself]
    rfl
  have hvalue : (board (loggedIn w i name signature fd k)).value =
      Function.update (board w).value name (some .online) :=
    status_value hw.enrolled hk rfl rfl
  have hmarks : marks (loggedIn w i name signature fd k).out = marks w.out ++ [(fd, .online)] :=
    marks_concat w.out _
  have heta : board (loggedIn w i name signature fd k) =
      ⟨loginOn (loggedIn w i name signature fd k),
        (board (loggedIn w i name signature fd k)).value,
        marks (loggedIn w i name signature fd k).out⟩ := rfl
  rw [heta, howner, hvalue, hmarks]
  rfl

/-- A connection leaves its user, by closing or for another name, only when the
user's status is then what the other connections of the user leave it: the last
status one of them was given, or offline. -/
def Keeps (verify : Signature → Challenge → Key → Bool) (w : World) : Input → Prop
  | .accept _ _ => True
  | .receive i stream env => ∀ fd, (w.server.clients i).socketFd = some fd →
      (w.server.clients i).connected = true → (w.server.clients i).authenticated = true →
      (Ends w i stream env →
        (board w).without .offline fd (w.server.clients i).username = .offline) ∧
      ∀ name, AcceptsLogin verify w i stream env name → name ≠ (w.server.clients i).username →
        (board w).value (w.server.clients i).username =
          some ((board w).without .offline fd (w.server.clients i).username)

/-- What a step does to the board: nothing, or one move that may be made
exactly when the step keeps the statuses. -/
inductive Moved (verify : Signature → Challenge → Key → Bool) (w : World) (x : Input)
    (w' : World) : Prop
  | still (h : board w' = board w) (hk : Keeps verify w x)
  | moved (m : Move Fd Username UserStatus) (h : board w' = (board w).move .offline m)
      (he : (board w).Enabled m) (hk : (board w).Permits .offline m ↔ Keeps verify w x)

theorem keeps_inert (hends : ¬ Ends w i stream env)
    (hlogin : ∀ name, ¬ AcceptsLogin verify w i stream env name) :
    Keeps verify w (.receive i stream env) :=
  fun _ _ _ _ ↦ ⟨fun h ↦ absurd h hends, fun name h ↦ absurd h (hlogin name)⟩

theorem not_acceptsLogin {type : UInt8} {payload : Bytes}
    (hreq : received w i stream env = some (type, payload))
    (htype : type ≠ MessageType.loginUser.code) (name : Username) :
    ¬ AcceptsLogin verify w i stream env name := by
  rintro ⟨payload', signature, k, hreq', _⟩
  rw [hreq, Option.some.injEq, Prod.mk.injEq] at hreq'
  exact htype hreq'.1

theorem acceptsLogin_unique {name name' : Username} (h : AcceptsLogin verify w i stream env name)
    (h' : AcceptsLogin verify w i stream env name') : name = name' := by
  obtain ⟨payload, signature, _, hreq, hparse, _⟩ := h
  obtain ⟨payload', signature', _, hreq', hparse', _⟩ := h'
  rw [hreq, Option.some.injEq, Prod.mk.injEq] at hreq'
  rw [← hreq'.2, hparse, Except.ok.injEq, Prod.mk.injEq] at hparse'
  exact hparse'.1

theorem leave_permits (hs : Sockets w) (hfd : (w.server.clients i).socketFd = some fd)
    (hconn : (w.server.clients i).connected = true) (hends : Ends w i stream env)
    (hlogin : ∀ name, ¬ AcceptsLogin verify w i stream env name) :
    (board w).Permits .offline (.leave fd) ↔ Keeps verify w (.receive i stream env) := by
  have hslot : (board w).owner fd = if (w.server.clients i).authenticated then
      some (w.server.clients i).username else none := loginOn_slot hs hfd
  refine ⟨fun h fd' hfd' _ hauth ↦ ⟨fun _ ↦ ?_, fun name hname ↦ absurd hname (hlogin name)⟩,
    fun h name hname ↦ ?_⟩
  · obtain rfl := Option.some.inj (hfd.symm.trans hfd')
    refine h _ ?_
    rw [hslot, if_pos hauth]
  · rw [hslot] at hname
    split at hname
    next hauth => exact Option.some.inj hname ▸ (h fd hfd hconn hauth).1 hends
    next => cases hname

theorem join_permits (hs : Sockets w) (hfd : (w.server.clients i).socketFd = some fd)
    (hconn : (w.server.clients i).connected = true) (hends : ¬ Ends w i stream env)
    {name : Username} (hlogin : AcceptsLogin verify w i stream env name) :
    (board w).Permits .offline (.join fd name .online) ↔
      Keeps verify w (.receive i stream env) := by
  have hslot : (board w).owner fd = if (w.server.clients i).authenticated then
      some (w.server.clients i).username else none := loginOn_slot hs hfd
  refine ⟨fun h fd' hfd' _ hauth ↦ ⟨fun hend ↦ absurd hend hends, fun name' hname' hne ↦ ?_⟩,
    fun h name' hname' hne ↦ ?_⟩
  · obtain rfl := Option.some.inj (hfd.symm.trans hfd')
    obtain rfl := acceptsLogin_unique hlogin hname'
    refine h _ ?_ hne.symm
    rw [hslot, if_pos hauth]
  · rw [hslot] at hname'
    split at hname'
    next hauth =>
      obtain rfl := Option.some.inj hname'
      exact (h fd hfd hconn hauth).2 name hlogin hne.symm
    next => cases hname'

theorem hangUp_board (w : World) (i : ℕ) :
    board (w.modifyClient i (fun c ↦ { c with connected := false })) = board w := by
  have hslot : ∀ j, ((w.modifyClient i (fun c ↦ { c with connected := false })).server.clients j) =
      { w.server.clients j with
        connected := if j = i then false else (w.server.clients j).connected } := by
    intro j
    by_cases hj : j = i
    · subst hj
      rw [modifyClient_self, if_pos rfl]
    · rw [modifyClient_other _ _ hj, if_neg hj]
  have howner : loginOn (w.modifyClient i (fun c ↦ { c with connected := false })) = loginOn w := by
    funext fd
    unfold loginOn
    simp only [hslot]
    rfl
  rw [board, howner]
  rfl

theorem ends_moved (hw : Manned verify w) (hfd : (w.server.clients i).socketFd = some fd)
    (hconn : (w.server.clients i).connected = true) (hends : Ends w i stream env) :
    Moved verify w (.receive i stream env) (clientHandler verify { w with env := env } i stream) := by
  have hne : MessageType.loginUser.code ≠ MessageType.logout.code := by decide
  have hnologin : ∀ name, ¬ AcceptsLogin verify w i stream env name := by
    rintro name ⟨payload, _, _, hreq, _⟩
    exact hne (ends_iff.mp hends _ hreq)
  have hclosing : ∀ v, board v = board w → (v.server.clients i).socketFd = some fd →
      Chain verify .any i w v → board (terminate v i) = (board w).move .offline (.leave fd) := by
    intro v hboard hsocket hchain
    rw [terminate_board (Chain.manned hchain hw) hsocket, hboard]
  have hstart : Chain verify .any i w { w with env := env } := Chain.of_silent ⟨rfl, rfl, rfl⟩
  have htake := hstart.trans (@takeRequest_chain verify .any i { w with env := env } fd stream hfd).1
  refine .moved (.leave fd) ?_ trivial
    (leave_permits hw.consistent.sockets hfd hconn hends hnologin)
  obtain hnone | ⟨payload, hreq⟩ := id hends
  · have hstill := dropped_still hnone hfd
    have hhandler : clientHandler verify { w with env := env } i stream =
        terminate (takeRequest { w with env := env } i stream).2 i := by
      unfold received at hnone
      simp only [clientHandler, hnone]
    rw [hhandler]
    exact hclosing _ (still_board hstill) ((hstill.clients i).socketFd.trans hfd) htake
  · have hstill := admitted_still hfd hreq
    have hlogout : ∀ v : World, dispatch verify v i MessageType.logout.code payload =
        v.modifyClient i (fun c ↦ { c with connected := false }) := by
      intro v
      simp [dispatch, handleLogout, MessageType.code]
    have hhandler : clientHandler verify { w with env := env } i stream = terminate
        ((takeRequest { w with env := env } i stream).2.modifyClient i
          (fun c ↦ { c with connected := false })) i := by
      unfold received at hreq
      simp only [clientHandler, hreq, hlogout, modifyClient_self]
      rfl
    rw [hhandler]
    refine hclosing _ ?_ ?_ (htake.tail (.logout trivial rfl rfl rfl))
    · rw [hangUp_board, still_board hstill, unmarked_board (markOf_other (by decide))]
    · rw [modifyClient_self]
      exact (hstill.clients i).socketFd.trans hfd

theorem login_moved (hw : Manned verify w) (hfd : (w.server.clients i).socketFd = some fd)
    (hconn : (w.server.clients i).connected = true) {payload : Bytes}
    (hreq : received w i stream env = some (MessageType.loginUser.code, payload))
    (hstill : Still (w.emit (.request fd MessageType.loginUser.code payload)) v)
    (hv : Manned verify v) :
    Moved verify w (.receive i stream env) (handleLoginUser verify v i payload).2 := by
  have hends : ¬ Ends w i stream env := not_ends hreq (by decide)
  have hboard : board v = board w :=
    (still_board hstill).trans (unmarked_board (markOf_other (by decide)))
  have hfd' : (v.server.clients i).socketFd = some fd := (hstill.clients i).socketFd.trans hfd
  have hfind : ∀ name, findUser v.server name = findUser w.server name :=
    findUser_congr hstill.users hstill.userCount
  have hsame : ∀ name signature k, findUser w.server name = some k →
      (verify signature (v.server.clients i).challenge (v.server.users k).publicKey = true ↔
        verify signature (w.server.clients i).challenge (w.server.users k).publicKey = true) := by
    intro name signature k _
    rw [(hstill.clients i).challenge, hstill.users]
    rfl
  unfold handleLoginUser
  cases hparse : parseLogin payload with
  | error e =>
    refine .still ((still_board (refuse_still v i e)).trans hboard) (keeps_inert hends ?_)
    rintro name ⟨payload', signature, k, hreq', hparse', _⟩
    rw [hreq, Option.some.injEq, Prod.mk.injEq] at hreq'
    rw [← hreq'.2, hparse] at hparse'
    cases hparse'
  | ok login =>
    obtain ⟨name, signature⟩ := login
    dsimp only
    by_cases hzero : (authenticateUser verify v i name signature).1 = 0
    · obtain ⟨k, hk, hver⟩ := authenticateUser_zero hzero
      have haccepts : AcceptsLogin verify w i stream env name :=
        ⟨payload, signature, k, hreq, hparse, hfind name ▸ hk,
          (hsame name signature k (hfind name ▸ hk)).mp hver⟩
      rw [if_pos hzero, authenticateUser_accepts hfd' hk hver]
      dsimp only
      have hdelivered := (still_neutral.broadcast (loggedIn v i name signature fd k) name .online).trans
        (still_neutral.deliverQueuedMessages _ i)
      refine .moved (.join fd name .online) ?_ ?_
        (join_permits hw.consistent.sockets hfd hconn hends haccepts)
      · rw [still_board (reply_still _ i _ _), still_board hdelivered,
          loggedIn_board hv hfd' hk hver, hboard]
      · simp only [Board.Enabled, board, (hfind name).symm.trans hk, Option.map_some,
          Option.isSome_some]
    · rw [if_neg hzero, authenticateUser_rejects hzero]
      refine .still ((still_board (reply_still v i _ _)).trans hboard) (keeps_inert hends ?_)
      rintro name' ⟨payload', signature', k, hreq', hparse', hk, hver⟩
      rw [hreq, Option.some.injEq, Prod.mk.injEq] at hreq'
      rw [← hreq'.2, hparse, Except.ok.injEq, Prod.mk.injEq] at hparse'
      obtain ⟨rfl, rfl⟩ := hparse'
      refine hzero ?_
      rw [authenticateUser_accepts hfd' ((hfind name).trans hk)
        ((hsame name signature k hk).mpr hver)]

theorem setStatus_moved (hw : Manned verify w) (hfd : (w.server.clients i).socketFd = some fd)
    {payload : Bytes}
    (hreq : received w i stream env = some (MessageType.setStatus.code, payload))
    (hstill : Still (w.emit (.request fd MessageType.setStatus.code payload)) v)
    (hv : Manned verify v) :
    Moved verify w (.receive i stream env)
      (authenticatedOnly v i (fun v ↦ handleSetStatus v i payload)) := by
  have hkeeps : Keeps verify w (.receive i stream env) :=
    keeps_inert (not_ends hreq (by decide)) (not_acceptsLogin hreq (by decide))
  have hlast := hw.consistent.linked.login i fd hfd
  have hslot : loginOn w fd = _ := loginOn_slot hw.consistent.sockets hfd
  have hauth : (v.server.clients i).authenticated = (w.server.clients i).authenticated :=
    (hstill.clients i).authenticated
  have hname : (v.server.clients i).username = (w.server.clients i).username :=
    (hstill.clients i).username
  unfold authenticatedOnly
  rw [hauth]
  cases hlogged : (w.server.clients i).authenticated with
  | false =>
    have hmark : markOf w.out (.request fd MessageType.setStatus.code payload) = none := by
      rw [hlogged] at hlast
      simp [markOf, hlast]
    refine .still ?_ hkeeps
    rw [← unmarked_board hmark, ← still_board hstill]
    exact still_board (sendError_still v _ _ _)
  | true =>
    rw [hlogged, if_pos rfl] at hlast hslot
    cases hparse : parseSetStatus payload with
    | error e =>
      have hmark : markOf w.out (.request fd MessageType.setStatus.code payload) = none := by
        simp [markOf, hparse, Except.toOption]
      refine .still ?_ hkeeps
      rw [← unmarked_board hmark, ← still_board hstill]
      exact still_board (handleSetStatus_error hparse)
    | ok status =>
      have hmark : markOf w.out (.request fd MessageType.setStatus.code payload) =
          some (fd, status) := by
        simp [markOf, hlast, hparse, Except.toOption]
      refine .moved (.write fd status) ?_ trivial (iff_of_true trivial hkeeps)
      have hset := handleSetStatus_ok hv (hauth.trans hlogged) hparse
      rw [still_board hstill, noted_board, hmark, hname] at hset
      refine hset.trans ?_
      have howner : (board w).owner fd = some (w.server.clients i).username := hslot
      simp only [Board.move, howner]
      rfl

/-- The `switch`, on a request that is not `LOGOUT`. -/
theorem dispatch_moved (hw : Manned verify w) (hfd : (w.server.clients i).socketFd = some fd)
    (hconn : (w.server.clients i).connected = true) {type : UInt8} {payload : Bytes}
    (hreq : received w i stream env = some (type, payload))
    (htype : type ≠ MessageType.logout.code) :
    Moved verify w (.receive i stream env)
      (dispatch verify (takeRequest { w with env := env } i stream).2 i type payload) := by
  have hends : ¬ Ends w i stream env := not_ends hreq htype
  have hstill := admitted_still hfd hreq
  have hstart : Chain verify .any i w { w with env := env } := Chain.of_silent ⟨rfl, rfl, rfl⟩
  have hv : Manned verify (takeRequest { w with env := env } i stream).2 :=
    Chain.manned (hstart.trans
      (@takeRequest_chain verify .any i { w with env := env } fd stream hfd).1) hw
  have hother : type ≠ MessageType.setStatus.code →
      board (takeRequest { w with env := env } i stream).2 = board w :=
    fun h ↦ (still_board hstill).trans (unmarked_board (markOf_other h))
  generalize (takeRequest { w with env := env } i stream).2 = v at hstill hv hother ⊢
  have hinert : type ≠ MessageType.setStatus.code → type ≠ MessageType.loginUser.code →
      ∀ v', Still v v' → Moved verify w (.receive i stream env) v' := by
    intro hset hlogin v' hsame
    exact .still ((still_board hsame).trans (hother hset))
      (keeps_inert hends (not_acceptsLogin hreq hlogin))
  unfold dispatch
  split
  next h =>
    subst h
    have hkeeps : Keeps verify w (.receive i stream env) :=
      keeps_inert hends (not_acceptsLogin hreq (by decide))
    have hboard := hother (by decide)
    obtain hsame | ⟨name, hmove, henabled⟩ := @register_board i v hv.enrolled payload
    · exact .still (hsame.trans hboard) hkeeps
    · rw [hboard] at hmove henabled
      exact .moved (.create name) hmove henabled (iff_of_true trivial hkeeps)
  split
  next h =>
    subst h
    exact login_moved hw hfd hconn hreq hstill hv
  split
  next h =>
    subst h
    exact hinert (by decide) (by decide) _
      (authenticatedOnly_still (fun _ ↦ handleGetPublicKey_still v payload))
  split
  next h =>
    subst h
    exact hinert (by decide) (by decide) _
      (authenticatedOnly_still (fun _ ↦ handleSendMessage_still v payload))
  split
  next h =>
    subst h
    exact hinert (by decide) (by decide) _
      (authenticatedOnly_still (fun _ ↦ still_neutral.deliverQueuedMessages v i))
  split
  next h =>
    subst h
    exact setStatus_moved hw hfd hreq hstill hv
  split
  next h =>
    subst h
    exact hinert (by decide) (by decide) _
      (authenticatedOnly_still (fun _ ↦ handleListUsers_still v))
  next _ hlogin _ _ _ hset _ => exact hinert hset hlogin _ (sendError_still v _ _ _)

theorem accepted_board {challenge : Challenge} {created : Bool} (hs : Sound w)
    (h : Accepted w challenge created w') : board w' = board w := by
  have hs' := Accepted.sockets h hs.sockets
  cases h with
  | full hsame hn ho => exact still_board (.event hsame ho rfl)
  | slot k es _ hfree hself hother _ _ husers _ ho hes =>
    have hquiet : ∀ e ∈ es, Event.isMark e = false := by
      obtain rfl | rfl := hes <;> simp [Event.isMark]
    have hold : (w.server.clients k).authenticated = false := by
      by_contra hauth
      have hconn := hs.settled k (by simpa using hauth)
      rw [hfree] at hconn
      cases hconn
    have hslot : ∀ j fd name, ((w'.server.clients j).socketFd = some fd ∧
        (w'.server.clients j).authenticated = true ∧ (w'.server.clients j).username = name) ↔
        (w.server.clients j).socketFd = some fd ∧
          (w.server.clients j).authenticated = true ∧ (w.server.clients j).username = name := by
      intro j fd name
      by_cases hj : j = k
      · subst hj
        have hnew : (w'.server.clients j).authenticated = false := by rw [hself]; rfl
        simp [hnew, hold]
      · rw [hother j hj]
    have howner : loginOn w' = loginOn w := by
      refine funext (fun fd ↦ Option.ext (fun name ↦ ?_))
      rw [loginOn_iff hs', loginOn_iff hs.sockets]
      exact exists_congr (fun j ↦ hslot j fd name)
    have hfind := findUser_congr husers.1 husers.2.1
    simp only [board, howner, hfind, husers.1, ho, marks_append hquiet]

theorem step_moved (hw : Manned verify w) (hs : Sound w) (x : Input) :
    Moved verify w x (step verify w x) := by
  cases x with
  | accept challenge created =>
    exact .still (accepted_board hs (acceptClient_accepted w challenge created)) trivial
  | receive i stream env =>
    cases hconn : (w.server.clients i).connected with
    | false =>
      have hidle : step verify w (.receive i stream env) = w := by simp [step, hconn]
      rw [hidle]
      refine .still rfl (fun fd _ h ↦ ?_)
      rw [hconn] at h
      cases h
    | true =>
      obtain ⟨fd, hfd⟩ := hs.sockets.connected i hconn
      rw [step_receive stream env hconn]
      by_cases hends : Ends w i stream env
      · exact ends_moved hw hfd hconn hends
      · have hsome : ∃ request ∈ received w i stream env,
            request.1 ≠ MessageType.logout.code := by simpa [ends_iff] using hends
        obtain ⟨⟨type, payload⟩, hreq, htype⟩ := hsome
        rw [(@clientHandler_dispatch verify i w fd stream env type payload hfd hconn
          hs.sockets.running hreq htype).1]
        exact dispatch_moved hw hfd hconn hreq htype

structure Tracked (verify : Signature → Challenge → Key → Bool) (w : World) : Prop where
  steady : Steady w
  enrolled : Enrolled w.server
  logins : Authenticity.LoginsVerified verify w
  board : (board w).Valid

theorem Tracked.manned (h : Tracked verify w) : Manned verify w :=
  ⟨h.steady.consistent, h.enrolled, h.logins⟩

theorem tracked_initial : Tracked verify World.initial := by
  refine ⟨steady_initial, enrolled_initial, ?_, ⟨?_, ?_⟩⟩
  · intro fd name signature challenge key h
    cases h
  · intro fd name h
    cases h
  · intro fd name h
    cases h

theorem step_tracked (hw : Tracked verify w) (x : Input) : Tracked verify (step verify w x) := by
  have hturn := @step_turn verify w hw.steady.sound x
  refine ⟨step_steady hw.steady x, Registry.Turn.enrolled hturn hw.enrolled,
    Authenticity.Turn.loginsVerified hturn hw.steady hw.logins, ?_⟩
  cases step_moved hw.manned hw.steady.sound x with
  | still h => exact h ▸ hw.board
  | moved m h he => exact h ▸ move_valid hw.board he

theorem follows_iff (hw : Tracked verify w) : Follows w ↔ (board w).Follows .offline := by
  have hvalue : ∀ k < w.server.userCount,
      (board w).value (w.server.users k).username = some (w.server.users k).status := by
    intro k hk
    rw [board]
    dsimp only
    rw [hw.enrolled.find hk, Option.map_some]
  refine ⟨fun h name status hname ↦ ?_, fun h ↦ ⟨fun k hk hnone ↦ ?_, fun k hk fd hfd ↦ ?_⟩⟩
  · obtain ⟨k, hk, rfl⟩ := Option.map_eq_some_iff.mp hname
    obtain ⟨hlt, _, rfl⟩ := findUser_some hk
    by_cases hsome : ∃ fd, loginOn w fd = some (w.server.users k).username
    · obtain ⟨fd, hfd⟩ := hsome
      exact (congrArg (Option.getD · .offline) (h.given k hlt fd hfd)).symm
    · have hnone : ∀ fd, loginOn w fd ≠ some (w.server.users k).username :=
        not_exists.mp hsome
      rw [h.offline k hlt hnone, Board.current, latest_none]
      · rfl
      · exact fun fd ↦ decide_eq_false (hnone fd)
  · exact h.closed (hvalue k hk) hnone
  · exact h.written hw.board (hvalue k hk) hfd

/-- In a run the statuses follow the sessions exactly as long as no connection
leaves its user while the user's status depends on it. -/
theorem presence_follows_iff (verify : Signature → Challenge → Key → Bool) (xs : List Input) :
    Runs.Always (step verify) Follows World.initial xs ↔
      Runs.Along (step verify) (Keeps verify) World.initial xs := by
  have htracked : Runs.Always (step verify) (Tracked verify) World.initial xs :=
    Runs.always_invariant (Q := Tracked verify) (fun v x hv ↦ step_tracked hv x) tracked_initial xs
  have hstep : ∀ v x, Tracked verify v → Follows v →
      (Follows (step verify v x) ↔ Keeps verify v x) := by
    intro v x hv hf
    rw [follows_iff hv] at hf
    rw [follows_iff (step_tracked hv x)]
    cases step_moved hv.manned hv.steady.sound x with
    | still h hk =>
      rw [h]
      exact iff_of_true hf hk
    | moved m h he hk =>
      rw [h, ← hk]
      exact move_follows_iff hv.board hf he
  refine ⟨fun h ↦ ?_, fun h ↦ ?_⟩
  · refine (h.and htracked).along (fun v x hv hv' ↦ ?_)
    exact (hstep v x hv.2 hv.1).mp hv'.1
  · have hinitial : Follows World.initial := by
      refine ⟨fun k hk ↦ ?_, fun k hk ↦ ?_⟩
      · exact absurd hk (Nat.not_lt_zero k)
      · exact absurd hk (Nat.not_lt_zero k)
    refine (Runs.Along.always (Q := fun v ↦ Tracked verify v ∧ Follows v) (fun v x hv hx ↦ ?_)
      ⟨tracked_initial, hinitial⟩ h).mono (fun v hv ↦ hv.2)
    exact ⟨step_tracked hv.1 x, (hstep v x hv.1 hv.2).mpr hx⟩

def secondClosed : List Input :=
  [.accept (Block.zero _) true, .accept (Block.zero _) true,
    .receive 0 (registerPacket (text "alice") (List.replicate 32 1)) .quiet,
    .receive 0 (loginPacket (text "alice") (List.replicate 64 0)) .quiet,
    .receive 1 (loginPacket (text "alice") (List.replicate 64 0)) .quiet,
    .receive 1 [] .quiet]

theorem secondClosed_unfollowed :
    ¬ Runs.Always (step (fun _ _ _ ↦ true)) Follows World.initial secondClosed := by
  intro h
  have hlast : Follows (reach (fun _ _ _ ↦ true) secondClosed) := h.last
  have hcount : 0 < (reach (fun _ _ _ ↦ true) secondClosed).server.userCount := by decide +kernel
  have hlogin : loginOn (reach (fun _ _ _ ↦ true) secondClosed) 0 =
      some ((reach (fun _ _ _ ↦ true) secondClosed).server.users 0).username := by decide +kernel
  have hgiven := hlast.given 0 hcount 0 hlogin
  have hstale : latest (fun fd ↦ decide (loginOn (reach (fun _ _ _ ↦ true) secondClosed) fd =
      some ((reach (fun _ _ _ ↦ true) secondClosed).server.users 0).username))
      (marks (reach (fun _ _ _ ↦ true) secondClosed).out) ≠
        some ((reach (fun _ _ _ ↦ true) secondClosed).server.users 0).status := by decide +kernel
  exact hstale hgiven

end CChat.Server.Presence
