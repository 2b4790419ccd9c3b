import CChat.Client.Sessions

namespace CChat.Client.Secrecy

open CChat.Library CChat.Protocol.Types Network Crypto Chat KeyFiles Registration ChatLoop Sessions

/-- What a call shows of the secrets it meets with: what comes of unlocking the own
keys, how the chat ends and what each message in it encrypts to under any key.
What else there is of it is known to the network. -/
structure Sight where
  username : Bytes
  env : Env
  opened : Option CchatError
  ends : Lines.Status
  boxes : List (Key → Except CchatError Bytes)

def Call.opened (call : Call) (user : Username) : Option CchatError :=
  (getPasswordInput passwordPrompt call.stack.password maxPasswordLen call.terminal).1.map
    fun password ↦ (loadKeysFromFile call.sodium call.disk user.bytes call.stack.publicKeyTemp
      SessionKeys.zero.privateKey (cString password)).result

def Call.hears (call : Call) : Lines.Outcome UInt8 :=
  let t := (getPasswordInput passwordPrompt call.stack.password maxPasswordLen call.terminal).2
  heard (t.typed.length + 1) t

def Call.sight (initialized : Bool) (user : Username) (call : Call) : Sight where
  username := call.username
  env := call.env
  opened := Call.opened call user
  ends := (Call.hears call).status
  boxes := (Lines.nonblank (Call.hears call).lines).map
    fun line key ↦ (encryptMessage call.sodium initialized line key).1

structure Seen where
  result : Option CchatError
  client : ClientState
  session : ChatSession

def Ended.seen (e : Ended) : Seen := ⟨e.result, e.client, e.session⟩

def sendBox (partner : Username) (key : Key) (c : ClientState)
    (box : Key → Except CchatError Bytes) : ClientState :=
  match box key with
  | .error _ => c
  | .ok encrypted => (sendMessageToServer c partner.bytes encrypted).2

def atEnd (c : ClientState) (session : ChatSession) : Lines.Status → Seen
  | .exited => ⟨some .success, (disconnectFromServer (disconnectFromServer c).2).2,
      { session with isInChat := false }⟩
  | .ended => ⟨some .success, (disconnectFromServer c).2, session⟩
  | .waiting | .reading => ⟨none, c, session⟩

def Sight.perform (sight : Sight) (c : ClientState) (session : ChatSession) : Seen :=
  let c := { c with env := sight.env }
  if validateUsername sight.username ≠ .success then ⟨some .invalidArgs, c, session⟩
  else if sight.opened ≠ some .success then ⟨sight.opened, c, session⟩
  else
    let connected := connectToServer c
    if connected.1 ≠ .success then ⟨some .network, connected.2, session⟩
    else
      let looked := getUserPublicKey connected.2 sight.username
      if looked.1.1 ≠ .success then
        ⟨some looked.1.1, (disconnectFromServer looked.2).2, session⟩
      else
        let partner := Username.ofBytes sight.username
        let key := looked.1.2.getD SessionKeys.zero.partnerPublicKey
        atEnd (sight.boxes.foldl (sendBox partner key) looked.2)
          { session with chatPartner := partner, partnerPublicKey := key, isInChat := true }
          sight.ends

def blindStep : Process → Sight → Process
  | .waiting, _ => .waiting
  | .idle c session, sight =>
    let seen := sight.perform c session
    if seen.result = none then .waiting else .idle seen.client seen.session

variable {sodium : Sodium} {initialized : Bool} {c : ClientState} {session : ChatSession}
  {user : Username}

/-- Of a message that is not empty the network gets the box. -/
theorem chatLine_box (partner : Username) (line : Bytes) (keys : SessionKeys)
    (hkeys : keys.keysLoaded = true) (hline : line ≠ []) :
    (chatLine sodium initialized c partner line keys).2 =
      sendBox partner keys.partnerPublicKey c
        fun key ↦ (encryptMessage sodium initialized line key).1 := by
  have hpos : line.length > 0 := List.length_pos_iff.mpr hline
  unfold chatLine sendMessageSecure sendBox
  rw [if_pos hpos, if_neg hpos.ne', hkeys]
  dsimp only
  cases (encryptMessage sodium initialized line keys.partnerPublicKey).1 with
  | error result => rfl
  | ok encrypted => rfl

def sendHeard (sodium : Sodium) (initialized : Bool) (partner : Username) (keys : SessionKeys)
    (c : ClientState) (lines : List Bytes) : ClientState :=
  (Lines.nonblank lines).foldl (fun c line ↦ (chatLine sodium initialized c partner line keys).2) c

theorem sendHeard_cons (partner : Username) (keys : SessionKeys) (line : Bytes)
    (lines : List Bytes) :
    sendHeard sodium initialized partner keys c (line :: lines) =
      sendHeard sodium initialized partner keys
        (chatLine sodium initialized c partner line keys).2 lines := by
  by_cases hblank : line = []
  · subst hblank
    rw [sendHeard, Lines.nonblank_blank]
    rfl
  · rw [sendHeard, Lines.nonblank_cons hblank]
    rfl

theorem sendHeard_boxes (partner : Username) (keys : SessionKeys)
    (hkeys : keys.keysLoaded = true) (lines : List Bytes) :
    sendHeard sodium initialized partner keys c lines =
      ((Lines.nonblank lines).map
        fun line key ↦ (encryptMessage sodium initialized line key).1).foldl
          (sendBox partner keys.partnerPublicKey) c := by
  rw [sendHeard, List.foldl_map]
  refine List.foldl_ext _ _ c fun d line hline ↦ ?_
  have hne : line ≠ [] := of_decide_eq_true (List.mem_filter.mp hline).2
  exact chatLine_box partner line keys hkeys hne

structure Leaves (partner : Username) (keys : SessionKeys) (sodium : Sodium) (initialized : Bool)
    (c : ClientState) (session : ChatSession) (o : Lines.Outcome UInt8) (s : Chatting) : Prop where
  client : s.client =
    if o.status = .exited then
      (disconnectFromServer (sendHeard sodium initialized partner keys c o.lines)).2
    else sendHeard sodium initialized partner keys c o.lines
  session : s.session = { session with isInChat := decide (o.status ≠ .exited) }

theorem chatLoop_leaves (k : ℕ) (s : Chatting) (h : s.session.isInChat = true) :
    Leaves s.session.chatPartner s.sessionKeys sodium initialized s.client s.session
      (heard k s.terminal) (chatLoop sodium initialized k s).state := by
  have hstays : ∀ session : ChatSession, session.isInChat = true →
      session = { session with isInChat := true } := by
    intro session hin
    rw [← hin]
  induction k generalizing s with
  | zero => exact ⟨rfl, hstays _ h⟩
  | succ k ih =>
    have hturned := @chatTurn_turned sodium initialized s h
    rw [chatLoop]
    generalize chatTurn sodium initialized s = turn at hturned ⊢
    cases hturned with
    | ended t hread hclosed ht =>
      rw [heard, Lines.converse_end hread, hclosed]
      exact ⟨rfl, hstays _ h⟩
    | waiting t hread hclosed ht =>
      rw [heard, Lines.converse_end hread, hclosed]
      exact ⟨rfl, hstays _ h⟩
    | exit t message hread he ht =>
      rw [heard, Lines.converse_exit hread he]
      exact ⟨rfl, rfl⟩
    | line t message hread he ht hclosed =>
      rw [heard, Lines.converse_next hread he]
      have hrest := ih { s with
        terminal := t
        client := (chatLine sodium initialized s.client s.session.chatPartner s.line
          s.sessionKeys).2
        message := message
        passed := s.passed ++ Lines.nonblank [s.line] } h
      rw [heard, ht, hclosed] at hrest
      obtain ⟨hclient, hsession⟩ := hrest
      dsimp only at hclient
      rw [← sendHeard_cons] at hclient
      exact ⟨hclient, hsession⟩

theorem closeChat_seen (s : Chatting) (hchat : s.session.isInChat = true)
    (hkeys : s.sessionKeys.keysLoaded = true) (password : Bytes) (k : ℕ) :
    Ended.seen (closeChat password (chatLoop sodium initialized k s)) =
      atEnd (((Lines.nonblank (heard k s.terminal).lines).map
          fun line key ↦ (encryptMessage sodium initialized line key).1).foldl
            (sendBox s.session.chatPartner s.sessionKeys.partnerPublicKey) s.client)
        s.session (heard k s.terminal).status := by
  have hstatus := (@chatLoop_heard sodium initialized k s hchat).2.1
  obtain ⟨hclient, hsession⟩ := @chatLoop_leaves sodium initialized k s hchat
  have hstays : s.session = { s.session with isInChat := true } := by rw [← hchat]
  rw [← sendHeard_boxes _ _ hkeys]
  generalize sendHeard sodium initialized s.session.chatPartner s.sessionKeys s.client
    (heard k s.terminal).lines = sent at hclient ⊢
  generalize (heard k s.terminal).status = status at hstatus hclient hsession ⊢
  cases hturn : chatLoop sodium initialized k s with
  | next s' =>
    rw [hturn] at hstatus hclient hsession
    subst hstatus
    have hsame : s'.session = s.session := hsession.trans hstays.symm
    have hsent : s'.client = sent := hclient
    rw [closeChat, Ended.seen, hsent, hsame]
    rfl
  | waiting s' =>
    rw [hturn] at hstatus hclient hsession
    subst hstatus
    have hsame : s'.session = s.session := hsession.trans hstays.symm
    have hsent : s'.client = sent := hclient
    rw [closeChat, Ended.seen, hsent, hsame]
    rfl
  | left s' =>
    rw [hturn] at hstatus hclient hsession
    change s'.client = _ at hclient
    change s'.session = _ at hsession
    rw [closeChat, Ended.seen, hclient, hsession]
    cases hin : s'.session.isInChat with
    | true =>
      rw [Turn.status, hin] at hstatus
      subst hstatus
      exact congrArg (Seen.mk (some .success) (disconnectFromServer sent).2) hstays.symm
    | false =>
      rw [Turn.status, hin] at hstatus
      subst hstatus
      rfl

theorem perform_seen (call : Call) (huser : session.currentUser = user) :
    Ended.seen (call.perform initialized c session) =
      (Call.sight initialized user call).perform c session := by
  rw [Call.perform, startChat, openChat, Sight.perform, Call.sight, Call.opened, Call.hears,
    ← huser]
  dsimp only
  change _ = if validateUsername call.username ≠ .success then
    Seen.mk (some .invalidArgs) (call.client c) session else _
  by_cases hvalid : validateUsername call.username ≠ .success
  · rw [if_pos hvalid, if_pos hvalid]
    rfl
  rw [if_neg hvalid, if_neg hvalid]
  generalize getPasswordInput passwordPrompt call.stack.password maxPasswordLen call.terminal =
    entered
  obtain ⟨password, t⟩ := entered
  cases password with
  | none => rfl
  | some password =>
    by_cases hloaded : (loadKeysFromFile call.sodium call.disk session.currentUser.bytes
        call.stack.publicKeyTemp SessionKeys.zero.privateKey (cString password)).result ≠ .success
    · have hopened := fun h ↦ hloaded (Option.some.inj h)
      rw [Option.map_some, if_pos hopened]
      dsimp only
      rw [if_pos hloaded]
      rfl
    rw [Option.map_some, not_not.mp hloaded, if_neg (not_not.mpr rfl)]
    dsimp only
    rw [if_neg hloaded]
    change _ = if (connectToServer (call.client c)).1 ≠ .success then
      Seen.mk (some .network) (connectToServer (call.client c)).2 session else _
    by_cases hconnected : (connectToServer (call.client c)).1 ≠ .success
    · rw [if_pos hconnected, if_pos hconnected]
      rfl
    rw [if_neg hconnected, if_neg hconnected]
    by_cases hfound :
        (getUserPublicKey (connectToServer (call.client c)).2 call.username).1.1 ≠ .success
    · rw [if_pos hfound]
      change _ = if (getUserPublicKey (connectToServer (call.client c)).2 call.username).1.1 ≠
        .success then _ else _
      rw [if_pos hfound]
      rfl
    rw [if_neg hfound]
    change _ = if (getUserPublicKey (connectToServer (call.client c)).2 call.username).1.1 ≠
      .success then _ else _
    rw [if_neg hfound]
    exact closeChat_seen _ rfl rfl _ _

theorem perform_user (call : Call) :
    (call.perform initialized c session).session.currentUser = session.currentUser := by
  have hperform : (Ended.seen (call.perform initialized c session)).session.currentUser =
      session.currentUser := by
    rw [perform_seen call rfl, Sight.perform]
    dsimp only
    split_ifs
    · rfl
    · rfl
    · rfl
    · rfl
    · generalize Call.sight initialized session.currentUser call = sight
      cases sight.ends with
      | exited => rfl
      | ended => rfl
      | waiting => rfl
      | reading => rfl
  exact hperform

def Process.Of (user : Username) : Process → Prop
  | .waiting => True
  | .idle _ session => session.currentUser = user

theorem step_of (p : Process) (call : Call) (huser : Process.Of user p) :
    Process.Of user (step initialized p call) := by
  cases p with
  | waiting => trivial
  | idle c session =>
    unfold step
    dsimp only
    split
    · trivial
    · exact (perform_user call).trans huser

theorem step_blind (p : Process) (call : Call) (huser : Process.Of user p) :
    step initialized p call = blindStep p (Call.sight initialized user call) := by
  cases p with
  | waiting => rfl
  | idle c session =>
    have hseen := @perform_seen initialized c session user call huser
    have hresult : (call.perform initialized c session).result = _ := congrArg Seen.result hseen
    have hclient : (call.perform initialized c session).client = _ := congrArg Seen.client hseen
    have hsession : (call.perform initialized c session).session = _ :=
      congrArg Seen.session hseen
    unfold step blindStep
    dsimp only
    rw [hresult, hclient, hsession]

/-- Whatever is called, a client without the secrets leaves the same on the network,
byte by byte, in every call and after it. -/
theorem wire_blind (initialized : Bool) (user : Username) (calls : List Call) (call : Call) :
    Runs.run (step initialized) (Process.initial user) calls =
        Runs.run blindStep (Process.initial user) (calls.map (Call.sight initialized user)) ∧
      ∀ c session, Runs.run (step initialized) (Process.initial user) calls = .idle c session →
        Ended.seen (call.perform initialized c session) =
          (Call.sight initialized user call).perform c session := by
  have hinitial : Process.Of user (Process.initial user) := rfl
  refine ⟨Runs.run_viewed (Q := Process.Of user) step_of step_blind hinitial calls, ?_⟩
  intro c session hidle
  have huser := Runs.run_invariant (Q := Process.Of user) (@step_of initialized user) hinitial calls
  rw [hidle] at huser
  exact perform_seen call huser

end CChat.Client.Secrecy
