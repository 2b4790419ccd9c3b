import CChat.Library.Runs
import CChat.Client.ChatLoop
import CChat.Client.Sockets

namespace CChat.Client.Sessions

open CChat.Library CChat.Protocol.Types CChat.Protocol.Wire Network Crypto Chat KeyFiles
  Registration ChatLoop Sockets

/-- What the stack holds in the arrays of `start_chat` that it does not
initialise. -/
structure Stack where
  password : Bytes
  publicKeyTemp : Key
  message : Bytes

/-- What `start_chat` leaves behind: `password` is the buffer when it was
filled, `passed` what was given to `send_message_secure`. Without a result the
function has not returned. -/
structure Ended where
  result : Option CchatError
  terminal : Terminal
  client : ClientState
  session : ChatSession
  sessionKeys : SessionKeys
  password : Option Bytes
  passed : List Bytes

inductive Opened
  | returned (e : Ended)
  | chatting (s : Chatting) (password : Bytes)

def passwordPrompt : String := "Enter your password to start secure chat: "

def openChat (sodium : Sodium) (disk : Disk) (stack : Stack) (t : Terminal) (c : ClientState)
    (session : ChatSession) (username : Bytes) : Opened :=
  if validateUsername username ≠ .success then
    .returned ⟨some .invalidArgs, t, c, session, SessionKeys.zero, none, []⟩
  else
    let entered := getPasswordInput passwordPrompt stack.password maxPasswordLen t
    match entered.1 with
    | none =>
      .returned ⟨none, entered.2, c, session, SessionKeys.zero, some stack.password, []⟩
    | some password =>
      let loaded := loadKeysFromFile sodium disk session.currentUser.bytes stack.publicKeyTemp
        SessionKeys.zero.privateKey (cString password)
      let wiped := secureZeroMemory password
      if loaded.result ≠ .success then
        .returned ⟨some loaded.result, entered.2, c, session, SessionKeys.zero, some wiped, []⟩
      else
        let connected := connectToServer c
        if connected.1 ≠ .success then
          .returned ⟨some .network, entered.2, connected.2, session, SessionKeys.zero, some wiped,
            []⟩
        else
          let looked := getUserPublicKey connected.2 username
          if looked.1.1 ≠ .success then
            .returned ⟨some looked.1.1, entered.2, (disconnectFromServer looked.2).2, session,
              SessionKeys.zero, some wiped, []⟩
          else
            let partnerPublicKey := looked.1.2.getD SessionKeys.zero.partnerPublicKey
            .chatting
              { terminal := entered.2
                client := looked.2
                session := { session with
                  chatPartner := Username.ofBytes username
                  partnerPublicKey := partnerPublicKey
                  isInChat := true }
                sessionKeys := ⟨loaded.privateKey, partnerPublicKey, true⟩
                message := stack.message
                passed := [] } wiped

def closeChat (password : Bytes) : Turn → Ended
  | .left s =>
    ⟨some .success, s.terminal, (disconnectFromServer s.client).2, s.session, SessionKeys.zero,
      some password, s.passed⟩
  | .waiting s | .next s =>
    ⟨none, s.terminal, s.client, s.session, s.sessionKeys, some password, s.passed⟩

def startChat (sodium : Sodium) (initialized : Bool) (disk : Disk) (stack : Stack) (t : Terminal)
    (c : ClientState) (session : ChatSession) (username : Bytes) : Ended :=
  match openChat sodium disk stack t c session username with
  | .returned e => e
  | .chatting s password =>
    closeChat password (chatLoop sodium initialized (s.terminal.typed.length + 1) s)

structure Ended.Clean (e : Ended) : Prop where
  keys : e.sessionKeys = SessionKeys.zero
  password : ∀ buffer ∈ e.password, ∀ b ∈ buffer, b = 0
  disconnected : Disconnected e.client
  left : e.session.isInChat = false

structure Call where
  sodium : Sodium
  disk : Disk
  stack : Stack
  terminal : Terminal
  env : Env
  username : Bytes

def Call.client (call : Call) (c : ClientState) : ClientState := { c with env := call.env }

def Call.perform (initialized : Bool) (call : Call) (c : ClientState) (session : ChatSession) :
    Ended :=
  startChat call.sodium initialized call.disk call.stack call.terminal (call.client c) session
    call.username

inductive Process
  | idle (c : ClientState) (session : ChatSession)
  | waiting

def Process.initial (user : Username) : Process :=
  .idle (ClientState.initial ⟨[], [], [], []⟩) ⟨user, Username.empty, Block.zero _, false⟩

def step (initialized : Bool) : Process → Call → Process
  | .waiting, _ => .waiting
  | .idle c session, call =>
    let e := call.perform initialized c session
    if e.result = none then .waiting else .idle e.client e.session

def LeavesClean (initialized : Bool) : Process → Call → Prop
  | .waiting, _ => True
  | .idle c session, call =>
    (call.perform initialized c session).result ≠ none → (call.perform initialized c session).Clean

structure Chats (c : ClientState) (session : ChatSession) (call : Call) (t : Terminal) : Prop where
  valid : validateUsername call.username = .success
  loaded : ∃ password,
    getPasswordInput passwordPrompt call.stack.password maxPasswordLen call.terminal =
      (some password, t) ∧
    (loadKeysFromFile call.sodium call.disk session.currentUser.bytes call.stack.publicKeyTemp
      SessionKeys.zero.privateKey (cString password)).result = .success
  connected : (connectToServer (call.client c)).1 = .success
  found : (getUserPublicKey (connectToServer (call.client c)).2 call.username).1.1 = .success

/-- The input does not end before `/exit` is read. -/
def ExitTyped (t : Terminal) : Prop :=
  t.closed = true → exitCommand ∈
    (Lines.pieces 0x0A chatRoom t.closed (t.typed.length + 1) t.typed).map cString

def LeavesByExit : Process → Call → Prop
  | .waiting, _ => True
  | .idle c session, call => ∀ t, Chats c session call t → ExitTyped t

variable {sodium : Sodium} {initialized : Bool} {c : ClientState} {session : ChatSession}
  {call : Call}

theorem secureZeroMemory_zero {buffer : Bytes} : ∀ b ∈ secureZeroMemory buffer, b = 0 :=
  fun _ hb ↦ List.eq_of_mem_replicate hb

inductive Opening (c : ClientState) (session : ChatSession) (call : Call) : Opened → Prop
  | waits (e : Ended) (h : e.result = none) (hnot : ∀ t, ¬ Chats c session call t) :
      Opening c session call (.returned e)
  | returns (e : Ended) (hkeys : e.sessionKeys = SessionKeys.zero)
      (hpassword : ∀ buffer ∈ e.password, ∀ b ∈ buffer, b = 0) (hclient : Disconnected e.client)
      (hsession : e.session = session) (hnot : ∀ t, ¬ Chats c session call t) :
      Opening c session call (.returned e)
  | chats (s : Chatting) (password : Bytes) (h : Chats c session call s.terminal)
      (hpassword : ∀ b ∈ password, b = 0) (hclient : OwnsSocket s.client)
      (hchat : s.session.isInChat = true) : Opening c session call (.chatting s password)

theorem openChat_opening (h : Disconnected c) :
    Opening c session call (openChat call.sodium call.disk call.stack call.terminal (call.client c)
      session call.username) := by
  have hclient : Disconnected (call.client c) := ⟨h.socket, h.connected, h.held⟩
  have hwiped : ∀ password : Bytes, ∀ buffer ∈ some (secureZeroMemory password),
      ∀ b ∈ buffer, b = 0 := by
    rintro password buffer hbuffer
    cases hbuffer
    exact secureZeroMemory_zero
  unfold openChat
  by_cases hvalid : validateUsername call.username ≠ .success
  · rw [if_pos hvalid]
    exact .returns _ rfl nofun hclient rfl fun t ht ↦ hvalid ht.valid
  rw [if_neg hvalid]
  dsimp only
  rcases hentered : getPasswordInput passwordPrompt call.stack.password maxPasswordLen
    call.terminal with ⟨buffer, t⟩
  dsimp only
  cases buffer with
  | none =>
    refine .waits _ rfl fun t' ht ↦ ?_
    obtain ⟨password, hpassword, _⟩ := ht.loaded
    rw [hentered] at hpassword
    cases hpassword
  | some password =>
    dsimp only
    by_cases hloaded : (loadKeysFromFile call.sodium call.disk session.currentUser.bytes
        call.stack.publicKeyTemp SessionKeys.zero.privateKey (cString password)).result ≠ .success
    · rw [if_pos hloaded]
      refine .returns _ rfl (hwiped password) hclient rfl fun t' ht ↦ ?_
      obtain ⟨password', hpassword, hok⟩ := ht.loaded
      rw [hentered] at hpassword
      cases hpassword
      exact hloaded hok
    rw [if_neg hloaded]
    obtain ⟨hok, howns⟩ | ⟨hfail, hdown⟩ := connectToServer_cases hclient
    · rw [if_neg (not_not.mpr hok)]
      have hsame := howns.of_same (getUserPublicKey_same _ call.username)
      by_cases hfound :
          (getUserPublicKey (connectToServer (call.client c)).2 call.username).1.1 ≠ .success
      · rw [if_pos hfound]
        exact .returns _ rfl (hwiped password) (disconnectFromServer_disconnected hsame) rfl
          fun t' ht ↦ hfound ht.found
      · rw [if_neg hfound]
        exact .chats _ _ ⟨not_not.mp hvalid, ⟨password, hentered, not_not.mp hloaded⟩, hok,
          not_not.mp hfound⟩ secureZeroMemory_zero hsame rfl
    · have hfails : (connectToServer (call.client c)).1 ≠ .success := by
        rw [hfail]
        decide
      rw [if_pos hfails]
      exact .returns _ rfl (hwiped password) hdown rfl fun t' ht ↦ hfails ht.connected

theorem chatLine_same (c : ClientState) (partner : Username) (message : Bytes)
    (keys : SessionKeys) :
    SameSockets c (chatLine sodium initialized c partner message keys).2 := by
  unfold chatLine sendMessageSecure
  dsimp only
  split_ifs
  · exact .refl c
  · exact .refl c
  · split
    · exact .refl c
    · exact sendMessageToServer_same c _ _
  · exact .refl c

/-- The socket of the chat stays the only one until it is closed. -/
theorem chatLoop_owns (k : ℕ) (s : Chatting) (h : s.session.isInChat = true)
    (howns : OwnsSocket s.client) :
    OwnsSocket (chatLoop sodium initialized k s).state.client := by
  induction k generalizing s with
  | zero => exact howns
  | succ k ih =>
    have hturned := @chatTurn_turned sodium initialized s h
    rw [chatLoop]
    generalize chatTurn sodium initialized s = turn at hturned ⊢
    cases hturned with
    | ended t => exact howns
    | waiting t => exact howns
    | exit t message =>
      exact (disconnectFromServer_disconnected howns).owns
    | line t message => exact ih _ h (howns.of_same (chatLine_same s.client _ _ _))

/-- Behind the loop everything is cleaned but `is_in_chat`, which `/exit` has reset. -/
theorem closeChat_clean_iff (s : Chatting) (h : s.session.isInChat = true)
    (howns : OwnsSocket s.client) {password : Bytes} (hpassword : ∀ b ∈ password, b = 0) :
    ((closeChat password (chatLoop sodium initialized (s.terminal.typed.length + 1) s)).result ≠
        none →
      (closeChat password (chatLoop sodium initialized (s.terminal.typed.length + 1) s)).Clean) ↔
    ExitTyped s.terminal := by
  have hstatus := (@chatLoop_heard sodium initialized (s.terminal.typed.length + 1) s h).2.1
  have hloop := @chatLoop_owns sodium initialized (s.terminal.typed.length + 1) s h howns
  have hend := heard_status s.terminal
  unfold ExitTyped
  rw [← heard_exited_iff]
  cases hturn : chatLoop sodium initialized (s.terminal.typed.length + 1) s with
  | next s' =>
    rw [hturn] at hstatus
    exact absurd hstatus.symm (heard_finishes s.terminal)
  | waiting s' =>
    rw [hturn] at hstatus
    refine iff_of_true (fun hsome ↦ absurd rfl hsome) (fun hclosed ↦ ?_)
    rw [hclosed, ← hstatus] at hend
    exact hend.elim (fun he ↦ Lines.Status.noConfusion he)
      (fun he ↦ Lines.Status.noConfusion he)
  | left s' =>
    rw [hturn] at hstatus hloop
    have hclean : (closeChat password (.left s')).Clean ↔ s'.session.isInChat = false :=
      ⟨fun hc ↦ hc.left, fun hleft ↦ ⟨rfl, by rintro _ ⟨⟩; exact hpassword,
        disconnectFromServer_disconnected hloop, hleft⟩⟩
    have hsome : (closeChat password (.left s')).result ≠ none := Option.some_ne_none _
    rw [hclean, ← hstatus, Turn.status]
    cases hleft : s'.session.isInChat with
    | false => exact iff_of_true (fun _ ↦ rfl) (fun _ ↦ rfl)
    | true =>
      refine iff_of_false (fun hc ↦ Bool.noConfusion (hc hsome)) (fun hc ↦ ?_)
      rw [← hstatus, Turn.status, hleft] at hend
      cases hclosed : s.terminal.closed with
      | true => exact Lines.Status.noConfusion (hc hclosed)
      | false =>
        rw [hclosed] at hend
        exact hend.elim (fun he ↦ Lines.Status.noConfusion he)
          (fun he ↦ Lines.Status.noConfusion he)

theorem leavesClean_iff (h : Disconnected c) (hleft : session.isInChat = false) :
    LeavesClean initialized (.idle c session) call ↔ LeavesByExit (.idle c session) call := by
  have hopening := @openChat_opening c session call h
  unfold LeavesClean LeavesByExit
  dsimp only
  cases hopened : openChat call.sodium call.disk call.stack call.terminal (call.client c) session
      call.username with
  | returned e =>
    have hperform : call.perform initialized c session = e := by
      rw [Call.perform, startChat, hopened]
    rw [hopened] at hopening
    rw [hperform]
    cases hopening with
    | waits _ hnone hnot =>
      exact iff_of_true (fun hsome ↦ absurd hnone hsome) (fun t ht ↦ absurd ht (hnot t))
    | returns _ hkeys hpassword hclient hsession hnot =>
      exact iff_of_true (fun _ ↦ ⟨hkeys, hpassword, hclient, by rw [hsession]; exact hleft⟩)
        (fun t ht ↦ absurd ht (hnot t))
  | chatting s password =>
    have hperform : call.perform initialized c session =
        closeChat password (chatLoop call.sodium initialized (s.terminal.typed.length + 1) s) := by
      rw [Call.perform, startChat, hopened]
    rw [hopened] at hopening
    rw [hperform]
    cases hopening with
    | chats _ _ hchats hpassword hclient hchat =>
      rw [closeChat_clean_iff s hchat hclient hpassword]
      refine ⟨fun hexit t ht ↦ ?_, fun hexit ↦ hexit s.terminal hchats⟩
      obtain ⟨_, hentered, _⟩ := ht.loaded
      obtain ⟨_, hentered', _⟩ := hchats.loaded
      rw [hentered] at hentered'
      obtain ⟨_, rfl⟩ := Prod.mk.inj hentered'
      exact hexit

def Process.Idle : Process → Prop
  | .waiting => True
  | .idle c session => Disconnected c ∧ session.isInChat = false

theorem step_idle {p : Process} (hclean : LeavesClean initialized p call) :
    (step initialized p call).Idle := by
  cases p with
  | waiting => trivial
  | idle c session =>
    unfold step
    dsimp only
    split
    · trivial
    next hsome =>
      have hended := hclean hsome
      exact ⟨hended.disconnected, hended.left⟩

/-- Every call that returns leaves a clean client exactly when every chat ends
by `/exit`. -/
theorem leaves_clean_iff (user : Username) (calls : List Call) :
    Runs.Along (step initialized) (LeavesClean initialized) (Process.initial user) calls ↔
      Runs.Along (step initialized) LeavesByExit (Process.initial user) calls := by
  have hinitial : (Process.initial user).Idle := ⟨⟨rfl, rfl, rfl⟩, rfl⟩
  refine Runs.along_iff (Q := Process.Idle) ?_ (fun p call _ hclean ↦ step_idle hclean) hinitial
    calls
  intro p call hidle
  cases p with
  | waiting => exact Iff.rfl
  | idle c session => exact leavesClean_iff hidle.1 hidle.2

def keysDisk : Disk := { emptyDisk with files := fun _ ↦ some (List.replicate 120 0) }

def foundAnswer : Bytes := packet 0x83 (1 :: List.replicate 32 0)

def emptyStack : Stack := ⟨List.replicate maxPasswordLen 0xCC, Block.zero _, []⟩

def chatWithBob (typed : Bytes) : Call where
  sodium := plainSodium
  disk := keysDisk
  stack := emptyStack
  terminal := ⟨text "pw\n" ++ typed, true, []⟩
  env := ⟨[], [], [some fun _ ↦ foundAnswer], []⟩
  username := text "bob"

/-- The input ends without `/exit`, and the client stays in the chat. -/
theorem input_ends_in_chat :
    ¬ Runs.Along (step true) (LeavesClean true) (Process.initial alice)
      [chatWithBob (text "hi\n")] := by
  intro hclean
  have hreturned : ((chatWithBob (text "hi\n")).perform true (ClientState.initial ⟨[], [], [], []⟩)
      ⟨alice, Username.empty, Block.zero _, false⟩).result = some .success := by decide +kernel
  have hchat : ((chatWithBob (text "hi\n")).perform true (ClientState.initial ⟨[], [], [], []⟩)
      ⟨alice, Username.empty, Block.zero _, false⟩).session.isInChat = true := by decide +kernel
  have hleft := (hclean.1 (by rw [hreturned]; exact Option.some_ne_none _)).left
  rw [hchat] at hleft
  cases hleft

end CChat.Client.Sessions
