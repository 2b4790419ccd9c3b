import CChat.Library.Lines
import CChat.Client.Chat
import CChat.Client.Registration

namespace CChat.Client.ChatLoop

open CChat.Library CChat.Protocol.Types Network Crypto Chat Registration

/-- `current_session`, as far as `start_chat` uses it. -/
structure ChatSession where
  currentUser : Username
  chatPartner : Username
  partnerPublicKey : Key
  isInChat : Bool

def SessionKeys.zero : SessionKeys := ⟨Block.zero _, Block.zero _, false⟩

def exitCommand : Bytes := text "/exit"

/-- What the chat loop of `start_chat` works on. `passed` holds the messages it
gave to `send_message_secure`. -/
structure Chatting where
  terminal : Terminal
  client : ClientState
  session : ChatSession
  sessionKeys : SessionKeys
  message : Bytes
  passed : List Bytes

inductive Turn
  | next (s : Chatting)
  | left (s : Chatting)
  | waiting (s : Chatting)

def partnerPrompt (partner : Username) : String :=
  String.ofList (partner.bytes.map fun b ↦ Char.ofNat b.toNat) ++ "> "

def chatTurn (sodium : Sodium) (initialized : Bool) (s : Chatting) : Turn :=
  if !s.session.isInChat then .left s
  else
    let shown := { s.terminal with
      prompts := s.terminal.prompts ++ [partnerPrompt s.session.chatPartner] }
    match fgets maxMessageLen s.message shown with
    | .endOfFile => .left { s with terminal := shown }
    | .blocked => .waiting { s with terminal := shown }
    | .taken buffer t =>
      let message := buffer.set (strcspnNewline buffer) 0
      if cString message = exitCommand then
        .left { s with
          terminal := t
          client := (disconnectFromServer s.client).2
          session := { s.session with isInChat := false }
          sessionKeys := SessionKeys.zero
          message := message }
      else
        let line := chatLine sodium initialized s.client s.session.chatPartner (cString message)
          s.sessionKeys
        .next { s with
          terminal := t
          client := line.2
          message := message
          passed := if (cString message).length > 0 then s.passed ++ [cString message]
            else s.passed }

def chatLoop (sodium : Sodium) (initialized : Bool) : ℕ → Chatting → Turn
  | 0, s => .next s
  | n + 1, s =>
    match chatTurn sodium initialized s with
    | .next s' => chatLoop sodium initialized n s'
    | .left s' => .left s'
    | .waiting s' => .waiting s'

def Turn.state : Turn → Chatting
  | .next s => s
  | .left s => s
  | .waiting s => s

/-- `/exit` and the end of the input leave the loop, and the first of them says
so in `is_in_chat`. -/
def Turn.status : Turn → Lines.Status
  | .next _ => .reading
  | .left s => if s.session.isInChat then .ended else .exited
  | .waiting _ => .waiting

/-- The lines that are typed before the first `/exit`, and what comes then. -/
def said (t : Terminal) : Lines.Outcome UInt8 :=
  Lines.spoken 0x0A exitCommand t.closed (Lines.split 0x0A t.typed).1 (Lines.split 0x0A t.typed).2

/-- Each line is one message, and the session ends where the lines say. -/
structure LineByLine (said : Lines.Outcome UInt8) (r : Turn) : Prop where
  passes : Lines.Passes (maxMessageLen - 1) said.lines r.state.passed
  status : r.status = said.status
  rest : r.state.terminal.typed = said.rest

variable {sodium : Sodium} {initialized : Bool}

abbrev chatRoom : ℕ := maxMessageLen - 1

def Chatting.Readable (s : Chatting) : Prop :=
  Lines.Readable 0x0A chatRoom s.terminal.closed s.terminal.typed

def Chatting.line (s : Chatting) : Bytes := cString (Lines.piece 0x0A chatRoom s.terminal.typed)

def Chatting.behind (s : Chatting) : Bytes := Lines.behind 0x0A chatRoom s.terminal.typed

variable {s : Chatting}

/-- What one turn of the loop does: it stops for want of input, leaves at
`/exit`, or hands a line on that is not blank. -/
inductive Turned (sodium : Sodium) (initialized : Bool) (s : Chatting) : Turn → Prop
  | ended (t : Terminal) (h : ¬ s.Readable) (hclosed : s.terminal.closed = true)
      (ht : t.typed = s.terminal.typed) :
      Turned sodium initialized s (.left { s with terminal := t })
  | waiting (t : Terminal) (h : ¬ s.Readable) (hclosed : s.terminal.closed = false)
      (ht : t.typed = s.terminal.typed) :
      Turned sodium initialized s (.waiting { s with terminal := t })
  | exit (t : Terminal) (message : Bytes) (h : s.Readable) (he : s.line = exitCommand)
      (ht : t.typed = s.behind) :
      Turned sodium initialized s (.left { s with
        terminal := t
        client := (disconnectFromServer s.client).2
        session := { s.session with isInChat := false }
        sessionKeys := SessionKeys.zero
        message := message })
  | line (t : Terminal) (message : Bytes) (h : s.Readable) (he : s.line ≠ exitCommand)
      (ht : t.typed = s.behind) (hclosed : t.closed = s.terminal.closed) :
      Turned sodium initialized s (.next { s with
        terminal := t
        client := (chatLine sodium initialized s.client s.session.chatPartner s.line
          s.sessionKeys).2
        message := message
        passed := s.passed ++ Lines.nonblank [s.line] })

theorem chatTurn_turned (h : s.session.isInChat = true) :
    Turned sodium initialized s (chatTurn sodium initialized s) := by
  unfold chatTurn
  rw [h, Bool.not_true, if_neg (by decide)]
  dsimp only
  generalize hshown : ({ s.terminal with
    prompts := s.terminal.prompts ++ [partnerPrompt s.session.chatPartner] } : Terminal) = shown
  have htyped : shown.typed = s.terminal.typed := by rw [← hshown]
  have hclosed : shown.closed = s.terminal.closed := by rw [← hshown]
  by_cases hread : s.Readable
  · have hread' : Lines.Readable 0x0A chatRoom shown.closed shown.typed := by
      rw [htyped, hclosed]
      exact hread
    obtain ⟨buffer', htaken, hcut⟩ := fgets_readable hread' s.message
    have htaken' : fgets maxMessageLen s.message shown = _ := htaken
    have hline : cString (buffer'.set (strcspnNewline buffer') 0) = s.line := by
      rw [hcut, htyped]
      rfl
    rw [htaken']
    dsimp only
    rw [hline]
    by_cases he : s.line = exitCommand
    · rw [if_pos he]
      exact .exit _ _ hread he (congrArg (Lines.behind 0x0A chatRoom) htyped)
    · have hpassed : (if s.line.length > 0 then s.passed ++ [s.line] else s.passed) =
          s.passed ++ Lines.nonblank [s.line] := by
        by_cases hblank : s.line = []
        · rw [hblank, Lines.nonblank_blank]
          simp [Lines.nonblank]
        · rw [Lines.nonblank_cons hblank, if_pos (List.length_pos_iff.mpr hblank)]
          rfl
      rw [if_neg he, hpassed]
      exact .line _ _ hread he (congrArg (Lines.behind 0x0A chatRoom) htyped) hclosed
  · have hunread : fgets maxMessageLen s.message shown =
        if shown.closed then .endOfFile else .blocked := by
      refine fgets_unreadable ?_ s.message
      rw [htyped, hclosed]
      exact hread
    rw [hunread, hclosed]
    cases hend : s.terminal.closed with
    | true => exact .ended shown hread hend htyped
    | false => exact .waiting shown hread hend htyped

def heard (k : ℕ) (t : Terminal) : Lines.Outcome UInt8 :=
  Lines.converse 0x0A chatRoom cString exitCommand t.closed k t.typed

theorem heard_finishes (t : Terminal) : (heard (t.typed.length + 1) t).status ≠ .reading :=
  Lines.converse_finishes (by decide) _ _ (Nat.lt_succ_self _)

theorem heard_status (t : Terminal) :
    (heard (t.typed.length + 1) t).status = .exited ∨
      (heard (t.typed.length + 1) t).status = if t.closed then .ended else .waiting :=
  (Lines.converse_status _ t.typed).imp_right fun h ↦ h.resolve_left (heard_finishes t)

theorem heard_exited_iff (k : ℕ) (t : Terminal) :
    (heard k t).status = .exited ↔
      exitCommand ∈ (Lines.pieces 0x0A chatRoom t.closed k t.typed).map cString :=
  Lines.converse_exited_iff k t.typed

/-- The loop hands on what it hears and ends as the hearing does. -/
theorem chatLoop_heard (k : ℕ) (s : Chatting) (h : s.session.isInChat = true) :
    (chatLoop sodium initialized k s).state.passed =
        s.passed ++ Lines.nonblank (heard k s.terminal).lines ∧
      (chatLoop sodium initialized k s).status = (heard k s.terminal).status ∧
      (chatLoop sodium initialized k s).state.terminal.typed = (heard k s.terminal).rest := by
  induction k generalizing s with
  | zero => exact ⟨(List.append_nil _).symm, rfl, rfl⟩
  | succ k ih =>
    have hturned := @chatTurn_turned sodium initialized s h
    rw [chatLoop]
    generalize chatTurn sodium initialized s = turn at hturned ⊢
    cases hturned with
    | ended t hread hclosed ht =>
      rw [heard, Lines.converse_end hread, hclosed]
      exact ⟨(List.append_nil _).symm, by rw [Turn.status, if_pos h]; rfl, ht⟩
    | waiting t hread hclosed ht =>
      rw [heard, Lines.converse_end hread, hclosed]
      exact ⟨(List.append_nil _).symm, rfl, ht⟩
    | exit t message hread he ht =>
      rw [heard, Lines.converse_exit hread he]
      exact ⟨(List.append_nil _).symm, rfl, ht⟩
    | line t message hread he ht hclosed =>
      rw [heard, Lines.converse_next hread he]
      obtain ⟨hpassed, hstatus, hrest⟩ := ih { s with
        terminal := t
        client := (chatLine sodium initialized s.client s.session.chatPartner s.line
          s.sessionKeys).2
        message := message
        passed := s.passed ++ Lines.nonblank [s.line] } h
      rw [heard, ht, hclosed] at hpassed hstatus hrest
      refine ⟨?_, hstatus, hrest⟩
      rw [hpassed, List.append_assoc, ← Lines.nonblank_first]
      rfl

theorem lineByLine_iff_agrees (s : Chatting) (hchat : s.session.isInChat = true)
    (hstart : s.passed = []) (hnul : 0 ∉ s.terminal.typed) (k : ℕ) :
    LineByLine (said s.terminal) (chatLoop sodium initialized k s) ↔
      Lines.Agrees chatRoom (said s.terminal)
        (Lines.converse 0x0A chatRoom id exitCommand s.terminal.closed k s.terminal.typed) := by
  obtain ⟨hpassed, hstatus, hrest⟩ := @chatLoop_heard sodium initialized k s hchat
  have hheard : heard k s.terminal =
      Lines.converse 0x0A chatRoom id exitCommand s.terminal.closed k s.terminal.typed :=
    Lines.converse_view (fun l hl ↦ cString_plain (fun h ↦ hnul (hl h))) k
  rw [hstart, List.nil_append, hheard] at hpassed
  rw [hheard] at hstatus hrest
  constructor
  · rintro ⟨hpasses, hstatus', hrest'⟩
    exact ⟨hpassed ▸ hpasses, hstatus ▸ hstatus', hrest ▸ hrest'⟩
  · rintro ⟨hpasses, hstatus', hrest'⟩
    exact ⟨hpassed ▸ hpasses, hstatus ▸ hstatus', hrest ▸ hrest'⟩

/-- What was typed is handed on line by line exactly when no line before the
exit is longer than what one `fgets` takes. -/
theorem line_by_line_iff (s : Chatting) (hchat : s.session.isInChat = true) (hstart : s.passed = [])
    (hnul : 0 ∉ s.terminal.typed) (k : ℕ) (hk : s.terminal.typed.length < k) :
    LineByLine (said s.terminal) (chatLoop sodium initialized k s) ↔
      (said s.terminal).Fits (maxMessageLen - 1) := by
  rw [lineByLine_iff_agrees s hchat hstart hnul k]
  exact Lines.agrees_iff (by decide) (by decide) hk

def alice : Username := ⟨text "alice", by decide, by decide⟩

def chattingWith (typed : Bytes) : Chatting :=
  ⟨⟨typed, true, []⟩, lost, ⟨alice, bob, Block.zero _, true⟩, loadedKeys, [], []⟩

theorem line_by_line_hi :
    (0 ∉ text "hi\n/exit\n" ∧ (text "hi\n/exit\n").length < 10) ∧
      (LineByLine (said (chattingWith (text "hi\n/exit\n")).terminal)
          (chatLoop plainSodium true 10 (chattingWith (text "hi\n/exit\n"))) ↔
        (said (chattingWith (text "hi\n/exit\n")).terminal).Fits (maxMessageLen - 1)) :=
  ⟨by decide, line_by_line_iff (chattingWith (text "hi\n/exit\n")) rfl rfl (by decide) 10
    (by decide)⟩

def longLine : Bytes := List.replicate 1023 0x61 ++ exitCommand

theorem long_line_exits :
    (said (chattingWith (longLine ++ [0x0A])).terminal).status = .ended ∧
      (chatLoop plainSodium true 1030 (chattingWith (longLine ++ [0x0A]))).status = .exited ∧
      ¬ LineByLine (said (chattingWith (longLine ++ [0x0A])).terminal)
        (chatLoop plainSodium true 1030 (chattingWith (longLine ++ [0x0A]))) := by
  have hsaid : (said (chattingWith (longLine ++ [0x0A])).terminal).status = .ended := by
    decide +kernel
  have hleft : (chatLoop plainSodium true 1030 (chattingWith (longLine ++ [0x0A]))).status =
      .exited := by
    decide +kernel
  refine ⟨hsaid, hleft, fun h ↦ ?_⟩
  have hstatus := h.status
  rw [hsaid, hleft] at hstatus
  cases hstatus

end CChat.Client.ChatLoop
