import CChat.Library.Words
import CChat.Client.Sessions

namespace CChat.Client.Prompt

open CChat.Library CChat.Protocol.Types Network Crypto KeyFiles Registration ChatLoop Sessions

abbrev maxCommandLen : ℕ := 64

def isSpace (c : UInt8) : Bool := c == 0x20 || (0x09 ≤ c && c ≤ 0x0D)

/-- What `run_chat_interface` works on. `started` holds the arguments it called
`start_chat` with; it waits in a read of its own or of `start_chat`. -/
structure Interface where
  terminal : Terminal
  client : ClientState
  session : ChatSession
  input : Bytes
  command : Region
  targetUser : Region
  running : Bool
  waiting : Bool
  started : List Bytes

/-- What a call of `start_chat` meets with. -/
structure Surroundings where
  sodium : Sodium
  disk : Disk
  stack : Stack
  env : Env

/-- `sscanf` of a string with `"%s %s"`: how many words it stored, or `-1` when
there was none. -/
def scanWords (input : Bytes) (command targetUser : Region) : ℤ × Region × Region :=
  let first := Words.nextWord isSpace input
  if first.1 = [] then (-1, command, targetUser)
  else
    let second := Words.nextWord isSpace first.2
    if second.1 = [] then (1, command.store 0 (first.1 ++ [0]), targetUser)
    else (2, command.store 0 (first.1 ++ [0]), targetUser.store 0 (second.1 ++ [0]))

inductive Prompted
  | left (s : Interface)
  | waiting (s : Interface)
  | scanned (count : ℤ) (s : Interface)

def readCommand (s : Interface) : Prompted :=
  let shown := { s.terminal with prompts := s.terminal.prompts ++ ["c-chat> "] }
  match fgets maxMessageLen s.input shown with
  | .endOfFile => .left { s with terminal := shown, running := false }
  | .blocked => .waiting { s with terminal := shown, waiting := true }
  | .taken buffer t =>
    let input := buffer.set (strcspnNewline buffer) 0
    let scanned := scanWords (cString input) s.command s.targetUser
    .scanned scanned.1 { s with
      terminal := t
      input := input
      command := scanned.2.1
      targetUser := scanned.2.2 }

def runCommand (initialized : Bool) (s : Interface) (x : Surroundings) : Interface :=
  if cString s.command.stored = text "/quit" then { s with running := false }
  else if cString s.command.stored = text "chat" then
    if (cString s.targetUser.stored).length > 0 then
      let e := startChat x.sodium initialized x.disk x.stack s.terminal
        { s.client with env := x.env } s.session (cString s.targetUser.stored)
      { s with
        terminal := e.terminal
        client := e.client
        session := e.session
        waiting := e.result.isNone
        started := s.started ++ [cString s.targetUser.stored] }
    else s
  else s

def turn (initialized : Bool) (s : Interface) (x : Surroundings) : Interface :=
  if !s.running || s.waiting then s
  else
    match readCommand s with
    | .left s' => s'
    | .waiting s' => s'
    | .scanned count s' => if count ≥ 1 then runCommand initialized s' x else s'

def Interface.initial (t : Terminal) (user : Username) (input : Bytes)
    (command : Block maxCommandLen) (targetUser : Block maxUsernameLen) : Interface where
  terminal := t
  client := ClientState.initial ⟨[], [], [], []⟩
  session := ⟨user, Username.empty, Block.zero _, false⟩
  input := input
  command := ⟨maxCommandLen, command.toList⟩
  targetUser := ⟨maxUsernameLen, targetUser.toList⟩
  running := true
  waiting := false
  started := []

def lineWords (line : Bytes) : List Bytes := Words.words isSpace (cString line)

def asksFor (line : Bytes) : List Bytes :=
  match lineWords line with
  | command :: target :: _ => if command = text "chat" then [target] else []
  | _ => []

def Interface.first (s : Interface) : Option (Bytes × Bytes) :=
  Lines.first 0x0A s.terminal.closed s.terminal.typed

def Interface.Prompts (s : Interface) : Prop := s.running = true ∧ s.waiting = false

/-- A turn takes the line in front of it, but for its newline perhaps, or
nothing when there is no line. -/
def TakesLine (s : Interface) : Prop :=
  match s.first with
  | some (_, rest) => ∃ count s', readCommand s = .scanned count s' ∧
      (s'.terminal.typed = rest ∨ s'.terminal.typed = 0x0A :: rest)
  | none => ∀ count s', readCommand s ≠ .scanned count s'

structure Right (initialized : Bool) (s : Interface) (x : Surroundings) : Prop where
  started : (turn initialized s x).started = s.started ++ (s.first.elim [] fun l ↦ asksFor l.1)
  command : (turn initialized s x).command.Inside
  targetUser : (turn initialized s x).targetUser.Inside
  line : TakesLine s

/-- The line fits into the input, its words into their arrays, and it is not
`chat` alone while a name is left in `target_user`. -/
structure Plain (s : Interface) (line : Bytes) : Prop where
  fits : line.length ≤ chatRoom
  command : ∀ w ∈ (lineWords line)[0]?, w.length < maxCommandLen
  targetUser : ∀ w ∈ (lineWords line)[1]?, w.length < maxUsernameLen
  alone : lineWords line = [text "chat"] → cString s.targetUser.stored = []

def Orderly (s : Interface) : Prop :=
  match s.first with
  | some (line, _) => Plain s line
  | none => s.terminal.typed.length < chatRoom

def RightTurn (initialized : Bool) (s : Interface) (x : Surroundings) : Prop :=
  s.Prompts → Right initialized s x

def OrderlyTurn (s : Interface) (_ : Surroundings) : Prop := s.Prompts → Orderly s

structure Interface.Fit (s : Interface) : Prop where
  commandSize : s.command.size = maxCommandLen
  targetUserSize : s.targetUser.size = maxUsernameLen
  command : s.command.Inside
  targetUser : s.targetUser.Inside

variable {initialized : Bool} {s : Interface} {x : Surroundings}

def stored (r : Region) (word : Option Bytes) : Region :=
  word.elim r fun w ↦ r.store 0 (w ++ [0])

@[simp] theorem stored_none (r : Region) : stored r none = r := rfl

@[simp] theorem stored_some (r : Region) (w : Bytes) :
    stored r (some w) = r.store 0 (w ++ [0]) := rfl

theorem stored_size (r : Region) (word : Option Bytes) : (stored r word).size = r.size := by
  cases word <;> rfl

theorem stored_inside_iff {r : Region} (h : r.Inside) (word : Option Bytes) :
    (stored r word).Inside ↔ ∀ w ∈ word, w.length < r.size := by
  unfold Region.Inside at h ⊢
  cases word with
  | none => simpa using h
  | some w =>
    simp only [stored_some, Region.store, List.take_zero, List.nil_append, Nat.zero_add,
      List.length_append, List.length_singleton, List.length_drop, Option.mem_some_iff, forall_eq']
    omega

theorem cString_stored {w : Bytes} (h : 0 ∉ w) (r : Region) :
    cString (stored r (some w)).stored = w := by
  rw [stored_some, Region.store, List.take_zero, List.nil_append, List.append_assoc,
    List.singleton_append]
  exact cString_stop h

theorem scanWords_eq (input : Bytes) (command targetUser : Region) :
    scanWords input command targetUser =
      (if Words.words isSpace input = [] then -1
        else if (Words.words isSpace input).length = 1 then 1 else 2,
        stored command (Words.words isSpace input)[0]?,
        stored targetUser (Words.words isSpace input)[1]?) := by
  unfold scanWords
  dsimp only
  rw [Words.words_next input]
  split
  · simp
  · rw [Words.words_next (Words.nextWord isSpace input).2]
    split
    · simp
    · simp

theorem lineWords_no_nul {line w : Bytes} (h : w ∈ lineWords line) : 0 ∉ w :=
  fun hnul ↦ cString_no_nul line ((Words.mem_words h).1 hnul)

theorem readCommand_scanned
    (hread : Lines.Readable 0x0A chatRoom s.terminal.closed s.terminal.typed) :
    ∃ (count : ℤ) (s' : Interface), readCommand s = .scanned count s' ∧
      (1 ≤ count ↔ lineWords (Lines.piece 0x0A chatRoom s.terminal.typed) ≠ []) ∧
      s'.terminal.typed = Lines.behind 0x0A chatRoom s.terminal.typed ∧
      s'.started = s.started ∧
      s'.command =
        stored s.command (lineWords (Lines.piece 0x0A chatRoom s.terminal.typed))[0]? ∧
      s'.targetUser =
        stored s.targetUser (lineWords (Lines.piece 0x0A chatRoom s.terminal.typed))[1]? := by
  unfold readCommand
  dsimp only
  generalize hshown : ({ s.terminal with
    prompts := s.terminal.prompts ++ ["c-chat> "] } : Terminal) = shown
  have htyped : shown.typed = s.terminal.typed := by rw [← hshown]
  have hclosed : shown.closed = s.terminal.closed := by rw [← hshown]
  obtain ⟨buffer', htaken, hcut⟩ := fgets_readable (by rw [htyped, hclosed]; exact hread) s.input
  have htaken' : fgets maxMessageLen s.input shown = _ := htaken
  have hwords : Words.words isSpace (cString (Lines.piece 0x0A chatRoom s.terminal.typed)) =
      lineWords (Lines.piece 0x0A chatRoom s.terminal.typed) := rfl
  rw [htaken']
  dsimp only
  rw [hcut, htyped, scanWords_eq, hwords]
  refine ⟨_, _, rfl, ?_, rfl, rfl, rfl, rfl⟩
  dsimp only
  split
  next hnone => exact iff_of_false (by decide) (not_not.mpr hnone)
  next hsome =>
    refine iff_of_true ?_ hsome
    split
    · decide
    · decide

theorem readCommand_unread
    (hread : ¬ Lines.Readable 0x0A chatRoom s.terminal.closed s.terminal.typed) :
    ∃ s', (readCommand s = .left s' ∨ readCommand s = .waiting s') ∧ s'.started = s.started ∧
      s'.command = s.command ∧ s'.targetUser = s.targetUser := by
  unfold readCommand
  dsimp only
  generalize hshown : ({ s.terminal with
    prompts := s.terminal.prompts ++ ["c-chat> "] } : Terminal) = shown
  have htyped : shown.typed = s.terminal.typed := by rw [← hshown]
  have hclosed : shown.closed = s.terminal.closed := by rw [← hshown]
  have hunread : fgets maxMessageLen s.input shown =
      if shown.closed then .endOfFile else .blocked :=
    fgets_unreadable (by rw [htyped, hclosed]; exact hread) s.input
  rw [hunread]
  cases shown.closed with
  | true => exact ⟨_, .inl rfl, rfl, rfl, rfl⟩
  | false => exact ⟨_, .inr rfl, rfl, rfl, rfl⟩

/-- The call of `start_chat` a command makes is for the name in `target_user`. -/
theorem runCommand_spec (initialized : Bool) (s : Interface) (x : Surroundings) :
    (runCommand initialized s x).started = s.started ++
        (if cString s.command.stored = text "chat" ∧ cString s.targetUser.stored ≠ [] then
          [cString s.targetUser.stored] else []) ∧
      (runCommand initialized s x).command = s.command ∧
      (runCommand initialized s x).targetUser = s.targetUser := by
  have hquit : text "/quit" ≠ text "chat" := by decide
  unfold runCommand
  by_cases hq : cString s.command.stored = text "/quit"
  · rw [if_pos hq, hq, if_neg (fun h ↦ hquit h.1)]
    exact ⟨(List.append_nil _).symm, rfl, rfl⟩
  rw [if_neg hq]
  by_cases hc : cString s.command.stored = text "chat"
  · rw [if_pos hc]
    by_cases ht : cString s.targetUser.stored = []
    · rw [ht, if_neg (by decide), if_neg (fun h ↦ h.2 rfl)]
      exact ⟨(List.append_nil _).symm, rfl, rfl⟩
    · rw [if_pos (List.length_pos_iff.mpr ht), if_pos ⟨hc, ht⟩]
      exact ⟨rfl, rfl, rfl⟩
  · rw [if_neg hc, if_neg (fun h ↦ hc h.1)]
    exact ⟨(List.append_nil _).symm, rfl, rfl⟩

def callsFor (words : List Bytes) (left : Bytes) : List Bytes :=
  match words with
  | [] => []
  | [command] => if command = text "chat" ∧ left ≠ [] then [left] else []
  | command :: target :: _ => if command = text "chat" then [target] else []

theorem turn_scanned (hp : s.Prompts)
    (hread : Lines.Readable 0x0A chatRoom s.terminal.closed s.terminal.typed) :
    (turn initialized s x).started = s.started ++
        callsFor (lineWords (Lines.piece 0x0A chatRoom s.terminal.typed))
          (cString s.targetUser.stored) ∧
      (turn initialized s x).command =
        stored s.command (lineWords (Lines.piece 0x0A chatRoom s.terminal.typed))[0]? ∧
      (turn initialized s x).targetUser =
        stored s.targetUser (lineWords (Lines.piece 0x0A chatRoom s.terminal.typed))[1]? := by
  obtain ⟨count, s', hscanned, hcount, _, hstarted, hcommand, htarget⟩ := readCommand_scanned hread
  obtain ⟨hrun, hruncommand, hruntarget⟩ := runCommand_spec initialized s' x
  have hplain : ∀ w ∈ lineWords (Lines.piece 0x0A chatRoom s.terminal.typed), 0 ∉ w ∧ w ≠ [] :=
    fun w hw ↦ ⟨lineWords_no_nul hw, (Words.mem_words hw).2⟩
  unfold turn
  rw [hp.1, hp.2, if_neg (by decide), hscanned]
  dsimp only
  rw [hstarted] at hrun
  generalize lineWords (Lines.piece 0x0A chatRoom s.terminal.typed) = words at *
  match words with
  | [] =>
    rw [if_neg (fun h ↦ hcount.mp h rfl)]
    exact ⟨by rw [hstarted]; exact (List.append_nil _).symm, hcommand, htarget⟩
  | [command] =>
    have hc : cString s'.command.stored = command := by
      rw [hcommand]
      exact cString_stored (hplain command List.mem_cons_self).1 s.command
    have ht : s'.targetUser = s.targetUser := htarget
    rw [hc, ht] at hrun
    rw [if_pos (hcount.mpr (List.cons_ne_nil _ _)), hrun, hruncommand, hruntarget]
    exact ⟨rfl, hcommand, htarget⟩
  | command :: target :: rest =>
    have htargetword := hplain target (List.mem_cons_of_mem _ List.mem_cons_self)
    have hc : cString s'.command.stored = command := by
      rw [hcommand]
      exact cString_stored (hplain command List.mem_cons_self).1 s.command
    have ht : cString s'.targetUser.stored = target := by
      rw [htarget]
      exact cString_stored htargetword.1 s.targetUser
    rw [hc, ht] at hrun
    rw [if_pos (hcount.mpr (List.cons_ne_nil _ _)), hrun, hruncommand, hruntarget]
    refine ⟨?_, hcommand, htarget⟩
    simp [callsFor, htargetword.2]

theorem turn_unread (hp : s.Prompts)
    (hread : ¬ Lines.Readable 0x0A chatRoom s.terminal.closed s.terminal.typed) :
    (turn initialized s x).started = s.started ∧ (turn initialized s x).command = s.command ∧
      (turn initialized s x).targetUser = s.targetUser := by
  obtain ⟨s', hleft | hwaiting, hsame⟩ := readCommand_unread hread
  · rw [turn, hp.1, hp.2, if_neg (by decide), hleft]
    exact hsame
  · rw [turn, hp.1, hp.2, if_neg (by decide), hwaiting]
    exact hsame

/-- A name that is left over makes a difference for `chat` alone. -/
theorem callsFor_iff (line left : Bytes) :
    callsFor (lineWords line) left = asksFor line ↔
      (lineWords line = [text "chat"] → left = []) := by
  unfold asksFor
  match lineWords line with
  | [] => exact iff_of_true rfl nofun
  | [command] =>
    simp only [callsFor, List.cons.injEq, and_true]
    by_cases hc : command = text "chat"
    · by_cases hleft : left = []
      · simp [hleft]
      · simp [hc, hleft]
    · simp [hc]
  | command :: target :: rest =>
    refine iff_of_true rfl (fun h ↦ ?_)
    simp at h

/-- With a first line that can be read whole the turn is right exactly when
the line is plain. -/
theorem right_iff_plain (hfit : s.Fit) (hp : s.Prompts) {line rest : Bytes}
    (hfirst : s.first = some (line, rest)) (hline : line.length ≤ chatRoom) :
    Right initialized s x ↔ Plain s line := by
  obtain ⟨hread, hpiece, hbehind⟩ := Lines.read_first hfirst hline (by decide)
  obtain ⟨hstarted, hcommand, htarget⟩ := @turn_scanned initialized s x hp hread
  obtain ⟨count, s', hscanned, _, htyped, _⟩ := readCommand_scanned hread
  have htakes : TakesLine s := by
    rw [TakesLine, hfirst]
    exact ⟨count, s', hscanned, by rw [htyped]; exact hbehind⟩
  rw [hpiece] at hstarted hcommand htarget
  have hcalls := callsFor_iff line (cString s.targetUser.stored)
  have hcommandInside := stored_inside_iff hfit.command (lineWords line)[0]?
  have htargetInside := stored_inside_iff hfit.targetUser (lineWords line)[1]?
  rw [← hcommand, hfit.commandSize] at hcommandInside
  rw [← htarget, hfit.targetUserSize] at htargetInside
  constructor
  · rintro ⟨hright, hinside, hinside', _⟩
    rw [hstarted, hfirst] at hright
    exact ⟨hline, hcommandInside.mp hinside, htargetInside.mp hinside',
      hcalls.mp (List.append_cancel_left hright)⟩
  · rintro ⟨_, hshort, hshort', halone⟩
    refine ⟨?_, hcommandInside.mpr hshort, htargetInside.mpr hshort', htakes⟩
    rw [hstarted, hfirst, hcalls.mpr halone]
    rfl

theorem right_iff (hfit : s.Fit) (hp : s.Prompts) : Right initialized s x ↔ Orderly s := by
  unfold Orderly
  cases hfirst : s.first with
  | some first =>
    obtain ⟨line, rest⟩ := first
    by_cases hline : line.length ≤ chatRoom
    · exact right_iff_plain hfit hp hfirst hline
    · refine iff_of_false (fun hright ↦ ?_) (fun hplain ↦ hline hplain.fits)
      have htakes := hright.line
      rw [TakesLine, hfirst] at htakes
      obtain ⟨count, s', hscanned, hrest⟩ := htakes
      have hlong := Lines.read_first_long hfirst (Nat.lt_of_not_le hline)
      by_cases hread : Lines.Readable 0x0A chatRoom s.terminal.closed s.terminal.typed
      · obtain ⟨_, _, hscanned', _, htyped, _⟩ := readCommand_scanned hread
        rw [hscanned] at hscanned'
        obtain ⟨rfl, rfl⟩ := Prompted.scanned.inj hscanned'
        rw [htyped] at hrest
        exact hrest.elim hlong.1 hlong.2
      · obtain ⟨_, hleft | hwaiting, _⟩ := readCommand_unread hread
        · rw [hleft] at hscanned
          cases hscanned
        · rw [hwaiting] at hscanned
          cases hscanned
  | none =>
    have hreadable := Lines.readable_without_first (n := chatRoom) hfirst
    dsimp only
    rw [← Nat.not_le, ← hreadable]
    constructor
    · intro hright hread
      have htakes := hright.line
      rw [TakesLine, hfirst] at htakes
      obtain ⟨count, s', hscanned, _⟩ := readCommand_scanned hread
      exact htakes count s' hscanned
    · intro hread
      obtain ⟨hstarted, hcommand, htarget⟩ := @turn_unread initialized s x hp hread
      obtain ⟨_, hleft, _⟩ := readCommand_unread hread
      refine ⟨?_, hcommand ▸ hfit.command, htarget ▸ hfit.targetUser, ?_⟩
      · rw [hstarted, hfirst]
        exact (List.append_nil _).symm
      · rw [TakesLine, hfirst]
        rintro count s' hscanned
        rw [hscanned] at hleft
        exact hleft.elim nofun nofun

theorem turn_fit (hfit : s.Fit) (hright : RightTurn initialized s x) :
    (turn initialized s x).Fit := by
  by_cases hp : s.Prompts
  · obtain ⟨_, hcommand, htarget, _⟩ := hright hp
    by_cases hread : Lines.Readable 0x0A chatRoom s.terminal.closed s.terminal.typed
    · obtain ⟨_, hcommand', htarget'⟩ := @turn_scanned initialized s x hp hread
      refine ⟨?_, ?_, hcommand, htarget⟩
      · rw [hcommand', stored_size, hfit.commandSize]
      · rw [htarget', stored_size, hfit.targetUserSize]
    · obtain ⟨_, hcommand', htarget'⟩ := @turn_unread initialized s x hp hread
      refine ⟨?_, ?_, hcommand, htarget⟩
      · rw [hcommand', hfit.commandSize]
      · rw [htarget', hfit.targetUserSize]
  · have hstuck : (!s.running || s.waiting) = true := by
      by_contra h
      simp only [Bool.or_eq_true, Bool.not_eq_true', not_or, Bool.not_eq_false,
        Bool.not_eq_true] at h
      exact hp h
    rw [turn, if_pos hstuck]
    exact hfit

/-- Every turn of a run does what its line asks for exactly when the lines are
in order. -/
theorem right_turns_iff (t : Terminal) (user : Username) (input : Bytes)
    (command : Block maxCommandLen) (targetUser : Block maxUsernameLen) (xs : List Surroundings) :
    Runs.Along (turn initialized) (RightTurn initialized)
        (Interface.initial t user input command targetUser) xs ↔
      Runs.Along (turn initialized) OrderlyTurn
        (Interface.initial t user input command targetUser) xs := by
  have hinitial : (Interface.initial t user input command targetUser).Fit :=
    ⟨rfl, rfl, Nat.le_of_eq command.toList_length, Nat.le_of_eq targetUser.toList_length⟩
  refine Runs.along_iff (Q := Interface.Fit) ?_ (fun s x hfit hright ↦ turn_fit hfit hright)
    hinitial xs
  intro s x hfit
  exact forall_congr' fun hp ↦ right_iff hfit hp

def fooBar : Interface :=
  Interface.initial ⟨text "foo bar\nchat\n", true, []⟩ alice [] (Block.zero _) (Block.zero _)

def aliceAlone : Surroundings := ⟨plainSodium, emptyDisk, emptyStack, ⟨[], [], [], []⟩⟩

/-- The second word of the first line is chatted with. -/
theorem chat_alone_starts :
    (Runs.run (turn true) fooBar [aliceAlone, aliceAlone]).started = [text "bar"] ∧
      ¬ Runs.Along (turn true) (RightTurn true) fooBar [aliceAlone, aliceAlone] := by
  have hstarted : (turn true (turn true fooBar aliceAlone) aliceAlone).started = [text "bar"] := by
    decide +kernel
  refine ⟨hstarted, ?_⟩
  rintro ⟨_, hsecond, _⟩
  have hp : (turn true fooBar aliceAlone).Prompts := ⟨by decide +kernel, by decide +kernel⟩
  have hasks : (turn true fooBar aliceAlone).started ++
      ((turn true fooBar aliceAlone).first.elim [] fun l ↦ asksFor l.1) = [] := by
    decide +kernel
  have hright := (hsecond hp).started
  rw [hstarted, hasks] at hright
  cases hright

end CChat.Client.Prompt
