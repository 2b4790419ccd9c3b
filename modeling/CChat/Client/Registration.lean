import CChat.Library.Lines
import CChat.Client.KeyFiles

namespace CChat.Client.Registration

open CChat.Library CChat.Protocol.Types Network Crypto KeyFiles

abbrev maxPasswordLen : ℕ := 256

def isUsernameChar (c : UInt8) : Bool :=
  (0x61 ≤ c && c ≤ 0x7A) || (0x41 ≤ c && c ≤ 0x5A) || (0x30 ≤ c && c ≤ 0x39) || c == 0x5F

def validateUsername (username : Bytes) : CchatError :=
  if username.length = 0 ∨ username.length ≥ maxUsernameLen then .invalidArgs
  else if username.all isUsernameChar then .success
  else .invalidArgs

/-- `stdin` and `stdout`: what was typed and not yet read, whether the input
ends there, and the prompts shown. -/
structure Terminal where
  typed : Bytes
  closed : Bool
  prompts : List String
deriving DecidableEq

inductive Fgets
  | taken (buffer : Bytes) (t : Terminal)
  | endOfFile
  | blocked

/-- `fgets` takes a line with its newline, at most `size - 1` bytes of it, and
waits while there is neither and the input is open. -/
def fgets (size : ℕ) (buffer : Bytes) (t : Terminal) : Fgets :=
  let chunk := t.typed.take (size - 1)
  let line := chunk.takeWhile (· ≠ 0x0A)
  if line.length < chunk.length then
    .taken (line ++ [0x0A, 0] ++ buffer.drop (line.length + 2))
      { t with typed := t.typed.drop (line.length + 1) }
  else if line.length = size - 1 ∨ t.closed = true ∧ line ≠ [] then
    .taken (line ++ [0] ++ buffer.drop (line.length + 1))
      { t with typed := t.typed.drop line.length }
  else if t.closed then .endOfFile
  else .blocked

/-- The bytes `strlen` and `strcmp` look at. -/
def cString (buffer : Bytes) : Bytes := buffer.takeWhile (· ≠ 0)

def strcspnNewline (buffer : Bytes) : ℕ := ((cString buffer).takeWhile (· ≠ 0x0A)).length

/-- `get_password_input`; no buffer while the input is waited for. -/
def getPasswordInput (prompt : String) (password : Bytes) (maxLen : ℕ) (t : Terminal) :
    Option Bytes × Terminal :=
  let shown := { t with prompts := t.prompts ++ [prompt] }
  match fgets maxLen password shown with
  | .taken buffer t' => (some (buffer.set (strcspnNewline buffer) 0), t')
  | .endOfFile => (some password, shown)
  | .blocked => (none, shown)

inductive Asked
  | confirmed (password confirm : Bytes) (t : Terminal)
  | waiting (t : Terminal)
  | unfinished

def passwordLoop : ℕ → Bytes → Bytes → Terminal → Asked
  | 0, _, _, _ => .unfinished
  | n + 1, password, confirmPassword, t =>
    let entered := getPasswordInput "Enter password to encrypt your private key: " password
      maxPasswordLen t
    match entered.1 with
    | none => .waiting entered.2
    | some password =>
      let repeated := getPasswordInput "Confirm password: " confirmPassword maxPasswordLen entered.2
      match repeated.1 with
      | none => .waiting repeated.2
      | some confirmPassword =>
        let differ := cString password ≠ cString confirmPassword
        let password := if differ then secureZeroMemory password else password
        let confirmPassword := if differ then secureZeroMemory confirmPassword else confirmPassword
        if cString password ≠ cString confirmPassword then
          passwordLoop n password confirmPassword repeated.2
        else .confirmed password confirmPassword repeated.2

/-- What `register_user` leaves behind. `saves` holds the password of each call
of `save_keys_to_file`, `serverResult` what became of the server part when it
was reached, and `secrets` the local arrays a secret was written to, as they are
on return; without a result the function has not returned. -/
structure Registered where
  result : Option CchatError
  disk : Disk
  terminal : Terminal
  client : ClientState
  saves : List Bytes
  serverResult : Option CchatError
  secrets : List Bytes

/-- `register_user`; `password` and `confirm` are what the stack holds in the
two arrays. -/
def registerUser (sodium : Sodium) (initialized : Bool) (turns : ℕ) (disk : Disk) (t : Terminal)
    (c : ClientState) (password confirm username : Bytes) : Registered :=
  match disk.home with
  | none => ⟨some .fileIo, disk, t, c, [], none, []⟩
  | some home =>
    if (keysPath home username).length ≥ pathMax then ⟨some .fileIo, disk, t, c, [], none, []⟩
    else if (disk.files (keysPath home username)).isSome then
      ⟨some .auth, disk, t, c, [], none, []⟩
    else
      match (generateKeypair sodium initialized).1 with
      | .error e => ⟨some e, disk, t, c, [], none, []⟩
      | .ok (publicKey, privateKey) =>
        match passwordLoop turns password confirm t with
        | .unfinished => ⟨none, disk, t, c, [], none, []⟩
        | .waiting t' => ⟨none, disk, t', c, [], none, []⟩
        | .confirmed password confirm t' =>
          let saved := saveKeysToFile sodium disk username publicKey privateKey (cString password)
          let secrets := [secureZeroMemory password, secureZeroMemory confirm,
            secureZeroMemory privateKey.toList]
          if saved.result ≠ .success then
            ⟨some saved.result, saved.disk, t', c, [cString password], none, secrets⟩
          else
            let connected := connectToServer c
            if connected.1 = .success then
              let registered := registerUserWithServer connected.2 username publicKey
              ⟨some .success, saved.disk, t', (disconnectFromServer registered.2).2,
                [cString password], some registered.1, secrets⟩
            else
              ⟨some .success, saved.disk, t', connected.2, [cString password], some connected.1,
                secrets⟩

structure Line where
  bytes : Bytes
  no_newline : 0x0A ∉ bytes
  no_nul : 0 ∉ bytes
  fits : bytes.length + 2 ≤ maxPasswordLen

def typedPairs (pairs : List (Line × Line)) : Bytes :=
  pairs.flatMap (fun p ↦ p.1.bytes ++ [0x0A] ++ (p.2.bytes ++ [0x0A]))

def Agree (p : Line × Line) : Prop := p.1.bytes = p.2.bytes

instance (p : Line × Line) : Decidable (Agree p) := inferInstanceAs (Decidable (_ = _))

def behindFirst : List (Line × Line) → List (Line × Line)
  | [] => []
  | p :: rest => if Agree p then rest else behindFirst rest

/-- Nothing is saved before a pair agrees; then the input is read up to that
pair and `save_keys_to_file` is called once, with its password. -/
def Confirmed (pairs : List (Line × Line)) (r : Registered) : Prop :=
  match pairs.find? (fun p ↦ decide (Agree p)) with
  | none => r.saves = [] ∧ r.result = none
  | some p => r.saves = [p.1.bytes] ∧ r.terminal.typed = typedPairs (behindFirst pairs)

structure Prompts (sodium : Sodium) (initialized : Bool) (disk : Disk) (username : Bytes) :
    Prop where
  home : ∃ home, disk.home = some home ∧ (keysPath home username).length < pathMax ∧
    disk.files (keysPath home username) = none
  keypair : ∃ keys, (generateKeypair sodium initialized).1 = .ok keys

theorem takeWhile_stop {p : UInt8 → Bool} {line : Bytes} {b : UInt8} (rest : Bytes)
    (hline : ∀ x ∈ line, p x = true) (hb : p b = false) :
    (line ++ b :: rest).takeWhile p = line := by
  rw [List.takeWhile_append_of_pos hline, List.takeWhile_cons_of_neg (by simp [hb]),
    List.append_nil]

theorem cString_stop {line rest : Bytes} (h : 0 ∉ line) : cString (line ++ 0 :: rest) = line :=
  takeWhile_stop rest (fun _ hx ↦ decide_eq_true (fun he ↦ h (he ▸ hx)))
    (decide_eq_false (not_not.mpr rfl))

theorem cString_plain {bytes : Bytes} (h : 0 ∉ bytes) : cString bytes = bytes :=
  List.takeWhile_eq_self_iff.mpr fun _ hb ↦ decide_eq_true (fun he ↦ h (he ▸ hb))

theorem cString_no_nul (bytes : Bytes) : 0 ∉ cString bytes := by
  intro h
  simpa using List.mem_takeWhile_imp h

theorem strcspnNewline_stop {line : Bytes} {b : UInt8} (rest : Bytes) (hnul : 0 ∉ line)
    (hnl : 0x0A ∉ line) (hb : b = 0 ∨ b = 0x0A) :
    strcspnNewline (line ++ b :: rest) = line.length := by
  have hplain : ∀ x ∈ line, decide (x ≠ 0x0A) = true := fun x hx ↦
    decide_eq_true (fun he ↦ hnl (he ▸ hx))
  obtain rfl | rfl := hb
  · rw [strcspnNewline, cString_stop hnul, List.takeWhile_eq_self_iff.mpr hplain]
  · have hstring : cString (line ++ 0x0A :: rest) = line ++ 0x0A :: cString rest := by
      rw [cString, List.takeWhile_append_of_pos, List.takeWhile_cons_of_pos (by decide)]
      · rfl
      · exact fun x hx ↦ decide_eq_true (fun he ↦ hnul (he ▸ hx))
    rw [strcspnNewline, hstring, takeWhile_stop _ hplain (by decide)]

theorem cut_stop {line : Bytes} {b : UInt8} (rest : Bytes) (hnul : 0 ∉ line) (hnl : 0x0A ∉ line)
    (hb : b = 0 ∨ b = 0x0A) :
    cString ((line ++ b :: rest).set (strcspnNewline (line ++ b :: rest)) 0) = line := by
  rw [strcspnNewline_stop rest hnul hnl hb, List.set_append_right _ _ (Nat.le_refl _), Nat.sub_self]
  exact cString_stop hnul

theorem cut_line {line : Bytes} {b : UInt8} (rest : Bytes) (hnl : 0x0A ∉ line)
    (hb : b = 0 ∨ b = 0x0A) :
    cString ((line ++ b :: rest).set (strcspnNewline (line ++ b :: rest)) 0) = cString line := by
  by_cases hnul : 0 ∈ line
  · -- the string ends before the line does
    obtain ⟨front, tail, rfl, hfront⟩ := List.eq_append_cons_of_mem hnul
    rw [List.append_assoc, List.cons_append, cString_stop hfront,
      cut_stop _ hfront (fun h ↦ hnl (List.mem_append_left _ h)) (.inl rfl)]
  · rw [cut_stop rest hnul hnl hb, cString, List.takeWhile_eq_self_iff.mpr]
    exact fun x hx ↦ decide_eq_true (fun he ↦ hnul (he ▸ hx))

theorem fgets_eq (n : ℕ) (buffer : Bytes) (t : Terminal) :
    fgets (n + 1) buffer t =
      if (Lines.piece 0x0A n t.typed).length < (t.typed.take n).length then
        .taken (Lines.piece 0x0A n t.typed ++ [0x0A, 0] ++
            buffer.drop ((Lines.piece 0x0A n t.typed).length + 2))
          { t with typed := t.typed.drop ((Lines.piece 0x0A n t.typed).length + 1) }
      else if (Lines.piece 0x0A n t.typed).length = n ∨
          t.closed = true ∧ Lines.piece 0x0A n t.typed ≠ [] then
        .taken (Lines.piece 0x0A n t.typed ++ [0] ++
            buffer.drop ((Lines.piece 0x0A n t.typed).length + 1))
          { t with typed := t.typed.drop (Lines.piece 0x0A n t.typed).length }
      else if t.closed then .endOfFile
      else .blocked := rfl

/-- `fgets` reads the pieces of its input. -/
theorem fgets_readable {n : ℕ} {t : Terminal} (h : Lines.Readable 0x0A n t.closed t.typed)
    (buffer : Bytes) :
    ∃ buffer', fgets (n + 1) buffer t =
        .taken buffer' { t with typed := Lines.behind 0x0A n t.typed } ∧
      cString (buffer'.set (strcspnNewline buffer') 0) = cString (Lines.piece 0x0A n t.typed) := by
  have hnl : 0x0A ∉ Lines.piece 0x0A n t.typed := Lines.newline_not_mem_piece n t.typed
  rw [fgets_eq, Lines.behind]
  by_cases hshort : (Lines.piece 0x0A n t.typed).length < (t.typed.take n).length
  · rw [if_pos hshort, if_pos hshort]
    refine ⟨_, rfl, ?_⟩
    rw [List.append_assoc, List.cons_append]
    exact cut_line _ hnl (.inr rfl)
  · rw [if_neg hshort, if_neg hshort]
    have htaken := h.resolve_left hshort
    rw [if_pos htaken]
    refine ⟨_, rfl, ?_⟩
    rw [List.append_assoc, List.singleton_append]
    exact cut_line _ hnl (.inl rfl)

theorem fgets_unreadable {n : ℕ} {t : Terminal} (h : ¬ Lines.Readable 0x0A n t.closed t.typed)
    (buffer : Bytes) :
    fgets (n + 1) buffer t = if t.closed then .endOfFile else .blocked := by
  rw [Lines.Readable, not_or] at h
  rw [fgets_eq, if_neg h.1, if_neg h.2]

theorem getPasswordInput_line (prompt : String) (l : Line) (buffer rest : Bytes) (closed : Bool)
    (prompts : List String) :
    ∃ buffer', getPasswordInput prompt buffer maxPasswordLen
        ⟨l.bytes ++ [0x0A] ++ rest, closed, prompts⟩ =
          (some buffer', ⟨rest, closed, prompts ++ [prompt]⟩) ∧ cString buffer' = l.bytes := by
  have hroom : l.bytes.length < maxPasswordLen - 1 := by
    have hfits := l.fits
    omega
  obtain ⟨hpiece, hbehind, hread⟩ := Lines.read_line l.no_newline hroom rest
  obtain ⟨buffer', htaken, hline⟩ := @fgets_readable _
    ⟨l.bytes ++ 0x0A :: rest, closed, prompts ++ [prompt]⟩ (hread closed) buffer
  rw [hpiece, cString_plain l.no_nul] at hline
  rw [hbehind] at htaken
  have htaken' : fgets maxPasswordLen buffer
      ⟨l.bytes ++ 0x0A :: rest, closed, prompts ++ [prompt]⟩ = _ := htaken
  refine ⟨_, ?_, hline⟩
  rw [List.append_assoc, List.singleton_append, getPasswordInput]
  dsimp only
  rw [htaken']

theorem cString_zeroed (buffer : Bytes) : cString (secureZeroMemory buffer) = [] := by
  unfold secureZeroMemory cString
  cases buffer with
  | nil => rfl
  | cons => rfl

/-- The loop makes one turn: two strings that differ are wiped before they are
compared again, and two empty strings agree. -/
theorem passwordLoop_answered {password confirm first second : Bytes} {t t₁ t₂ : Terminal}
    (hfirst : getPasswordInput "Enter password to encrypt your private key: " password
      maxPasswordLen t = (some first, t₁))
    (hsecond : getPasswordInput "Confirm password: " confirm maxPasswordLen t₁ =
      (some second, t₂)) (n : ℕ) :
    ∃ saved repeated, passwordLoop (n + 1) password confirm t = .confirmed saved repeated t₂ ∧
      cString saved = if cString first = cString second then cString first else [] := by
  rw [passwordLoop]
  dsimp only
  rw [hfirst]
  dsimp only
  rw [hsecond]
  dsimp only
  by_cases hsame : cString first = cString second
  · have hequal : ¬ cString first ≠ cString second := not_not.mpr hsame
    rw [if_neg hequal, if_neg hequal, if_neg hequal, if_pos hsame]
    exact ⟨_, _, rfl, rfl⟩
  · have hwiped : ¬ cString (secureZeroMemory first) ≠ cString (secureZeroMemory second) := by
      rw [cString_zeroed, cString_zeroed]
      exact not_not.mpr rfl
    rw [if_pos hsame, if_pos hsame, if_neg hwiped, if_neg hsame]
    exact ⟨_, _, rfl, cString_zeroed first⟩

theorem passwordLoop_once (n : ℕ) (p : Line × Line) (rest password confirm : Bytes)
    (closed : Bool) (prompts : List String) :
    ∃ saved repeated prompts', passwordLoop (n + 1) password confirm
        ⟨p.1.bytes ++ [0x0A] ++ (p.2.bytes ++ [0x0A] ++ rest), closed, prompts⟩ =
          .confirmed saved repeated ⟨rest, closed, prompts'⟩ ∧
      cString saved = if Agree p then p.1.bytes else [] := by
  obtain ⟨first, hfirst, hline⟩ := getPasswordInput_line
    "Enter password to encrypt your private key: " p.1 password (p.2.bytes ++ [0x0A] ++ rest)
    closed prompts
  obtain ⟨second, hsecond, hline'⟩ := getPasswordInput_line "Confirm password: " p.2 confirm rest
    closed (prompts ++ ["Enter password to encrypt your private key: "])
  obtain ⟨saved, repeated, hloop, hsaved⟩ := passwordLoop_answered hfirst hsecond n
  rw [hline, hline'] at hsaved
  exact ⟨saved, repeated, _, hloop, hsaved⟩

/-- At the end of the input `fgets` leaves the arrays as they are. -/
theorem passwordLoop_ended (n : ℕ) (password confirm : Bytes) (prompts : List String) :
    ∃ saved repeated t,
      passwordLoop (n + 1) password confirm ⟨[], true, prompts⟩ = .confirmed saved repeated t := by
  have hleft : ∀ (prompt : String) (buffer : Bytes) (prompts : List String),
      getPasswordInput prompt buffer maxPasswordLen ⟨[], true, prompts⟩ =
        (some buffer, ⟨[], true, prompts ++ [prompt]⟩) := fun _ _ _ ↦ rfl
  obtain ⟨saved, repeated, hloop, _⟩ := passwordLoop_answered
    (hleft "Enter password to encrypt your private key: " password prompts)
    (hleft "Confirm password: " confirm _) n
  exact ⟨saved, repeated, _, hloop⟩

theorem passwordLoop_waits (n : ℕ) (password confirm : Bytes) (prompts : List String) :
    ∃ t, passwordLoop (n + 1) password confirm ⟨[], false, prompts⟩ = .waiting t :=
  ⟨_, rfl⟩

variable {sodium : Sodium} {initialized : Bool} {disk : Disk} {username : Bytes}

theorem registerUser_confirmed (h : Prompts sodium initialized disk username) (turns : ℕ)
    (t : Terminal) (c : ClientState) (password confirm : Bytes) {saved repeated : Bytes} {t' : Terminal}
    (hloop : passwordLoop turns password confirm t = .confirmed saved repeated t') :
    (registerUser sodium initialized turns disk t c password confirm username).saves =
        [cString saved] ∧
      (registerUser sodium initialized turns disk t c password confirm username).terminal = t' ∧
      (registerUser sodium initialized turns disk t c password confirm username).result ≠ none := by
  obtain ⟨⟨home, hhome, hpath, hfile⟩, ⟨publicKey, privateKey⟩, hkeys⟩ := h
  unfold registerUser
  rw [hhome]
  dsimp only
  rw [if_neg (Nat.not_le_of_lt hpath), hfile, if_neg (by decide), hkeys]
  dsimp only
  rw [hloop]
  dsimp only
  split_ifs <;> exact ⟨rfl, rfl, Option.some_ne_none _⟩

theorem registerUser_waits (h : Prompts sodium initialized disk username) (turns : ℕ)
    (t : Terminal) (c : ClientState) (password confirm : Bytes) {t' : Terminal}
    (hloop : passwordLoop turns password confirm t = .waiting t') :
    (registerUser sodium initialized turns disk t c password confirm username).saves = [] ∧
      (registerUser sodium initialized turns disk t c password confirm username).result = none := by
  obtain ⟨⟨home, hhome, hpath, hfile⟩, ⟨publicKey, privateKey⟩, hkeys⟩ := h
  unfold registerUser
  rw [hhome]
  dsimp only
  rw [if_neg (Nat.not_le_of_lt hpath), hfile, if_neg (by decide), hkeys]
  dsimp only
  rw [hloop]
  exact ⟨rfl, rfl⟩

theorem typedPairs_behind {pairs : List (Line × Line)} {p : Line × Line}
    (h : pairs.find? (fun p ↦ decide (Agree p)) = some p) :
    (typedPairs (behindFirst pairs)).length < (typedPairs pairs).length := by
  induction pairs with
  | nil => cases h
  | cons q rest ih =>
    have hcons : typedPairs (q :: rest) =
        q.1.bytes ++ [0x0A] ++ (q.2.bytes ++ [0x0A]) ++ typedPairs rest := rfl
    rw [hcons, behindFirst]
    by_cases hagree : Agree q
    · rw [if_pos hagree]
      simp only [List.length_append, List.length_singleton]
      omega
    · rw [List.find?_cons_of_neg (by simpa using hagree)] at h
      have hrest := ih h
      rw [if_neg hagree]
      simp only [List.length_append, List.length_singleton]
      omega

/-- The key file is locked with a confirmed password only when the first pair agrees,
or nothing is typed and the input has not ended. -/
theorem saves_confirmed_iff (h : Prompts sodium initialized disk username) (turns : ℕ)
    (pairs : List (Line × Line)) (closed : Bool) (prompts : List String) (c : ClientState)
    (password confirm : Bytes) :
    Confirmed pairs (registerUser sodium initialized (turns + 1) disk
        ⟨typedPairs pairs, closed, prompts⟩ c password confirm username) ↔
      (∀ p ∈ pairs.head?, Agree p) ∧ (pairs = [] → closed = false) := by
  cases pairs with
  | nil =>
    cases closed with
    | false =>
      obtain ⟨t, hloop⟩ := passwordLoop_waits turns password confirm prompts
      have hwaits := registerUser_waits h _ _ c password confirm hloop
      exact iff_of_true hwaits (by simp)
    | true =>
      obtain ⟨saved, repeated, t, hloop⟩ := passwordLoop_ended turns password confirm prompts
      obtain ⟨_, _, hresult⟩ := registerUser_confirmed h _ _ c password confirm hloop
      exact iff_of_false (fun hconfirmed ↦ hresult hconfirmed.2) (by simp)
  | cons p rest =>
    obtain ⟨saved, repeated, prompts', hloop, hsaved⟩ := passwordLoop_once turns p (typedPairs rest)
      password confirm closed prompts
    have htyped : typedPairs (p :: rest) =
        p.1.bytes ++ [0x0A] ++ (p.2.bytes ++ [0x0A] ++ typedPairs rest) := by
      rw [← List.append_assoc]
      rfl
    obtain ⟨hsaves, hterminal, _⟩ := registerUser_confirmed h _ _ c password confirm hloop
    have hhead : ((∀ q ∈ (p :: rest).head?, Agree q) ∧ (p :: rest = [] → closed = false)) ↔
        Agree p := by simp
    rw [htyped, hhead]
    unfold Confirmed
    rw [hsaves, hterminal, hsaved]
    by_cases hagree : Agree p
    · rw [List.find?_cons_of_pos (by simpa using hagree), behindFirst, if_pos hagree, if_pos hagree]
      exact iff_of_true ⟨rfl, rfl⟩ hagree
    · rw [List.find?_cons_of_neg (by simpa using hagree), behindFirst, if_neg hagree, if_neg hagree]
      refine iff_of_false ?_ hagree
      cases hfind : rest.find? (fun p ↦ decide (Agree p)) with
      | none => exact fun hconfirmed ↦ List.cons_ne_nil _ _ hconfirmed.1
      | some q =>
        intro hconfirmed
        have hless := typedPairs_behind hfind
        rw [← hconfirmed.2] at hless
        exact Nat.lt_irrefl _ hless

theorem emptyDisk_prompts : Prompts plainSodium true emptyDisk [0x61] :=
  ⟨⟨[0x2F], rfl, by decide +kernel, rfl⟩, ⟨_, rfl⟩⟩

def stack : Bytes := List.replicate maxPasswordLen 0xCC

def lineA : Line := ⟨[0x61], by decide, by decide, by decide⟩
def lineB : Line := ⟨[0x62], by decide, by decide, by decide⟩

def slip : List (Line × Line) := [(lineA, lineB), (lineA, lineA)]

theorem saves_confirmed_slip : Prompts plainSodium true emptyDisk [0x61] ∧
    (Confirmed slip (registerUser plainSodium true 2 emptyDisk ⟨typedPairs slip, false, []⟩
        (ClientState.initial ⟨[], [], [], []⟩) stack stack [0x61]) ↔
      (∀ p ∈ slip.head?, Agree p) ∧ (slip = [] → false = false)) :=
  ⟨emptyDisk_prompts, saves_confirmed_iff emptyDisk_prompts 1 slip false [] _ stack stack⟩

/-- The keys are locked with the empty password. -/
theorem slip_saves_empty :
    (registerUser plainSodium true 2 emptyDisk ⟨typedPairs slip, false, []⟩
        (ClientState.initial ⟨[], [], [], []⟩) stack stack [0x61]).saves = [[]] ∧
      ¬ Confirmed slip (registerUser plainSodium true 2 emptyDisk ⟨typedPairs slip, false, []⟩
        (ClientState.initial ⟨[], [], [], []⟩) stack stack [0x61]) := by
  have hsaves : (registerUser plainSodium true 2 emptyDisk ⟨typedPairs slip, false, []⟩
      (ClientState.initial ⟨[], [], [], []⟩) stack stack [0x61]).saves = [[]] := by decide +kernel
  refine ⟨hsaves, fun hconfirmed ↦ ?_⟩
  have hfind : slip.find? (fun p ↦ decide (Agree p)) = some (lineA, lineA) := rfl
  rw [Confirmed, hfind, hsaves] at hconfirmed
  exact absurd hconfirmed.1 (by decide)

end CChat.Client.Registration
