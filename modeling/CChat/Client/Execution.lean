import CChat.Client.KeyLoading
import CChat.Client.Wiping

namespace CChat.Client.Execution

open CChat.Library.Scratch CChat.Protocol.Types Network Crypto KeyFiles Registration Wiping

/-- The stream that `fopen` gave: the bytes behind its position, or its path, the
bytes that were written and what becomes of the next writes. -/
inductive Stream
  | closed
  | reading (unread : Bytes)
  | writing (path written : Bytes) (outcomes : List (Option ℕ))

structure Host where
  disk : Disk
  stream : Stream
  terminal : Terminal
  client : ClientState
  initialized : Bool

def Host.fopen (s : Host) (path : Bytes) (mode : String) : Bool × Host :=
  if mode = "rb" then
    match if s.disk.faults.fopen then s.disk.files path else none with
    | none => (false, s)
    | some content => (true, { s with stream := .reading content })
  else if s.disk.faults.fopen then
    (true, { s with stream := .writing path [] s.disk.faults.fwrites })
  else (false, s)

def Host.fwrite (s : Host) (bytes : Bytes) : ℕ × Host :=
  match s.stream with
  | .writing path written outcomes =>
    let taken := bytes.take ((outcomes.headD none).getD bytes.length)
    (taken.length, { s with stream := .writing path (written ++ taken) outcomes.tail })
  | _ => (0, s)

def Host.fread (s : Host) (size : ℕ) : Bytes × Host :=
  match s.stream with
  | .reading unread => (unread.take size, { s with stream := .reading (unread.drop size) })
  | _ => ([], s)

def Host.fclose (s : Host) : Host :=
  match s.stream with
  | .writing path written _ =>
    { s with disk := KeyFiles.fclose s.disk path written, stream := .closed }
  | _ => { s with stream := .closed }

def outcome : Option Bytes → ℤ × Bytes
  | none => (-1, [])
  | some bytes => (0, bytes)

def answer (sodium : Sodium) : ∀ β, Call β → Host → Option (β × Host)
  | _, .getHomeDirectory, s => some (s.disk.home, s)
  | _, .createKeysDirectory, s =>
    let created := createKeysDirectory s.disk
    some (created.1, { s with disk := created.2 })
  | _, .snprintf home username, s =>
    some (((keysPath home username).length, keysPath home username), s)
  | _, .stat path, s => some (if (s.disk.files path).isSome then 0 else -1, s)
  | _, .initCryptoLibrary, s =>
    let ready := initCryptoLibrary sodium s.initialized
    some (ready.1, { s with initialized := ready.2 })
  | _, .cryptoBoxKeypair, s =>
    some (match sodium.keypair with
      | none => (-1, [], [])
      | some keys => (0, keys.1.toList, keys.2.toList), s)
  | _, .randombytesBuf size, s => some ((Block.read size (sodium.randombytes size)).toList, s)
  | _, .cryptoPwhash password salt, s => some (outcome (sodium.pwhash password salt), s)
  | _, .cryptoSecretboxEasy message nonce key, s =>
    some (outcome ((sodium.secretbox message nonce key).map fun box ↦
      (Block.read (privateKeySize + macBytes) box).toList), s)
  | _, .cryptoSecretboxOpenEasy box nonce key, s =>
    some (outcome ((sodium.secretboxOpen box nonce key).map fun message ↦
      (Block.read privateKeySize message).toList), s)
  | _, .fopen path mode, s => some (s.fopen path mode)
  | _, .fwrite bytes, s => some (s.fwrite bytes)
  | _, .fread size, s => some (s.fread size)
  | _, .fclose, s => some ((), s.fclose)
  | _, .unlink path, s => some ((), { s with disk := KeyFiles.unlink s.disk path })
  | _, .secureFilePermissions _, s => some (.success, s)
  | _, .fgets prompt buffer size, s =>
    let shown := { s.terminal with prompts := s.terminal.prompts ++ [prompt] }
    match fgets size buffer shown with
    | .taken buffer t => some ((true, buffer), { s with terminal := t })
    | .endOfFile => some ((false, buffer), { s with terminal := shown })
    | .blocked => none
  | _, .connectToServer, s =>
    let connected := connectToServer s.client
    some (connected.1, { s with client := connected.2 })
  | _, .registerUserWithServer username publicKey, s =>
    let registered := registerUserWithServer s.client username (Block.read publicKeySize publicKey)
    some (registered.1, { s with client := registered.2 })
  | _, .disconnectFromServer, s =>
    some ((), { s with client := (disconnectFromServer s.client).2 })

def DerivesKeys (sodium : Sodium) : Prop :=
  ∀ password salt key, sodium.pwhash password salt = some key → key.length = derivedKeySize

section KeyFile

variable {κ : Type} [DecidableEq κ] {size : κ → ℕ} {sodium : Sodium}

abbrev Memory (size : κ → ℕ) : Type :=
  ∀ b : κ ⊕ KeyFileArray, Cell UInt8 (Sum.elim size KeyFileArray.size b)

def Memory.bytes (m : Memory size) (b : κ) : Bytes := (m (.inl b)).content.toList

omit [DecidableEq κ] in
theorem bytes_congr {m m' : Memory size} {b : κ} (h : m' (.inl b) = m (.inl b)) :
    m'.bytes b = m.bytes b := by
  rw [Memory.bytes, h, Memory.bytes]

/-- The run of a program on key files: its result, its disk, and nothing else of
the host or the caller's arrays has changed. -/
structure SavedRun (s : Host) (m : Memory size) (saved : Saved)
    (e : Ending CchatError Host UInt8 (Sum.elim size KeyFileArray.size)) : Prop where
  result : e.result = saved.result
  disk : e.state.disk = saved.disk
  terminal : e.state.terminal = s.terminal
  client : e.state.client = s.client
  initialized : e.state.initialized = s.initialized
  caller : ∀ b, e.memory (.inl b) = m (.inl b)

def Host.writing (s : Host) (path written : Bytes) (outcomes : List (Option ℕ)) : Host :=
  { s with stream := .writing path written outcomes }

theorem answer_fwrite (s : Host) (path written : Bytes) (outcomes : List (Option ℕ))
    (bytes : Bytes) :
    answer sodium ℕ (.fwrite bytes) (s.writing path written outcomes) =
      some ((bytes.take ((outcomes.headD none).getD bytes.length)).length,
        s.writing path (written ++ bytes.take ((outcomes.headD none).getD bytes.length))
          outcomes.tail) := rfl

/-- The writes of the parts, one after another up to the first that is short. -/
theorem fwriteShort_run (sodium : Sodium) (parts : List ((κ ⊕ KeyFileArray) × ℕ))
    (m : Memory size)
    (hsize : ∀ part ∈ parts, (m part.1).content.toList.length = part.2) (s : Host)
    (path written : Bytes) (outcomes : List (Option ℕ)) :
    ∃ rest, (fwriteShort parts).run 0 (answer sodium) (s.writing path written outcomes) m = some
      ⟨!(fwriteAll outcomes (parts.map fun part ↦ (m part.1).content.toList)).1,
        s.writing path (written ++ (fwriteAll outcomes
          (parts.map fun part ↦ (m part.1).content.toList)).2) rest, m⟩ := by
  induction parts generalizing written outcomes with
  | nil =>
    refine ⟨outcomes, ?_⟩
    rw [List.map_nil, fwriteAll, List.append_nil]
    rfl
  | cons part parts ih =>
    obtain ⟨array, n⟩ := part
    have hn : (m array).content.toList.length = n := hsize (array, n) List.mem_cons_self
    rw [fwriteShort, run_get, run_call, ← hn, List.take_length, answer_fwrite,
      Option.bind_some, List.map_cons, fwriteAll]
    dsimp only
    split
    · exact ⟨outcomes.tail, rfl⟩
    · obtain ⟨rest, hrest⟩ := ih (fun part hpart ↦ hsize part (List.mem_cons_of_mem _ hpart)) _ _
      refine ⟨rest, ?_⟩
      rw [hrest, List.append_assoc]

theorem fopen_write (s : Host) (path : Bytes) :
    s.fopen path "wb" = if s.disk.faults.fopen then
      (true, s.writing path [] s.disk.faults.fwrites) else (false, s) := rfl

/-- What `derive_key_from_password` leaves in its array. -/
theorem deriveKeyFromPassword_run (s : Host) (m : Memory size) (password : κ) :
    (deriveKeyFromPassword password).run 0 (answer sodium) s m =
      match sodium.pwhash (cString (m.bytes password)) (m (.inr .salt)).content.toList with
      | none => some ⟨.keyDerivation, s, Function.update m (.inr .derivedKey)
          ((m (.inr .derivedKey)).store true [])⟩
      | some key => some ⟨.success, s, Function.update m (.inr .derivedKey)
          ((m (.inr .derivedKey)).store true key)⟩ := by
  rw [deriveKeyFromPassword, run_get, run_get, run_call, answer, Option.bind_some]
  unfold Memory.bytes
  cases sodium.pwhash _ _ with
  | none => rfl
  | some key => rfl

theorem array_update (m : Memory size) (b : κ ⊕ KeyFileArray) (secret : Bool) {values : Bytes}
    (h : values.length = Sum.elim size KeyFileArray.size b) :
    ∃ m' : Memory size, m' = Function.update m b ((m b).store secret values) ∧
      (m' b).content.toList = values ∧ ∀ b' ≠ b, m' b' = m b' := by
  refine ⟨_, rfl, ?_, fun b' hb ↦ Function.update_of_ne hb _ _⟩
  rw [Function.update_self]
  exact store_content secret h

theorem filled_update (m : Memory size) (a : KeyFileArray) (secret : Bool) {values : Bytes}
    (h : values.length = a.size) :
    ∃ m' : Memory size, m' = Function.update m (.inr a) ((m (.inr a)).store secret values) ∧
      (∀ b, m' (.inl b) = m (.inl b)) ∧ (m' (.inr a)).content.toList = values ∧
      ∀ a' ≠ a, m' (.inr a') = m (.inr a') := by
  obtain ⟨m', hm', hvalues, hothers⟩ := array_update m (.inr a) secret h
  exact ⟨m', hm', fun b ↦ hothers _ Sum.inl_ne_inr, hvalues,
    fun a' ha ↦ hothers _ (fun heq ↦ ha (Sum.inr.inj heq))⟩

omit [DecidableEq κ] in
/-- The arrays with the parts of a record are written as the record. -/
theorem keyFileParts_contents (m : Memory size) {publicKey : κ} (r : Record)
    (hsalt : (m (.inr .salt)).content.toList = r.salt.toList)
    (hnonce : (m (.inr .nonce)).content.toList = r.nonce.toList)
    (hkey : (m (.inl publicKey)).content.toList = r.publicKey.toList)
    (hbox : (m (.inr .encryptedPrivate)).content.toList = r.encryptedPrivate.toList) :
    (keyFileParts publicKey).map (fun part ↦ (m part.1).content.toList) = r.parts ∧
      ∀ part ∈ keyFileParts publicKey, (m part.1).content.toList.length = part.2 := by
  simp only [keyFileParts, List.map_cons, List.map_nil, List.forall_mem_cons, List.not_mem_nil,
    hsalt, hnonce, hkey, hbox]
  exact ⟨rfl, r.salt.toList_length, r.nonce.toList_length, r.publicKey.toList_length,
    r.encryptedPrivate.toList_length, fun _ ↦ False.elim⟩

theorem pathLen_iff (n : ℕ) : ((n : ℤ) ≥ (pathMax : ℕ) ∨ (n : ℤ) < 0) ↔ n ≥ pathMax := by
  omega

theorem saveKeysToFile_run (hderives : DerivesKeys sodium) (s : Host) (m : Memory size)
    (username : Bytes) {publicKey privateKey password : κ} {pk sk : Key} {line : Bytes}
    (hpk : m.bytes publicKey = pk.toList) (hsk : m.bytes privateKey = sk.toList)
    (hline : m.bytes password = line) :
    ∃ e, (Wiping.saveKeysToFile (some username) (some publicKey) (some privateKey)
        (some password)).run 0 (answer sodium) s m = some e ∧
      SavedRun s m (KeyFiles.saveKeysToFile sodium s.disk username pk sk (cString line)) e := by
  unfold Wiping.saveKeysToFile KeyFiles.saveKeysToFile
  dsimp only
  rw [run_call, answer]
  dsimp only [Option.bind_some]
  generalize createKeysDirectory s.disk = created
  obtain ⟨made, disk⟩ := created
  by_cases hmade : made ≠ .success
  · rw [if_pos hmade, if_pos hmade]
    exact ⟨_, rfl, rfl, rfl, rfl, rfl, rfl, fun _ ↦ rfl⟩
  rw [if_neg hmade, if_neg hmade, run_call, answer, Option.bind_some]
  cases disk.home with
  | none => exact ⟨_, rfl, rfl, rfl, rfl, rfl, rfl, fun _ ↦ rfl⟩
  | some home =>
    dsimp only
    rw [run_call, answer, Option.bind_some]
    simp only [pathLen_iff]
    by_cases hpath : (keysPath home username).length ≥ pathMax
    · rw [if_pos hpath, if_pos hpath]
      exact ⟨_, rfl, rfl, rfl, rfl, rfl, rfl, fun _ ↦ rfl⟩
    rw [if_neg hpath, if_neg hpath, run_call, answer, Option.bind_some, run_put, run_bind]
    generalize Block.read saltBytes (sodium.randombytes saltBytes) = salt
    obtain ⟨m₁, hm₁, hcaller₁, hsalt₁, _⟩ :=
      filled_update m .salt false (List.Vector.toList_length salt)
    have hline₁ : m₁.bytes password = line := by rw [Memory.bytes, hcaller₁, ← hline, Memory.bytes]
    rw [← hm₁, deriveKeyFromPassword_run, hsalt₁, hline₁]
    cases hderived : sodium.pwhash (cString line) salt.toList with
    | none => exact ⟨_, rfl, rfl, rfl, rfl, rfl, rfl, hcaller₁⟩
    | some derivedKey =>
      obtain ⟨m₂, hm₂, hcaller₂, hderived₂, hown₂⟩ :=
        filled_update m₁ .derivedKey true (hderives _ _ _ hderived)
      dsimp only
      rw [← hm₂, Option.bind_some, if_neg (not_not.mpr rfl), run_call, answer, Option.bind_some,
        run_put]
      generalize Block.read nonceBytes (sodium.randombytes nonceBytes) = nonce
      obtain ⟨m₃, hm₃, hcaller₃, hnonce₃, hown₃⟩ :=
        filled_update m₂ .nonce false (List.Vector.toList_length nonce)
      rw [← hm₃, run_get, run_get, run_get, run_call, hnonce₃, hown₃ .derivedKey (by decide),
        hderived₂]
      have hmessage : ((m₃ (.inl privateKey)).content.toList).take privateKeySize = sk.toList := by
        rw [hcaller₃, hcaller₂, hcaller₁]
        exact (congrArg _ hsk).trans (List.take_of_length_le (Nat.le_of_eq sk.toList_length))
      rw [hmessage, answer]
      dsimp only
      have hcaller : ∀ b, m₃ (.inl b) = m (.inl b) := fun b ↦ by
        rw [hcaller₃, hcaller₂, hcaller₁]
      cases sodium.secretbox sk.toList nonce.toList derivedKey with
      | none => exact ⟨_, rfl, rfl, rfl, rfl, rfl, rfl, hcaller⟩
      | some box =>
        dsimp only [Option.map_some, outcome, Option.bind_some]
        generalize Block.read (privateKeySize + macBytes) box = encrypted
        obtain ⟨m₄, hm₄, hcaller₄, hbox₄, hown₄⟩ :=
          filled_update m₃ .encryptedPrivate false (List.Vector.toList_length encrypted)
        rw [run_put, ← hm₄, if_neg (not_not.mpr rfl), run_call, answer, Option.bind_some]
        have hcaller' : ∀ b, m₄ (.inl b) = m (.inl b) := fun b ↦ by rw [hcaller₄, hcaller]
        rw [fopen_write]
        dsimp only
        cases disk.faults.fopen with
        | false => exact ⟨_, rfl, rfl, rfl, rfl, rfl, rfl, hcaller'⟩
        | true =>
          have hpk₄ : (m₄ (.inl publicKey)).content.toList = pk.toList := by
            rw [hcaller']
            exact hpk
          have hsalt₄ : (m₄ (.inr .salt)).content.toList = salt.toList := by
            rw [hown₄ .salt (by decide), hown₃ .salt (by decide), hown₂ .salt (by decide), hsalt₁]
          have hnonce₄ : (m₄ (.inr .nonce)).content.toList = nonce.toList := by
            rw [hown₄ .nonce (by decide), hnonce₃]
          obtain ⟨hparts, hsize⟩ := keyFileParts_contents m₄ ⟨salt, nonce, pk, encrypted⟩
            hsalt₄ hnonce₄ hpk₄ hbox₄
          obtain ⟨rest, hwrite⟩ := fwriteShort_run sodium (keyFileParts publicKey) m₄ hsize
            ⟨disk, s.stream, s.terminal, s.client, s.initialized⟩ (keysPath home username) []
            disk.faults.fwrites
          rw [hparts] at hwrite
          have hopened : ¬ (!true) = true := Bool.false_ne_true
          rw [if_pos rfl, if_neg hopened, if_neg hopened, run_bind, hwrite, Option.bind_some]
          cases (fwriteAll disk.faults.fwrites (Record.parts ⟨salt, nonce, pk, encrypted⟩)).1 with
          | true => exact ⟨_, rfl, rfl, rfl, rfl, rfl, rfl, hcaller'⟩
          | false => exact ⟨_, rfl, rfl, rfl, rfl, rfl, rfl, hcaller'⟩

/-- The run of `load_keys_from_file`: its result, the caller's two buffers, and
nothing else of what lasts has changed. -/
structure LoadedRun (s : Host) (m : Memory size) (publicKey privateKey : κ) (loaded : Loaded)
    (e : Ending CchatError Host UInt8 (Sum.elim size KeyFileArray.size)) : Prop where
  result : e.result = loaded.result
  publicBuffer : Memory.bytes e.memory publicKey = loaded.publicKey.toList
  privateBuffer : Memory.bytes e.memory privateKey = loaded.privateKey.toList
  disk : e.state.disk = s.disk
  terminal : e.state.terminal = s.terminal
  client : e.state.client = s.client
  initialized : e.state.initialized = s.initialized
  caller : ∀ b, b ≠ publicKey → b ≠ privateKey → e.memory (.inl b) = m (.inl b)

def Host.reading (s : Host) (unread : Bytes) : Host := { s with stream := .reading unread }

/-- One `fread` and those behind it. -/
theorem freadShort_cons_run (sodium : Sodium) (s : Host) (m : Memory size)
    (array : κ ⊕ KeyFileArray) (n : ℕ) (rest : List ((κ ⊕ KeyFileArray) × ℕ)) (unread : Bytes) :
    (freadShort ((array, n) :: rest)).run 0 (answer sodium) (s.reading unread) m =
      if (unread.take n).length ≠ n then
        some ⟨true, s.reading (unread.drop n),
          Function.update m array ((m array).store false (unread.take n))⟩
      else (freadShort rest).run 0 (answer sodium) (s.reading (unread.drop n))
        (Function.update m array ((m array).store false (unread.take n))) := by
  have hread : answer sodium Bytes (.fread n) (s.reading unread) =
      some (unread.take n, s.reading (unread.drop n)) := rfl
  rw [freadShort, run_call, hread, Option.bind_some]
  dsimp only
  rw [run_put]
  split_ifs <;> rfl

theorem freadParts_front (sodium : Sodium) (s : Host) (m : Memory size) (publicKey : κ)
    (content : Bytes) (h : (content.take saltBytes).length ≠ saltBytes ∨
      ((content.drop saltBytes).take nonceBytes).length ≠ nonceBytes) :
    ∃ unread, ∃ m' : Memory size,
      (freadShort (keyFileParts publicKey)).run 0 (answer sodium) (s.reading content) m =
        some ⟨true, s.reading unread, m'⟩ ∧ ∀ b, m' (.inl b) = m (.inl b) := by
  rw [keyFileParts, freadShort_cons_run]
  by_cases hsalt : (content.take saltBytes).length ≠ saltBytes
  · rw [if_pos hsalt]
    exact ⟨_, _, rfl, fun _ ↦ rfl⟩
  · rw [if_neg hsalt, freadShort_cons_run, if_pos (h.resolve_left hsalt)]
    exact ⟨_, _, rfl, fun _ ↦ rfl⟩

theorem store_overwrite {n k : ℕ} {c : Cell UInt8 n} {block : Block k}
    (h : c.content.toList = block.toList) (secret : Bool) (bytes : Bytes) :
    (c.store secret bytes).content.toList = (Block.overwrite block bytes).toList := by
  have hk : n = k := by rw [← c.content.toList_length, h, block.toList_length]
  subst hk
  have hlong : n ≤ (bytes ++ block.toList.drop bytes.length).length := by
    rw [List.length_append, List.length_drop, block.toList_length]
    omega
  show (bytes ++ c.content.toList.drop bytes.length).take n =
    ((bytes ++ block.toList.drop bytes.length) ++ List.replicate n 0).take n
  rw [h, List.take_append_of_le_length hlong]

/-- One of the caller's arrays is stored to and no other array is touched. -/
theorem stored_update {m : Memory size} {b : κ} {block : Key} (h : m.bytes b = block.toList)
    (secret : Bool) (values : Bytes) :
    ∃ m' : Memory size, m' = Function.update m (.inl b) ((m (.inl b)).store secret values) ∧
      m'.bytes b = (Block.overwrite block values).toList ∧
      (∀ b' ≠ b, m' (.inl b') = m (.inl b')) ∧ ∀ a, m' (.inr a) = m (.inr a) := by
  refine ⟨_, rfl, ?_, fun b' hb ↦ ?_, fun a ↦ ?_⟩
  · rw [Memory.bytes, Function.update_self]
    exact store_overwrite h secret values
  · exact Function.update_of_ne (fun heq ↦ hb (Sum.inl.inj heq)) _ _
  · exact Function.update_of_ne Sum.inr_ne_inl _ _

abbrev readKey (content : Bytes) : Bytes :=
  ((content.drop saltBytes).drop nonceBytes).take publicKeySize

abbrev readBox (content : Bytes) : Bytes :=
  (((content.drop saltBytes).drop nonceBytes).drop publicKeySize).take (privateKeySize + macBytes)

abbrev BackShort (content : Bytes) : Prop :=
  (readKey content).length ≠ publicKeySize ∨
    (readBox content).length ≠ privateKeySize + macBytes

structure PartsRead (content : Bytes) (publicKey : κ) (pk : Key) (m m' : Memory size) : Prop where
  publicBuffer : m'.bytes publicKey = (Block.overwrite pk (readKey content)).toList
  caller : ∀ b ≠ publicKey, m' (.inl b) = m (.inl b)
  salt : (m' (.inr .salt)).content.toList = content.take saltBytes
  nonce : (m' (.inr .nonce)).content.toList = (content.drop saltBytes).take nonceBytes
  encryptedPrivate : ¬ BackShort content →
    (m' (.inr .encryptedPrivate)).content.toList = readBox content

theorem freadParts_back (sodium : Sodium) (s : Host) (m : Memory size) {publicKey : κ} {pk : Key}
    (hpk : m.bytes publicKey = pk.toList) (content : Bytes)
    (h : ¬ ((content.take saltBytes).length ≠ saltBytes ∨
      ((content.drop saltBytes).take nonceBytes).length ≠ nonceBytes)) :
    ∃ unread, ∃ m' : Memory size,
      (freadShort (keyFileParts publicKey)).run 0 (answer sodium) (s.reading content) m =
        some ⟨decide (BackShort content), s.reading unread, m'⟩ ∧
      PartsRead content publicKey pk m m' := by
  rw [not_or, not_not, not_not] at h
  obtain ⟨m₁, hm₁, hcaller₁, hsalt₁, _⟩ := filled_update m .salt false h.1
  obtain ⟨m₂, hm₂, hcaller₂, hnonce₂, hown₂⟩ := filled_update m₁ .nonce false h.2
  have hcaller : ∀ b, m₂ (.inl b) = m (.inl b) := fun b ↦ by rw [hcaller₂, hcaller₁]
  obtain ⟨m₃, hm₃, hbuffer₃, hcaller₃, hown₃⟩ :=
    stored_update ((bytes_congr (hcaller publicKey)).trans hpk) false (readKey content)
  have hothers₃ : ∀ b ≠ publicKey, m₃ (.inl b) = m (.inl b) := fun b hb ↦ by
    rw [hcaller₃ b hb, hcaller]
  have hsalt₃ : (m₃ (.inr .salt)).content.toList = content.take saltBytes := by
    rw [hown₃, hown₂ .salt (by decide), hsalt₁]
  have hnonce₃ : (m₃ (.inr .nonce)).content.toList =
      (content.drop saltBytes).take nonceBytes := by
    rw [hown₃, hnonce₂]
  rw [keyFileParts, freadShort_cons_run, if_neg (not_not.mpr h.1), ← hm₁, freadShort_cons_run,
    if_neg (not_not.mpr h.2), ← hm₂, freadShort_cons_run, ← hm₃]
  by_cases hkey : (readKey content).length ≠ publicKeySize
  · have hshort : BackShort content := .inl hkey
    rw [if_pos hkey, decide_eq_true hshort]
    exact ⟨_, _, rfl, hbuffer₃, hothers₃, hsalt₃, hnonce₃, fun hwhole ↦ absurd hshort hwhole⟩
  rw [if_neg hkey, freadShort_cons_run]
  by_cases hbox : (readBox content).length ≠ privateKeySize + macBytes
  · have hshort : BackShort content := .inr hbox
    rw [if_pos hbox, decide_eq_true hshort]
    exact ⟨_, _, rfl, hbuffer₃, hothers₃, hsalt₃, hnonce₃, fun hwhole ↦ absurd hshort hwhole⟩
  · have hwhole : ¬ BackShort content := not_or.mpr ⟨hkey, hbox⟩
    obtain ⟨m₄, hm₄, hcaller₄, hbox₄, hown₄⟩ :=
      filled_update m₃ .encryptedPrivate false (not_not.mp hbox)
    rw [if_neg hbox, ← hm₄, decide_eq_false hwhole]
    refine ⟨_, m₄, rfl, ?_, fun b hb ↦ ?_, ?_, ?_, fun _ ↦ hbox₄⟩
    · exact (bytes_congr (hcaller₄ publicKey)).trans hbuffer₃
    · rw [hcaller₄, hothers₃ b hb]
    · rw [hown₄ .salt (by decide), hsalt₃]
    · rw [hown₄ .nonce (by decide), hnonce₃]

theorem fopen_read (s : Host) (path : Bytes) :
    s.fopen path "rb" = match if s.disk.faults.fopen then s.disk.files path else none with
      | none => (false, s)
      | some content => (true, s.reading content) := rfl

/-- So it is of a load, into two arrays that are not the password's. -/
theorem loadKeysFromFile_run (hderives : DerivesKeys sodium) (s : Host) (m : Memory size)
    (username : Bytes) {publicKey privateKey password : κ} {pk sk : Key} {line : Bytes}
    (hpk : m.bytes publicKey = pk.toList) (hsk : m.bytes privateKey = sk.toList)
    (hline : m.bytes password = line) (hkeys : privateKey ≠ publicKey)
    (hpassword : password ≠ publicKey) :
    ∃ e, (Wiping.loadKeysFromFile (some username) (some publicKey) (some privateKey)
        (some password)).run 0 (answer sodium) s m = some e ∧
      LoadedRun s m publicKey privateKey
        (KeyFiles.loadKeysFromFile sodium s.disk username pk sk (cString line)) e := by
  unfold Wiping.loadKeysFromFile KeyFiles.loadKeysFromFile
  dsimp only
  rw [run_call, answer, Option.bind_some]
  cases s.disk.home with
  | none => exact ⟨_, rfl, rfl, hpk, hsk, rfl, rfl, rfl, rfl, fun _ _ _ ↦ rfl⟩
  | some home =>
    dsimp only
    rw [run_call, answer, Option.bind_some]
    simp only [pathLen_iff]
    by_cases hpath : (keysPath home username).length ≥ pathMax
    · rw [if_pos hpath, if_pos hpath]
      exact ⟨_, rfl, rfl, hpk, hsk, rfl, rfl, rfl, rfl, fun _ _ _ ↦ rfl⟩
    rw [if_neg hpath, if_neg hpath, run_call, answer, Option.bind_some, fopen_read]
    cases if s.disk.faults.fopen then s.disk.files (keysPath home username) else none with
    | none => exact ⟨_, rfl, rfl, hpk, hsk, rfl, rfl, rfl, rfl, fun _ _ _ ↦ rfl⟩
    | some content =>
      have hopened : ¬ (!true) = true := Bool.false_ne_true
      dsimp only
      rw [if_neg hopened, run_bind, readRecord]
      dsimp only
      by_cases hfront : (content.take saltBytes).length ≠ saltBytes ∨
          ((content.drop saltBytes).take nonceBytes).length ≠ nonceBytes
      · obtain ⟨unread, m', hread, hcaller⟩ := freadParts_front sodium s m publicKey content hfront
        rw [hread, if_pos hfront]
        exact ⟨_, rfl, rfl, (bytes_congr (hcaller publicKey)).trans hpk,
          (bytes_congr (hcaller privateKey)).trans hsk, rfl, rfl, rfl, rfl, fun b _ _ ↦ hcaller b⟩
      · obtain ⟨unread, m₁, hread, hparts⟩ := freadParts_back sodium s m hpk content hfront
        have hsk₁ : m₁.bytes privateKey = sk.toList :=
          (bytes_congr (hparts.caller privateKey hkeys)).trans hsk
        rw [hread, if_neg hfront, Option.bind_some]
        by_cases hshort : BackShort content
        · rw [decide_eq_true hshort, if_pos rfl, if_pos hshort]
          exact ⟨_, rfl, rfl, hparts.publicBuffer, hsk₁, rfl, rfl, rfl, rfl,
            fun b hb _ ↦ hparts.caller b hb⟩
        have hline₁ : m₁.bytes password = line :=
          (bytes_congr (hparts.caller password hpassword)).trans hline
        rw [decide_eq_false hshort, if_neg Bool.false_ne_true, if_neg hshort, run_call, answer,
          Option.bind_some, run_bind, deriveKeyFromPassword_run, hline₁, hparts.salt, openRecord]
        cases hderived : sodium.pwhash (cString line) (content.take saltBytes) with
        | none => exact ⟨_, rfl, rfl, hparts.publicBuffer, hsk₁, rfl, rfl, rfl, rfl,
            fun b hb _ ↦ hparts.caller b hb⟩
        | some derivedKey =>
          obtain ⟨m₂, hm₂, hcaller₂, hderived₂, hown₂⟩ :=
            filled_update m₁ .derivedKey true (hderives _ _ _ hderived)
          have hpk₂ := (bytes_congr (hcaller₂ publicKey)).trans hparts.publicBuffer
          have hsk₂ := (bytes_congr (hcaller₂ privateKey)).trans hsk₁
          dsimp only
          rw [← hm₂, Option.bind_some, if_neg (not_not.mpr rfl), run_get, run_get, run_get,
            run_call, answer]
          dsimp only
          rw [hown₂ .nonce (by decide), hown₂ .encryptedPrivate (by decide), hderived₂,
            hparts.nonce, hparts.encryptedPrivate hshort, Option.bind_some]
          have hothers : ∀ m' : Memory size, (∀ b ≠ privateKey, m' (.inl b) = m₂ (.inl b)) →
              ∀ b, b ≠ publicKey → b ≠ privateKey → m' (.inl b) = m (.inl b) := by
            intro m' hm' b hpublic hprivate
            rw [hm' b hprivate, hcaller₂, hparts.caller b hpublic]
          cases sodium.secretboxOpen (readBox content)
              ((content.drop saltBytes).take nonceBytes) derivedKey with
          | none =>
            obtain ⟨m₃, hm₃, hbuffer₃, hcaller₃, _⟩ := stored_update hsk₂ false []
            have hpk₃ := (bytes_congr (hcaller₃ publicKey hkeys.symm)).trans hpk₂
            rw [KeyLoading.Block.overwrite_nil] at hbuffer₃
            subst hm₃
            exact ⟨_, rfl, rfl, hpk₃, hbuffer₃, rfl, rfl, rfl, rfl, hothers _ hcaller₃⟩
          | some message =>
            obtain ⟨m₃, hm₃, hbuffer₃, hcaller₃, _⟩ := stored_update hsk₂ true
              (Block.read privateKeySize message).toList
            have hpk₃ := (bytes_congr (hcaller₃ publicKey hkeys.symm)).trans hpk₂
            rw [Block.overwrite_all _ (List.Vector.toList_length _)] at hbuffer₃
            subst hm₃
            exact ⟨_, rfl, rfl, hpk₃, hbuffer₃, rfl, rfl, rfl, rfl, hothers _ hcaller₃⟩

end KeyFile

end CChat.Client.Execution
