import CChat.Library.Runs
import CChat.Client.CommandLine
import CChat.Client.RegistrationRun

namespace CChat.Client.Accounts

open CChat.Library Scratch CChat.Protocol.Types Network Crypto KeyFiles Registration CommandLine
  Execution RegistrationRun
open Wiping (UserArray KeyFileArray)

/-- What `login_user` leaves behind. `keys` holds what was loaded, which is
cleared again; without a result the function has not returned. -/
structure LoggedIn where
  result : Option CchatError
  terminal : Terminal
  keys : Option (Key × Key)

/-- `login_user`; `password`, `publicKey` and `privateKey` are what the stack
holds in the three arrays. -/
def loginUser (sodium : Sodium) (disk : Disk) (t : Terminal) (password : Bytes)
    (publicKey privateKey : Key) (username : Bytes) : LoggedIn :=
  let entered := getPasswordInput "Enter your password: " password maxPasswordLen t
  match entered.1 with
  | none => ⟨none, entered.2, none⟩
  | some password =>
    let loaded := loadKeysFromFile sodium disk username publicKey privateKey (cString password)
    if loaded.result ≠ .success then ⟨some loaded.result, entered.2, none⟩
    else ⟨some .success, entered.2, some (loaded.publicKey, loaded.privateKey)⟩

/-- A run of `login_user` comes to this and leaves the disk and the network alone,
or does not return. -/
def ComesTo (s : Host) (l : LoggedIn) :
    Option (Ending CchatError Host UInt8 (Sum.elim UserArray.size KeyFileArray.size)) → Prop
  | none => l.result = none
  | some e => l.result = some e.result ∧ e.state.disk = s.disk ∧ e.state.terminal = l.terminal ∧
      e.state.client = s.client

theorem loginUser_run {sodium : Sodium} (hderives : DerivesKeys sodium) (username : Bytes)
    (s : Host) (m : UserMemory) {publicKey privateKey : Key}
    (hpublic : m.bytes .publicKey = publicKey.toList)
    (hprivate : m.bytes .privateKey = privateKey.toList) :
    ComesTo s (loginUser sodium s.disk s.terminal (m.bytes .password) publicKey privateKey username)
      ((Wiping.loginUser username).run 0 (answer sodium) s m) := by
  have hentered := getPasswordInput_run sodium "Enter your password: " .password rfl s m
  unfold Wiping.loginUser loginUser
  rw [run_bind]
  generalize Registration.getPasswordInput "Enter your password: " (m.bytes .password)
    maxPasswordLen s.terminal = entered at hentered ⊢
  obtain ⟨password, t⟩ := entered
  cases password with
  | none =>
    dsimp only at hentered ⊢
    rw [hentered]
    rfl
  | some password =>
    obtain ⟨m₁, hrun₁, hpassword, hothers⟩ := hentered
    have hpublic₁ : m₁.bytes .publicKey = publicKey.toList :=
      (bytes_congr (hothers (.inl .publicKey) (by decide))).trans hpublic
    have hprivate₁ : m₁.bytes .privateKey = privateKey.toList :=
      (bytes_congr (hothers (.inl .privateKey) (by decide))).trans hprivate
    obtain ⟨e₂, hrun₂, hloaded⟩ := loadKeysFromFile_run hderives { s with terminal := t } m₁
      username hpublic₁ hprivate₁ hpassword (by decide) (by decide)
    dsimp only at hloaded ⊢
    rw [hrun₁, Option.bind_some, run_bind, hrun₂, Option.bind_some, hloaded.result]
    split
    · exact ⟨rfl, hloaded.disk, hloaded.terminal, hloaded.client⟩
    · exact ⟨rfl, hloaded.disk, hloaded.terminal, hloaded.client⟩

/-- One run of the program: what it is given, and what it meets with. The last
five are for `register_user` and `login_user`: the turns that are watched of the
password loop, and what the stack holds. -/
structure Run where
  sodium : Sodium
  posixlyCorrect : Bool
  argv : List Argument
  home : Option Bytes
  faults : Faults
  terminal : Terminal
  env : Env
  turns : ℕ
  password : Bytes
  confirm : Bytes
  publicKey : Key
  privateKey : Key

def Run.command (r : Run) : Command := main r.sodium r.posixlyCorrect r.argv

def Run.disk (r : Run) (d : Disk) : Disk := { d with home := r.home, faults := r.faults }

def Run.registers (r : Run) (d : Disk) (username : Bytes) : Registered :=
  registerUser r.sodium true r.turns (r.disk d) r.terminal (ClientState.initial r.env) r.password
    r.confirm username

def Run.logsIn (r : Run) (d : Disk) (username : Bytes) : LoggedIn :=
  loginUser r.sodium (r.disk d) r.terminal r.password r.publicKey r.privateKey username

def step (d : Disk) (r : Run) : Disk :=
  match r.command with
  | .registerUser username => (r.registers d username).disk
  | .loginUser _ | .listUsers | .returns _ => r.disk d

/-- A key file of the run: where it is, for a name that was given on the command
line and cut to a valid one, and what it is the start of. -/
structure KeyFile (r : Run) (path content : Bytes) : Prop where
  place : ∃ home full, r.home = some home ∧ path = keysPath home (full.take (maxUsernameLen - 1)) ∧
    validateUsername (full.take (maxUsernameLen - 1)) = .success ∧
    lastName (reports r.posixlyCorrect r.argv) = some full ∧
    given [0x72] (reports r.posixlyCorrect r.argv) ≠ []
  sealed : ∃ keys password record, r.sodium.keypair = some keys ∧
    sealedRecord r.sodium keys.1 keys.2 password = some record ∧ content <+: record.bytes

variable {sodium : Sodium} {disk d : Disk} {username : Bytes} {r : Run}

theorem fwriteAll_prefix (outcomes : List (Option ℕ)) (parts : List Bytes) :
    (fwriteAll outcomes parts).2 <+: parts.flatten := by
  induction parts generalizing outcomes with
  | nil => exact List.prefix_rfl
  | cons part parts ih =>
    rw [fwriteAll, List.flatten_cons]
    dsimp only
    generalize (outcomes.headD none).getD part.length = n
    split
    · exact (List.take_prefix n part).trans (List.prefix_append part _)
    next hwhole =>
      have hall : part.take n = part := by
        rw [List.take_eq_self_iff]
        rw [not_not, List.length_take] at hwhole
        omega
      rw [hall, List.prefix_append_right_inj]
      exact ih outcomes.tail

/-- A call on a disk adds no file, or this one where there was none. -/
def Adds (disk disk' : Disk) (path content : Bytes) : Prop :=
  disk.files path = none ∧ disk'.files = Function.update disk.files path (some content)

theorem saveKeysToFile_adds (publicKey privateKey : Key) (password : Bytes) {home : Bytes}
    (hhome : disk.home = some home) (hnew : disk.files (keysPath home username) = none) :
    (saveKeysToFile sodium disk username publicKey privateKey password).disk.files = disk.files ∨
      ∃ record content, sealedRecord sodium publicKey privateKey password = some record ∧
        content <+: record.bytes ∧
        Adds disk (saveKeysToFile sodium disk username publicKey privateKey password).disk
          (keysPath home username) content := by
  cases hopened : opened sodium disk username publicKey privateKey password with
  | none => exact .inl (saveKeysToFile_unopened hopened).2
  | some file =>
    obtain ⟨path, record⟩ := file
    obtain ⟨hpath, hsealed, made, secrets, -, hfiles, hfaults, hsaved⟩ :=
      saveKeysToFile_opened hopened
    rw [hhome, Option.map_some] at hpath
    cases hpath
    have hprefix := fwriteAll_prefix disk.faults.fwrites record.parts
    generalize (fwriteAll disk.faults.fwrites record.parts).2 = written at hprefix hsaved
    have hclosed : (fclose made (keysPath home username) written).files = Function.update disk.files
        (keysPath home username) (some (written.take (made.faults.flush.getD written.length))) := by
      rw [fclose, Disk.put, hfiles]
    have hadds : ∀ disk' : Disk, disk'.files =
        (fclose made (keysPath home username) written).files → ∃ record content,
          sealedRecord sodium publicKey privateKey password = some record ∧
          content <+: record.bytes ∧ Adds disk disk' (keysPath home username) content :=
      fun disk' h ↦ ⟨record, _, hsealed, (List.take_prefix _ written).trans hprefix, hnew,
        h.trans hclosed⟩
    rw [hsaved]
    split
    · exact .inr (hadds _ rfl)
    unfold unlink
    split
    · left
      rw [Disk.put, hclosed, Function.update_idem, ← hnew, Function.update_eq_self]
    · exact .inr (hadds _ rfl)

theorem generateKeypair_ready (sodium : Sodium) : (generateKeypair sodium true).1 =
    sodium.keypair.elim (.error .keyGeneration) .ok := by
  unfold generateKeypair
  rw [initCryptoLibrary, if_pos rfl, if_neg (not_not.mpr rfl)]
  cases sodium.keypair <;> rfl

inductive Registers (sodium : Sodium) (disk : Disk) (username : Bytes) (r : Registered) : Prop
  | kept (hdisk : r.disk = disk) (hresult : r.result ≠ some .success)
  | saved (home : Bytes) (keys : Key × Key) (password : Bytes) (hhome : disk.home = some home)
      (hnew : disk.files (keysPath home username) = none) (hkeys : sodium.keypair = some keys)
      (hsaves : r.saves = [password])
      (hdisk : r.disk = (saveKeysToFile sodium disk username keys.1 keys.2 password).disk)
      (hresult : r.result = some .success →
        (saveKeysToFile sodium disk username keys.1 keys.2 password).result = .success)

theorem registerUser_registers (turns : ℕ) (t : Terminal) (c : ClientState)
    (password confirm : Bytes) :
    Registers sodium disk username
      (registerUser sodium true turns disk t c password confirm username) := by
  unfold registerUser
  cases hhome : disk.home with
  | none => exact .kept rfl nofun
  | some home =>
    dsimp only
    split
    · exact .kept rfl nofun
    split
    · exact .kept rfl nofun
    next hfile =>
      have hnew := Option.not_isSome_iff_eq_none.mp hfile
      rw [generateKeypair_ready]
      cases hkeys : sodium.keypair with
      | none => exact .kept rfl nofun
      | some keys =>
        dsimp only [Option.elim_some]
        cases passwordLoop turns password confirm t with
        | unfinished => exact .kept rfl nofun
        | waiting t' => exact .kept rfl nofun
        | confirmed password confirm t' =>
          dsimp only
          split
          next hfails =>
            refine .saved home keys _ hhome hnew hkeys rfl rfl fun h ↦ ?_
            exact Option.some.inj h
          next hok =>
            have hsaved := not_not.mp hok
            split
            · exact .saved home keys _ hhome hnew hkeys rfl rfl fun _ ↦ hsaved
            · exact .saved home keys _ hhome hnew hkeys rfl rfl fun _ ↦ hsaved

theorem main_registers {posixlyCorrect : Bool} {argv : List Argument}
    (h : main sodium posixlyCorrect argv = .registerUser username) :
    validateUsername username = .success ∧ ∃ full,
      lastName (reports posixlyCorrect argv) = some full ∧
      username = full.take (maxUsernameLen - 1) ∧ given [0x72] (reports posixlyCorrect argv) ≠ [] := by
  unfold main at h
  dsimp only at h
  split at h
  · cases h
  by_cases hgoes : ∀ e ∈ reports posixlyCorrect argv, GoesOn e
  · obtain ⟨m, hparse, hsets⟩ :=
      parseOptions_goes (m := Modes.initial) (reports_formed posixlyCorrect argv) hgoes
    rw [hparse] at h
    dsimp only at h
    cases hlast : lastName (reports posixlyCorrect argv) with
    | none => exact absurd h (execute_nameless hsets hlast username).1
    | some full =>
      obtain ⟨opt, _, hmem⟩ := mem_given.mp (List.mem_of_getLast? hlast)
      have hname : m.username.bytes = full.take (maxUsernameLen - 1) := by
        rw [hsets.username, hlast]
        exact ofBytes_cut (reports_no_nul hmem full rfl)
      unfold execute at h
      split at h
      next hmode =>
        split at h
        · cases h
        next hvalid =>
          cases h
          refine ⟨not_not.mp hvalid, full, rfl, hname, ?_⟩
          exact (hsets.registerMode.mp hmode).resolve_left Bool.false_ne_true
      · split_ifs at h
  · obtain ⟨result, hparse⟩ := parseOptions_returns (m := Modes.initial) hgoes
    rw [hparse] at h
    cases h

/-- One run leaves every path alone, or puts a key file of its own where there was nothing. -/
theorem step_adds (d : Disk) (r : Run) :
    (step d r).files = d.files ∨ ∃ path content, KeyFile r path content ∧
      Adds d (step d r) path content := by
  unfold step
  cases hcommand : r.command with
  | returns result => exact .inl rfl
  | loginUser username => exact .inl rfl
  | listUsers => exact .inl rfl
  | registerUser username =>
    obtain ⟨hvalid, full, hlast, rfl, hgiven⟩ := main_registers hcommand
    have hregisters := @registerUser_registers r.sodium (r.disk d) (full.take (maxUsernameLen - 1))
      r.turns r.terminal (ClientState.initial r.env) r.password r.confirm
    dsimp only
    rw [← Run.registers] at hregisters
    generalize r.registers d (full.take (maxUsernameLen - 1)) = registered at hregisters ⊢
    cases hregisters with
    | kept hdisk =>
      left
      rw [hdisk]
      rfl
    | saved home keys password hhome hnew hkeys hsaves hdisk =>
      obtain hsame | ⟨record, content, hsealed, hprefix, hadds⟩ :=
        saveKeysToFile_adds keys.1 keys.2 password hhome hnew
      · left
        rw [hdisk, hsame]
        rfl
      · right
        refine ⟨_, content, ⟨⟨home, full, hhome, rfl, hvalid, hlast, hgiven⟩, keys, password, record,
          hkeys, hsealed, hprefix⟩, ?_⟩
        rw [hdisk]
        exact hadds

theorem run_keeps (rs : List Run) {path content : Bytes} (h : d.files path = some content) :
    (Runs.run step d rs).files path = some content := by
  refine Runs.run_invariant (Q := fun d' : Disk ↦ d'.files path = some content)
    (fun d' r hd' ↦ ?_) h rs
  obtain hsame | ⟨added, other, -, hnew, hfiles⟩ := step_adds d' r
  · rw [hsame, hd']
  · have hne : path ≠ added := by
      rintro rfl
      rw [hd'] at hnew
      cases hnew
    rw [hfiles, Function.update_of_ne hne, hd']

/-- The same library in two runs, which draw other random numbers: a password and a
salt give one key, and a box opens under the key and the nonce it was made with. -/
structure SameLibrary (sodium sodium' : Sodium) : Prop where
  pwhash : sodium'.pwhash = sodium.pwhash
  opens : ∀ message nonce key box, sodium.secretbox message nonce key = some box →
    box.length = message.length + macBytes ∧ sodium'.secretboxOpen box nonce key = some message

theorem openRecord_sealed {sodium' : Sodium} (h : SameLibrary sodium sodium')
    {publicKey privateKey : Key} {password : Bytes} {record : Record}
    (hsealed : sealedRecord sodium publicKey privateKey password = some record) (buffer : Key) :
    ∃ secrets, openRecord sodium' record.salt.toList record.nonce.toList record.publicKey
      record.encryptedPrivate.toList buffer password =
        ⟨.success, publicKey, privateKey, secrets⟩ := by
  obtain ⟨key, hkey, hbox⟩ := Option.bind_eq_some_iff.mp hsealed
  obtain ⟨box, hmade, rfl⟩ := Option.map_eq_some_iff.mp hbox
  obtain ⟨hlength, hopens⟩ := h.opens _ _ _ _ hmade
  rw [List.Vector.toList_length] at hlength
  have hread : (Block.read (privateKeySize + macBytes) box).toList = box :=
    List.take_left' hlength
  have hprivate := Block.read_append privateKey []
  rw [List.append_nil] at hprivate
  refine ⟨[secureZeroMemory key], ?_⟩
  unfold openRecord
  rw [h.pwhash, hkey]
  dsimp only
  rw [hread, hopens]
  dsimp only
  rw [hprivate]

/-- A save that reports success and loses nothing in the end leaves the whole record. -/
theorem saveKeysToFile_whole {publicKey privateKey : Key} {password home : Bytes}
    (hhome : disk.home = some home) (hflush : disk.faults.flush = none)
    (h : (saveKeysToFile sodium disk username publicKey privateKey password).result = .success) :
    ∃ record, sealedRecord sodium publicKey privateKey password = some record ∧
      (keysPath home username).length < pathMax ∧
      (saveKeysToFile sodium disk username publicKey privateKey password).disk.files
        (keysPath home username) = some record.bytes := by
  cases hopened : opened sodium disk username publicKey privateKey password with
  | none => exact absurd h (saveKeysToFile_unopened hopened).1
  | some file =>
    obtain ⟨path, record⟩ := file
    obtain ⟨rfl, hpath⟩ := opened_path hhome hopened
    obtain ⟨-, hsealed, made, secrets, -, -, hfaults, hsaved⟩ := saveKeysToFile_opened hopened
    refine ⟨record, hsealed, hpath, ?_⟩
    rw [hsaved] at h ⊢
    split at h
    next hwhole =>
      have hflushed : Flushed disk record := by
        unfold Flushed
        rw [hflush]
        exact nofun
      rw [if_pos hwhole, fwriteAll_whole hwhole]
      exact (flushed_iff hfaults).mpr hflushed
    · cases h

theorem plainSodium_same : SameLibrary plainSodium plainSodium := by
  refine ⟨rfl, fun message nonce key box hbox ↦ ?_⟩
  cases hbox
  refine ⟨by rw [List.length_append, List.length_replicate, Nat.add_comm], ?_⟩
  have hfront : (List.replicate macBytes (0 : UInt8) ++ message).take macBytes =
      List.replicate macBytes 0 := List.take_left' List.length_replicate
  rw [plainSodium]
  dsimp only
  rw [if_pos hfront, List.drop_left' List.length_replicate]

def argument (buffer : Bytes) : Argument := ⟨cString buffer, cString_no_nul buffer⟩

def plainRun (option name typed : Bytes) : Run where
  sodium := plainSodium
  posixlyCorrect := false
  argv := [argument (text "c-chat"), argument option, argument name]
  home := some (text "/home")
  faults := Faults.none
  terminal := ⟨typed, true, []⟩
  env := ⟨[], [], [], []⟩
  turns := 1
  password := stack
  confirm := stack
  publicKey := Block.zero _
  privateKey := Block.zero _

def aliceRegisters : Run := plainRun (text "-r") (text "alice") (text "pw\npw\n")

def aliceLogsIn : Run := plainRun (text "-l") (text "alice") (text "pw\n")

def bobRegisters : Run := plainRun (text "-r") (text "bob") (text "qw\nqw\n")

end CChat.Client.Accounts
