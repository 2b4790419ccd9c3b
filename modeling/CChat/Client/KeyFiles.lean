import Mathlib.Logic.Function.Basic
import CChat.Client.Crypto

namespace CChat.Client.KeyFiles

open CChat.Protocol.Types Network Crypto

abbrev pathMax : ℕ := 4096

/-- What goes wrong with the files during one call: whether `mkdir`, `fopen`
and `unlink` succeed, how many bytes each `fwrite` takes and how many of the
bytes it is left with `fclose` brings to the disk (`none` for all of them). -/
structure Faults where
  mkdir : Bool
  fopen : Bool
  fwrites : List (Option ℕ)
  flush : Option ℕ
  unlink : Bool

def Faults.none : Faults := ⟨true, true, [], .none, true⟩

structure Disk where
  home : Option Bytes
  files : Bytes → Option Bytes
  directories : Bytes → Bool
  faults : Faults

def keysDirectory (home : Bytes) : Bytes := home ++ text "/.c-chat"

def keysPath (home username : Bytes) : Bytes :=
  keysDirectory home ++ text "/" ++ username ++ text ".keys"

def Disk.put (disk : Disk) (path : Bytes) (content : Option Bytes) : Disk :=
  { disk with files := Function.update disk.files path content }

def createKeysDirectory (disk : Disk) : CchatError × Disk :=
  match disk.home with
  | none => (.fileIo, disk)
  | some home =>
    if (keysDirectory home).length ≥ pathMax then (.fileIo, disk)
    else if disk.directories (keysDirectory home) then (.success, disk)
    else if !disk.faults.mkdir then (.fileIo, disk)
    else (.success, { disk with
      directories := Function.update disk.directories (keysDirectory home) true })

/-- `fwrite`s joined by `||`, the first short one the last: whether all were
whole, and the bytes that were taken. -/
def fwriteAll : List (Option ℕ) → List Bytes → Bool × Bytes
  | _, [] => (true, [])
  | outcomes, part :: parts =>
    let taken := part.take ((outcomes.headD none).getD part.length)
    if taken.length ≠ part.length then (false, taken)
    else
      let rest := fwriteAll outcomes.tail parts
      (rest.1, taken ++ rest.2)

def fclose (disk : Disk) (path written : Bytes) : Disk :=
  disk.put path (some (written.take (disk.faults.flush.getD written.length)))

def unlink (disk : Disk) (path : Bytes) : Disk :=
  if disk.faults.unlink then disk.put path none else disk

def secureZeroMemory (buffer : Bytes) : Bytes := List.replicate buffer.length 0

structure Record where
  salt : Block saltBytes
  nonce : Block nonceBytes
  publicKey : Key
  encryptedPrivate : Block (privateKeySize + macBytes)
deriving DecidableEq

def Record.parts (r : Record) : List Bytes :=
  [r.salt.toList, r.nonce.toList, r.publicKey.toList, r.encryptedPrivate.toList]

def Record.bytes (r : Record) : Bytes := r.parts.flatten

/-- What a call on a key file leaves. `secrets` holds the local buffers that a
secret was written to, as they are when it returns. -/
structure Saved where
  result : CchatError
  disk : Disk
  secrets : List Bytes

/-- `save_keys_to_file`. The permissions that it sets at its end only make it
print a warning when they cannot be set. -/
def saveKeysToFile (sodium : Sodium) (disk : Disk) (username : Bytes) (publicKey privateKey : Key)
    (password : Bytes) : Saved :=
  let created := createKeysDirectory disk
  if created.1 ≠ .success then ⟨.fileIo, created.2, []⟩
  else
    match created.2.home with
    | none => ⟨.fileIo, created.2, []⟩
    | some home =>
      let path := keysPath home username
      if path.length ≥ pathMax then ⟨.fileIo, created.2, []⟩
      else
        let salt := Block.read saltBytes (sodium.randombytes saltBytes)
        match sodium.pwhash password salt.toList with
        | none => ⟨.keyDerivation, created.2, []⟩
        | some derivedKey =>
          let nonce := Block.read nonceBytes (sodium.randombytes nonceBytes)
          match sodium.secretbox privateKey.toList nonce.toList derivedKey with
          | none => ⟨.encryption, created.2, [secureZeroMemory derivedKey]⟩
          | some encrypted =>
            let record : Record := ⟨salt, nonce, publicKey, Block.read _ encrypted⟩
            if !created.2.faults.fopen then
              ⟨.fileIo, created.2, [secureZeroMemory derivedKey]⟩
            else
              let written := fwriteAll created.2.faults.fwrites record.parts
              let closed := fclose created.2 path written.2
              if !written.1 then
                ⟨.fileIo, unlink closed path, [secureZeroMemory derivedKey]⟩
              else ⟨.success, closed, [secureZeroMemory derivedKey]⟩

structure Loaded where
  result : CchatError
  publicKey : Key
  privateKey : Key
  secrets : List Bytes

def Block.overwrite {n : ℕ} (b : Block n) (bytes : Bytes) : Block n :=
  Block.read n (bytes ++ b.toList.drop bytes.length)

/-- The end of `load_keys_from_file`, when the four parts are read. -/
def openRecord (sodium : Sodium) (salt nonce : Bytes) (publicKey : Key) (encryptedPrivate : Bytes)
    (privateKey : Key) (password : Bytes) : Loaded :=
  match sodium.pwhash password salt with
  | none => ⟨.keyDerivation, publicKey, privateKey, []⟩
  | some derivedKey =>
    match sodium.secretboxOpen encryptedPrivate nonce derivedKey with
    | none => ⟨.decryption, publicKey, privateKey, [secureZeroMemory derivedKey]⟩
    | some opened =>
      ⟨.success, publicKey, Block.read privateKeySize opened, [secureZeroMemory derivedKey]⟩

/-- The `fread`s of `load_keys_from_file`, joined by `||`, and what follows. -/
def readRecord (sodium : Sodium) (content : Bytes) (publicKey privateKey : Key)
    (password : Bytes) : Loaded :=
  let salt := content.take saltBytes
  let behindSalt := content.drop saltBytes
  let nonce := behindSalt.take nonceBytes
  let behindNonce := behindSalt.drop nonceBytes
  let readKey := behindNonce.take publicKeySize
  let encryptedPrivate := (behindNonce.drop publicKeySize).take (privateKeySize + macBytes)
  if salt.length ≠ saltBytes ∨ nonce.length ≠ nonceBytes then
    ⟨.fileIo, publicKey, privateKey, []⟩
  else
    let publicKey := Block.overwrite publicKey readKey
    if readKey.length ≠ publicKeySize ∨ encryptedPrivate.length ≠ privateKeySize + macBytes then
      ⟨.fileIo, publicKey, privateKey, []⟩
    else openRecord sodium salt nonce publicKey encryptedPrivate privateKey password

def loadKeysFromFile (sodium : Sodium) (disk : Disk) (username : Bytes)
    (publicKey privateKey : Key) (password : Bytes) : Loaded :=
  match disk.home with
  | none => ⟨.fileIo, publicKey, privateKey, []⟩
  | some home =>
    let path := keysPath home username
    if path.length ≥ pathMax then ⟨.fileIo, publicKey, privateKey, []⟩
    else
      match if disk.faults.fopen then disk.files path else none with
      | none => ⟨.fileIo, publicKey, privateKey, []⟩
      | some content => readRecord sodium content publicKey privateKey password

def sealedRecord (sodium : Sodium) (publicKey privateKey : Key) (password : Bytes) :
    Option Record :=
  let salt := Block.read saltBytes (sodium.randombytes saltBytes)
  (sodium.pwhash password salt.toList).bind fun derivedKey ↦
    let nonce := Block.read nonceBytes (sodium.randombytes nonceBytes)
    (sodium.secretbox privateKey.toList nonce.toList derivedKey).map fun encrypted ↦
      ⟨salt, nonce, publicKey, Block.read _ encrypted⟩

def opened (sodium : Sodium) (disk : Disk) (username : Bytes) (publicKey privateKey : Key)
    (password : Bytes) : Option (Bytes × Record) :=
  if (createKeysDirectory disk).1 = .success then
    disk.home.bind fun home ↦
      if (keysPath home username).length < pathMax ∧ disk.faults.fopen = true then
        (sealedRecord sodium publicKey privateKey password).map fun r ↦ (keysPath home username, r)
      else none
  else none

def Whole (disk : Disk) (r : Record) : Prop := (fwriteAll disk.faults.fwrites r.parts).1 = true

/-- `fclose` brings the whole record to the disk. -/
def Flushed (disk : Disk) (r : Record) : Prop := ∀ n ∈ disk.faults.flush, r.bytes.length ≤ n

/-- A key file that is reported as saved is complete, and none is left behind
when an error is reported. -/
structure SavedOrNothing (sodium : Sodium) (disk : Disk) (username : Bytes)
    (publicKey privateKey : Key) (password : Bytes) : Prop where
  complete : (saveKeysToFile sodium disk username publicKey privateKey password).result = .success →
    ∃ home r, disk.home = some home ∧ sealedRecord sodium publicKey privateKey password = some r ∧
      (saveKeysToFile sodium disk username publicKey privateKey password).disk.files
        (keysPath home username) = some r.bytes ∧
      ∀ buffer buffer', loadKeysFromFile sodium { (saveKeysToFile sodium disk username publicKey
          privateKey password).disk with faults := .none } username buffer buffer' password =
        openRecord sodium r.salt.toList r.nonce.toList r.publicKey r.encryptedPrivate.toList buffer'
          password
  nothing : (saveKeysToFile sodium disk username publicKey privateKey password).result ≠ .success →
    ∀ home, disk.home = some home →
      (saveKeysToFile sodium disk username publicKey privateKey password).disk.files
        (keysPath home username) = none

variable {sodium : Sodium} {disk : Disk} {username password : Bytes} {publicKey privateKey : Key}
  {path : Bytes} {r : Record}

theorem createKeysDirectory_keeps (disk : Disk) :
    (createKeysDirectory disk).2.home = disk.home ∧ (createKeysDirectory disk).2.files = disk.files ∧
      (createKeysDirectory disk).2.faults = disk.faults := by
  unfold createKeysDirectory
  split
  · exact ⟨rfl, rfl, rfl⟩
  · split_ifs <;> exact ⟨rfl, rfl, rfl⟩

theorem fwriteAll_whole {outcomes : List (Option ℕ)} {parts : List Bytes}
    (h : (fwriteAll outcomes parts).1 = true) : (fwriteAll outcomes parts).2 = parts.flatten := by
  induction parts generalizing outcomes with
  | nil => rfl
  | cons part parts ih =>
    unfold fwriteAll at h ⊢
    dsimp only at h ⊢
    by_cases hshort : (part.take ((outcomes.headD none).getD part.length)).length ≠ part.length
    · rw [if_pos hshort] at h
      cases h
    · rw [if_neg hshort] at h ⊢
      rw [not_not, List.length_take] at hshort
      rw [ih h, List.take_of_length_le (by omega), List.flatten_cons]

theorem fwriteAll_faultless (parts : List Bytes) : (fwriteAll [] parts).1 = true := by
  induction parts with
  | nil => rfl
  | cons part parts ih =>
    unfold fwriteAll
    simpa using ih

theorem saveKeysToFile_opened
    (h : opened sodium disk username publicKey privateKey password = some (path, r)) :
    disk.home.map (fun home ↦ keysPath home username) = some path ∧
      sealedRecord sodium publicKey privateKey password = some r ∧
      ∃ made secrets, made.home = disk.home ∧ made.files = disk.files ∧ made.faults = disk.faults ∧
        saveKeysToFile sodium disk username publicKey privateKey password =
          if (fwriteAll disk.faults.fwrites r.parts).1 then
            ⟨.success, fclose made path (fwriteAll disk.faults.fwrites r.parts).2, secrets⟩
          else ⟨.fileIo, unlink (fclose made path (fwriteAll disk.faults.fwrites r.parts).2) path,
            secrets⟩ := by
  obtain ⟨hhome, hfiles, hfaults⟩ := createKeysDirectory_keeps disk
  unfold opened at h
  split at h
  next hmade =>
    obtain ⟨home, hdisk, h⟩ := Option.bind_eq_some_iff.mp h
    obtain ⟨⟨hpath, hfopen⟩, h⟩ := Option.ite_none_right_eq_some.mp h
    obtain ⟨r', hsealed, heq⟩ := Option.map_eq_some_iff.mp h
    obtain ⟨rfl, rfl⟩ := Prod.mk.inj heq
    refine ⟨by rw [hdisk]; rfl, hsealed, ?_⟩
    obtain ⟨derivedKey, hderived, h⟩ := Option.bind_eq_some_iff.mp hsealed
    obtain ⟨encrypted, hbox, rfl⟩ := Option.map_eq_some_iff.mp h
    refine ⟨(createKeysDirectory disk).2, [secureZeroMemory derivedKey], hhome, hfiles, hfaults, ?_⟩
    unfold saveKeysToFile
    dsimp only
    rw [if_neg (not_not.mpr hmade), hhome, hdisk]
    dsimp only
    rw [if_neg (Nat.not_le_of_lt hpath), hderived]
    dsimp only
    rw [hbox]
    dsimp only
    rw [hfaults, hfopen, if_neg (by decide)]
    cases (fwriteAll disk.faults.fwrites (Record.parts ⟨_, _, publicKey, Block.read _ encrypted⟩)).1 with
    | true => rfl
    | false => rfl
  · cases h

theorem saveKeysToFile_unopened
    (h : opened sodium disk username publicKey privateKey password = none) :
    (saveKeysToFile sodium disk username publicKey privateKey password).result ≠ .success ∧
      (saveKeysToFile sodium disk username publicKey privateKey password).disk.files =
        disk.files := by
  obtain ⟨hhome, hfiles, hfaults⟩ := createKeysDirectory_keeps disk
  unfold opened at h
  unfold saveKeysToFile
  dsimp only
  split
  · exact ⟨nofun, hfiles⟩
  next hmade =>
    rw [if_pos (not_not.mp hmade)] at h
    split
    · exact ⟨nofun, hfiles⟩
    next home hsome =>
      rw [hhome] at hsome
      rw [hsome, Option.bind_some] at h
      split
      · exact ⟨nofun, hfiles⟩
      next hpath =>
        split
        · exact ⟨nofun, hfiles⟩
        next derivedKey hderived =>
          split
          · exact ⟨nofun, hfiles⟩
          next encrypted hbox =>
            split
            · exact ⟨nofun, hfiles⟩
            next hfopen =>
              rw [hfaults] at hfopen
              rw [if_pos ⟨Nat.lt_of_not_le hpath, by simpa using hfopen⟩, sealedRecord, hderived,
                Option.bind_some] at h
              dsimp only at h
              rw [hbox] at h
              cases h

theorem Record.bytes_eq (r : Record) : r.bytes =
    r.salt.toList ++ (r.nonce.toList ++ (r.publicKey.toList ++ r.encryptedPrivate.toList)) := by
  simp [Record.bytes, Record.parts]

theorem Record.bytes_length (r : Record) : r.bytes.length = 120 := by
  rw [Record.bytes_eq]
  simp only [List.length_append, List.Vector.toList_length]
  rfl

theorem Block.overwrite_all {n : ℕ} (b : Block n) {bytes : Bytes} (h : bytes.length = n) :
    (Block.overwrite b bytes).toList = bytes := by
  have hdrop : b.toList.drop bytes.length = [] := by
    rw [h]
    exact List.drop_eq_nil_of_le (Nat.le_of_eq b.toList_length)
  have htake : (bytes ++ List.replicate n 0).take n = bytes := List.take_left' h
  rw [Block.overwrite, hdrop, List.append_nil]
  exact htake

theorem readRecord_bytes (r : Record) (publicKey privateKey : Key) (password : Bytes) :
    readRecord sodium r.bytes publicKey privateKey password =
      openRecord sodium r.salt.toList r.nonce.toList r.publicKey r.encryptedPrivate.toList
        privateKey password := by
  have hsalt : r.salt.toList.length = saltBytes := r.salt.toList_length
  have hnonce : r.nonce.toList.length = nonceBytes := r.nonce.toList_length
  have hkey : r.publicKey.toList.length = publicKeySize := r.publicKey.toList_length
  have hbox : r.encryptedPrivate.toList.length = privateKeySize + macBytes :=
    r.encryptedPrivate.toList_length
  have hread : Block.overwrite publicKey r.publicKey.toList = r.publicKey :=
    Subtype.ext (Block.overwrite_all publicKey hkey)
  unfold readRecord
  dsimp only
  rw [Record.bytes_eq, List.take_left' hsalt, List.drop_left' hsalt, List.take_left' hnonce,
    List.drop_left' hnonce, List.take_left' hkey, List.drop_left' hkey,
    List.take_of_length_le (Nat.le_of_eq hbox), hread, if_neg (by rw [hsalt, hnonce]; simp),
    if_neg (by rw [hkey, hbox]; simp)]

theorem opened_path {home : Bytes} (hhome : disk.home = some home)
    (h : opened sodium disk username publicKey privateKey password = some (path, r)) :
    path = keysPath home username ∧ (keysPath home username).length < pathMax := by
  unfold opened at h
  split at h
  · rw [hhome, Option.bind_some] at h
    obtain ⟨⟨hpath, _⟩, h⟩ := Option.ite_none_right_eq_some.mp h
    obtain ⟨_, _, heq⟩ := Option.map_eq_some_iff.mp h
    exact ⟨(Prod.mk.inj heq).1.symm, hpath⟩
  · cases h

theorem loadKeysFromFile_record {home : Bytes} (hhome : disk.home = some home)
    (hpath : (keysPath home username).length < pathMax) (hfopen : disk.faults.fopen = true)
    (hfile : disk.files (keysPath home username) = some r.bytes) (publicKey privateKey : Key) :
    loadKeysFromFile sodium disk username publicKey privateKey password =
      openRecord sodium r.salt.toList r.nonce.toList r.publicKey r.encryptedPrivate.toList
        privateKey password := by
  unfold loadKeysFromFile
  rw [hhome]
  dsimp only
  rw [if_neg (Nat.not_le_of_lt hpath), hfopen, if_pos rfl, hfile]
  exact readRecord_bytes r publicKey privateKey password

/-- The file is complete after whole writes when the flush of `fclose` loses nothing. -/
theorem flushed_iff {made : Disk} (hfaults : made.faults = disk.faults) :
    (fclose made path r.bytes).files path = some r.bytes ↔ Flushed disk r := by
  unfold fclose Disk.put Flushed
  dsimp only
  rw [Function.update_self, hfaults]
  cases disk.faults.flush with
  | none => simp
  | some n =>
    simp only [Option.getD_some, Option.some.injEq, Option.mem_some_iff, forall_eq']
    exact List.take_eq_self_iff _

theorem unlinked_iff {made : Disk} (hfaults : made.faults = disk.faults) (written : Bytes) :
    (unlink (fclose made path written) path).files path = none ↔ disk.faults.unlink = true := by
  have hsame : (fclose made path written).faults = disk.faults := hfaults
  unfold unlink
  rw [hsame]
  cases disk.faults.unlink with
  | true => exact iff_of_true (Function.update_self ..) rfl
  | false =>
    have hfile : (fclose made path written).files path =
        some (written.take (made.faults.flush.getD written.length)) := Function.update_self ..
    refine iff_of_false (fun h ↦ ?_) (by decide)
    rw [if_neg (by decide), hfile] at h
    cases h

section Opened

variable {home : Bytes} (hhome : disk.home = some home)
  (hopened : opened sodium disk username publicKey privateKey password =
    some (keysPath home username, r))

include hhome hopened

theorem saved_whole_iff (hwhole : Whole disk r) :
    SavedOrNothing sodium disk username publicKey privateKey password ↔ Flushed disk r := by
  obtain ⟨_, hsealed, made, secrets, hmade, _, hfaults, hsaved⟩ := saveKeysToFile_opened hopened
  have hall : (fwriteAll disk.faults.fwrites r.parts).1 = true := hwhole
  have hbytes : (fwriteAll disk.faults.fwrites r.parts).2 = r.bytes := fwriteAll_whole hall
  rw [hbytes, if_pos hall] at hsaved
  rw [← @flushed_iff disk (keysPath home username) r made hfaults]
  constructor
  · intro h
    obtain ⟨home', r', hhome', hsealed', hfile, _⟩ := h.complete (by rw [hsaved])
    obtain rfl := Option.some.inj (hhome.symm.trans hhome')
    obtain rfl := Option.some.inj (hsealed.symm.trans hsealed')
    rwa [hsaved] at hfile
  · intro hfile
    refine ⟨fun _ ↦ ⟨home, r, hhome, hsealed, by rw [hsaved]; exact hfile, fun buffer buffer' ↦ ?_⟩,
      fun h ↦ absurd (by rw [hsaved]) h⟩
    rw [hsaved]
    exact @loadKeysFromFile_record sodium
      { fclose made (keysPath home username) r.bytes with faults := .none } username password r
      home (hmade.trans hhome) (opened_path hhome hopened).2 rfl hfile buffer buffer'

/-- After a short write an error is reported, so `unlink` decides. -/
theorem saved_short_iff (hshort : ¬ Whole disk r) :
    SavedOrNothing sodium disk username publicKey privateKey password ↔
      disk.faults.unlink = true := by
  obtain ⟨_, _, made, secrets, _, _, hfaults, hsaved⟩ := saveKeysToFile_opened hopened
  have hcut : ¬ (fwriteAll disk.faults.fwrites r.parts).1 = true := hshort
  rw [if_neg hcut] at hsaved
  rw [← @unlinked_iff disk (keysPath home username) made hfaults
    (fwriteAll disk.faults.fwrites r.parts).2]
  constructor
  · intro h
    have hnone := h.nothing (by rw [hsaved]; nofun) home hhome
    rwa [hsaved] at hnone
  · intro hnone
    refine ⟨fun h ↦ ?_, fun _ home' hhome' ↦ ?_⟩
    · rw [hsaved] at h
      cases h
    · obtain rfl := Option.some.inj (hhome.symm.trans hhome')
      rw [hsaved]
      exact hnone

end Opened

/-- A key file is saved or reported when the file is never opened, when the
writes and the flush are whole, or when the file of a short write is unlinked. -/
theorem saved_or_nothing_iff (hnew : ∀ home, disk.home = some home →
      disk.files (keysPath home username) = none) :
    SavedOrNothing sodium disk username publicKey privateKey password ↔
      ∀ path r, opened sodium disk username publicKey privateKey password = some (path, r) →
        Whole disk r ∧ Flushed disk r ∨ ¬ Whole disk r ∧ disk.faults.unlink = true := by
  cases hopened : opened sodium disk username publicKey privateKey password with
  | none =>
    obtain ⟨hfails, hfiles⟩ := saveKeysToFile_unopened hopened
    refine iff_of_true ⟨fun h ↦ absurd h hfails, fun _ home hhome ↦ ?_⟩ nofun
    rw [hfiles]
    exact hnew home hhome
  | some o =>
    obtain ⟨path, r⟩ := o
    obtain ⟨home, hhome, rfl⟩ := Option.map_eq_some_iff.mp (saveKeysToFile_opened hopened).1
    have hall : (∀ path' r', some (keysPath home username, r) = some (path', r') →
        Whole disk r' ∧ Flushed disk r' ∨ ¬ Whole disk r' ∧ disk.faults.unlink = true) ↔
          (Whole disk r ∧ Flushed disk r ∨ ¬ Whole disk r ∧ disk.faults.unlink = true) := by
      refine ⟨fun h ↦ h _ r rfl, fun h path' r' heq ↦ ?_⟩
      obtain ⟨_, rfl⟩ := Prod.mk.inj (Option.some.inj heq)
      exact h
    rw [hall]
    by_cases hwhole : Whole disk r
    · rw [saved_whole_iff hhome hopened hwhole, or_iff_left (fun h ↦ h.1 hwhole),
        and_iff_right hwhole]
    · rw [saved_short_iff hhome hopened hwhole, or_iff_right (fun h ↦ hwhole h.1),
        and_iff_right hwhole]

def emptyDisk : Disk := ⟨some [0x2F], fun _ ↦ none, fun _ ↦ false, .none⟩

theorem saved_or_nothing_empty :
    SavedOrNothing plainSodium emptyDisk [0x61] (Block.zero _) (Block.zero _) (text "pw") := by
  refine (saved_or_nothing_iff (fun _ _ ↦ rfl)).mpr (fun path r _ ↦
    .inl ⟨fwriteAll_faultless r.parts, ?_⟩)
  intro n hn
  cases hn

/-- The disk is full when `fclose` flushes the key file. -/
def fullDisk : Disk := { emptyDisk with faults := { Faults.none with flush := some 0 } }

theorem lost_flush_reported_saved :
    (saveKeysToFile plainSodium fullDisk [0x61] (Block.zero _) (Block.zero _) (text "pw")).result =
        .success ∧
      (saveKeysToFile plainSodium fullDisk [0x61] (Block.zero _) (Block.zero _)
        (text "pw")).disk.files (keysPath [0x2F] [0x61]) = some [] ∧
      ¬ SavedOrNothing plainSodium fullDisk [0x61] (Block.zero _) (Block.zero _) (text "pw") := by
  have hresult : (saveKeysToFile plainSodium fullDisk [0x61] (Block.zero _) (Block.zero _)
      (text "pw")).result = .success := by decide +kernel
  have hfile : (saveKeysToFile plainSodium fullDisk [0x61] (Block.zero _) (Block.zero _)
      (text "pw")).disk.files (keysPath [0x2F] [0x61]) = some [] := by decide +kernel
  refine ⟨hresult, hfile, fun h ↦ ?_⟩
  obtain ⟨home, r, hhome, _, hcomplete, _⟩ := h.complete hresult
  obtain rfl := Option.some.inj hhome
  rw [hfile] at hcomplete
  have hlength := congrArg List.length (Option.some.inj hcomplete)
  rw [Record.bytes_length] at hlength
  cases hlength

end CChat.Client.KeyFiles
