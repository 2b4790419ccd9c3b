import CChat.Client.KeyFiles

namespace CChat.Client.KeyLoading

open CChat.Protocol.Types Network Crypto KeyFiles

/-- What libsodium promises of the secret boxes that were made: each opens with
its key and nonce to its message, and nothing else opens. -/
structure LocksBoxes (sodium : Sodium) (made : Bytes → Bytes → Bytes → Bytes → Prop) : Prop where
  opens : ∀ {key nonce box message}, made key nonce box message →
    sodium.secretboxOpen box nonce key = some message
  only : ∀ {key nonce box message}, sodium.secretboxOpen box nonce key = some message →
    made key nonce box message ∧ sodium.secretbox message nonce key = some box

def keyFile (disk : Disk) (username : Bytes) : Option Bytes :=
  disk.home.bind fun home ↦
    if (keysPath home username).length < pathMax ∧ disk.faults.fopen = true then
      disk.files (keysPath home username)
    else none

def publicPart (content : Bytes) : Bytes := (content.drop 40).take publicKeySize

/-- The box of the file was made under its nonce and the key that its salt gives
with the password, and holds this message. -/
def Unlocks (sodium : Sodium) (made : Bytes → Bytes → Bytes → Bytes → Prop) (content password : Bytes)
    (message : Bytes) : Prop :=
  ∃ key, sodium.pwhash password (content.take saltBytes) = some key ∧
    made key ((content.drop 16).take nonceBytes) ((content.drop 72).take 48) message

/-- What a load leaves, whatever is in the file: on success the public part of
the file as it is and what is locked in the private part, otherwise the private
buffer as it was. -/
structure Returns (sodium : Sodium) (made : Bytes → Bytes → Bytes → Bytes → Prop) (content : Bytes)
    (publicKey privateKey : Key) (password : Bytes) (l : Loaded) : Prop where
  success : l.result = .success → 120 ≤ content.length ∧
    l.publicKey.toList = publicPart content ∧
    ∃ message, Unlocks sodium made content password message ∧
      l.privateKey = Block.read privateKeySize message
  kept : l.result ≠ .success → l.privateKey = privateKey ∧
    (l.publicKey = publicKey ∨ 40 < content.length ∧
      l.publicKey = Block.overwrite publicKey (publicPart content))

variable {sodium : Sodium} {made : Bytes → Bytes → Bytes → Bytes → Prop} {disk : Disk}
  {username password content : Bytes} {publicKey privateKey : Key} {r : Record}

theorem Block.overwrite_nil {n : ℕ} (b : Block n) : Block.overwrite b [] = b := by
  have hread := Block.read_append b []
  rw [List.append_nil] at hread
  exact hread

theorem openRecord_returns (h : LocksBoxes sodium made) (salt nonce box : Bytes)
    (publicKey privateKey : Key) (password : Bytes) :
    (openRecord sodium salt nonce publicKey box privateKey password).publicKey = publicKey ∧
      ((openRecord sodium salt nonce publicKey box privateKey password).result ≠ .success →
        (openRecord sodium salt nonce publicKey box privateKey password).privateKey = privateKey) ∧
      ((openRecord sodium salt nonce publicKey box privateKey password).result = .success →
        ∃ key message, sodium.pwhash password salt = some key ∧ made key nonce box message ∧
          (openRecord sodium salt nonce publicKey box privateKey password).privateKey =
            Block.read privateKeySize message) := by
  unfold openRecord
  split
  · exact ⟨rfl, fun _ ↦ rfl, nofun⟩
  next key hkey =>
    split
    · exact ⟨rfl, fun _ ↦ rfl, nofun⟩
    next message hopen =>
      exact ⟨rfl, fun hne ↦ absurd rfl hne, fun _ ↦ ⟨key, message, hkey, (h.only hopen).1, rfl⟩⟩

theorem readRecord_returns (h : LocksBoxes sodium made) (content : Bytes)
    (publicKey privateKey : Key) (password : Bytes) :
    Returns sodium made content publicKey privateKey password
      (readRecord sodium content publicKey privateKey password) := by
  unfold readRecord
  dsimp only
  split
  · exact ⟨nofun, fun _ ↦ ⟨rfl, .inl rfl⟩⟩
  next hfront =>
    have hdrop : (content.drop saltBytes).drop nonceBytes = content.drop 40 := List.drop_drop
    have hbehind : (content.drop 40).drop publicKeySize = content.drop 72 := List.drop_drop
    rw [hdrop, hbehind]
    split
    next hshort =>
      refine ⟨nofun, fun _ ↦ ⟨rfl, ?_⟩⟩
      obtain hlong | hlong := Nat.lt_or_ge 40 content.length
      · exact .inr ⟨hlong, rfl⟩
      · left
        rw [List.drop_eq_nil_of_le hlong, List.take_nil]
        exact Block.overwrite_nil publicKey
    next hwhole =>
      rw [not_or, not_not, not_not] at hwhole
      have hlong : 120 ≤ content.length := by
        have hbox := hwhole.2
        rw [List.length_take, List.length_drop] at hbox
        have hsize : privateKeySize + macBytes = 48 := rfl
        omega
      obtain ⟨hpublic, hkept, hopened⟩ := openRecord_returns h (content.take saltBytes)
        ((content.drop saltBytes).take nonceBytes)
        ((content.drop 72).take (privateKeySize + macBytes))
        (Block.overwrite publicKey ((content.drop 40).take publicKeySize)) privateKey password
      refine ⟨fun hsuccess ↦ ⟨hlong, ?_, ?_⟩, fun hfails ↦ ⟨hkept hfails, .inr ⟨by omega, hpublic⟩⟩⟩
      · rw [hpublic]
        exact Block.overwrite_all publicKey hwhole.1
      · obtain ⟨key, message, hkey, hmade, hprivate⟩ := hopened hsuccess
        exact ⟨message, ⟨key, hkey, hmade⟩, hprivate⟩

theorem loadKeysFromFile_none (h : keyFile disk username = none) (publicKey privateKey : Key) :
    loadKeysFromFile sodium disk username publicKey privateKey password =
      ⟨.fileIo, publicKey, privateKey, []⟩ := by
  unfold loadKeysFromFile
  unfold keyFile at h
  split
  · rfl
  next home hhome =>
    rw [hhome, Option.bind_some] at h
    dsimp only
    split
    · rfl
    next hpath =>
      have hfile : (if disk.faults.fopen then disk.files (keysPath home username) else none) =
          none := by
        cases hfopen : disk.faults.fopen with
        | true => simpa [hfopen, Nat.lt_of_not_le hpath] using h
        | false => rfl
      rw [hfile]

theorem loadKeysFromFile_some (h : keyFile disk username = some content)
    (publicKey privateKey : Key) :
    loadKeysFromFile sodium disk username publicKey privateKey password =
      readRecord sodium content publicKey privateKey password := by
  obtain ⟨home, hhome, h⟩ := Option.bind_eq_some_iff.mp h
  obtain ⟨⟨hpath, hfopen⟩, hfile⟩ := Option.ite_none_right_eq_some.mp h
  unfold loadKeysFromFile
  rw [hhome]
  dsimp only
  rw [if_neg (Nat.not_le_of_lt hpath), if_pos hfopen, hfile]

theorem sealedRecord_opens
    (hsealed : sealedRecord sodium publicKey privateKey password = some r) :
    r.publicKey = publicKey ∧ ∃ key, sodium.pwhash password r.salt.toList = some key := by
  obtain ⟨key, hkey, hsealed⟩ := Option.bind_eq_some_iff.mp hsealed
  obtain ⟨box, _, rfl⟩ := Option.map_eq_some_iff.mp hsealed
  exact ⟨rfl, key, hkey⟩

theorem openRecord_sealed (h : LocksBoxes sodium made)
    (hsealed : sealedRecord sodium publicKey privateKey password = some r)
    (hmade : ∀ key, sodium.pwhash password r.salt.toList = some key →
      made key r.nonce.toList r.encryptedPrivate.toList privateKey.toList) (buffer : Key) :
    (openRecord sodium r.salt.toList r.nonce.toList r.publicKey r.encryptedPrivate.toList buffer
        password).result = .success ∧
      (openRecord sodium r.salt.toList r.nonce.toList r.publicKey r.encryptedPrivate.toList buffer
        password).publicKey = publicKey ∧
      (openRecord sodium r.salt.toList r.nonce.toList r.publicKey r.encryptedPrivate.toList buffer
        password).privateKey = privateKey := by
  obtain ⟨hpublic, key, hkey⟩ := sealedRecord_opens hsealed
  have hread := Block.read_append privateKey []
  rw [List.append_nil] at hread
  unfold openRecord
  rw [hkey]
  dsimp only
  rw [h.opens (hmade key hkey)]
  exact ⟨rfl, hpublic, hread⟩

def savedRecord : Record :=
  ⟨Block.zero _, Block.zero _, Block.zero _, Block.zero _⟩

def OnlyBox (key nonce box message : Bytes) : Prop :=
  key = text "pw" ∧ nonce = savedRecord.nonce.toList ∧ box = savedRecord.encryptedPrivate.toList ∧
    message = (Block.zero privateKeySize).toList

instance (key nonce box message : Bytes) : Decidable (OnlyBox key nonce box message) :=
  inferInstanceAs (Decidable (_ ∧ _ ∧ _ ∧ _))

def oneBoxSodium : Sodium := { plainSodium with
  secretboxOpen := fun box nonce key ↦
    if OnlyBox key nonce box (Block.zero privateKeySize).toList then
      some (Block.zero privateKeySize).toList
    else none }

theorem oneBoxSodium_locks : LocksBoxes oneBoxSodium OnlyBox := by
  refine ⟨fun {key nonce box message} hmade ↦ ?_, fun {key nonce box message} hopen ↦ ?_⟩
  · obtain ⟨hkey, hnonce, hbox, rfl⟩ := hmade
    exact if_pos ⟨hkey, hnonce, hbox, rfl⟩
  · obtain ⟨⟨hkey, hnonce, hbox, _⟩, hmessage⟩ := Option.ite_none_right_eq_some.mp hopen
    obtain rfl := Option.some.inj hmessage
    refine ⟨⟨hkey, hnonce, hbox, rfl⟩, ?_⟩
    rw [hbox]
    rfl

def savedDisk (content : Bytes) : Disk := { emptyDisk with files := fun _ ↦ some content }

theorem sealedRecord_zero : sealedRecord oneBoxSodium (Block.zero _) (Block.zero _) (text "pw") =
    some savedRecord := by decide +kernel

def changedContent : Bytes := savedRecord.bytes.set 40 7

end CChat.Client.KeyLoading
