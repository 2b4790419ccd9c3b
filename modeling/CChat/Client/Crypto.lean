import CChat.Client.Network

namespace CChat.Client.Crypto

open CChat.Protocol.Types Network

abbrev sealBytes : ℕ := 48
abbrev saltBytes : ℕ := 16
abbrev nonceBytes : ℕ := 24
abbrev macBytes : ℕ := 16
abbrev privateKeySize : ℕ := 32

/-- The functions of libsodium the client calls. `none` stands for a result
other than zero; what a function draws at random is part of the function. -/
structure Sodium where
  init : Bool
  keypair : Option (Key × Key)
  scalarmultBase : Key → Key
  boxSeal : Bytes → Key → Option Bytes
  boxSealOpen : Bytes → Key → Key → Option Bytes
  randombytes : ℕ → Bytes
  pwhash : Bytes → Bytes → Option Bytes
  secretbox : Bytes → Bytes → Bytes → Option Bytes
  secretboxOpen : Bytes → Bytes → Bytes → Option Bytes

variable (sodium : Sodium)

/-- `init_crypto_library`; the flag is `crypto_initialized`. -/
def initCryptoLibrary (initialized : Bool) : CchatError × Bool :=
  if initialized then (.success, true)
  else if !sodium.init then (.crypto, false)
  else (.success, true)

def generateKeypair (initialized : Bool) : Except CchatError (Key × Key) × Bool :=
  let ready := initCryptoLibrary sodium initialized
  if ready.1 ≠ .success then (.error ready.1, ready.2)
  else
    match sodium.keypair with
    | none => (.error .keyGeneration, ready.2)
    | some keys => (.ok keys, ready.2)

/-- `encrypt_message` on the bytes `strlen` counts. -/
def encryptMessage (initialized : Bool) (message : Bytes) (recipientPublicKey : Key) :
    Except CchatError Bytes × Bool :=
  if message.length = 0 ∨ message.length > maxMessageLen then (.error .invalidArgs, initialized)
  else
    let ready := initCryptoLibrary sodium initialized
    if ready.1 ≠ .success then (.error ready.1, ready.2)
    else
      match sodium.boxSeal message recipientPublicKey with
      | none => (.error .encryption, ready.2)
      | some encrypted => (.ok encrypted, ready.2)

/-- An array of `size` bytes and what was stored at and behind its start: the
stores of C do not stop at its end. -/
structure Region where
  size : ℕ
  stored : Bytes
deriving DecidableEq

def Region.fresh (size : ℕ) : Region := ⟨size, []⟩

def Region.store (r : Region) (offset : ℕ) (bytes : Bytes) : Region :=
  { r with stored := r.stored.take offset ++ bytes ++ r.stored.drop (offset + bytes.length) }

def Region.zero (r : Region) : Region := r.store 0 (List.replicate r.size 0)

def Region.Inside (r : Region) : Prop := r.stored.length ≤ r.size

structure Decrypted where
  result : CchatError
  message : Region
  decryptedBuffer : Region

def decryptMessage (initialized : Bool) (encrypted : Bytes) (privateKey : Key) (message : Region) :
    Decrypted :=
  let decryptedBuffer := Region.fresh (maxMessageLen + 1)
  if encrypted.length = 0 then ⟨.invalidArgs, message, decryptedBuffer⟩
  else
    let ready := initCryptoLibrary sodium initialized
    if ready.1 ≠ .success then ⟨ready.1, message, decryptedBuffer⟩
    else
      let publicKey := sodium.scalarmultBase privateKey
      match sodium.boxSealOpen encrypted publicKey privateKey with
      | none => ⟨.decryption, message, decryptedBuffer⟩
      | some plaintext =>
        let opened := decryptedBuffer.store 0 plaintext
        let messageLen := encrypted.length - sealBytes
        let terminated := opened.store messageLen [0]
        let copied := message.store 0 (terminated.stored.take (messageLen + 1))
        ⟨.success, copied, terminated.zero⟩

/-- What libsodium documents of sealed boxes: opening one gives `SEALBYTES`
bytes less, and what was sealed to a key opens with it. -/
structure Sodium.SealsBoxes (sodium : Sodium) : Prop where
  open_length : ∀ {encrypted publicKey privateKey plaintext},
    sodium.boxSealOpen encrypted publicKey privateKey = some plaintext →
      encrypted.length = plaintext.length + sealBytes
  open_seal : ∀ {plaintext privateKey encrypted},
    sodium.boxSeal plaintext (sodium.scalarmultBase privateKey) = some encrypted →
      sodium.boxSealOpen encrypted (sodium.scalarmultBase privateKey) privateKey = some plaintext
  seal_any : ∀ plaintext publicKey, (sodium.boxSeal plaintext publicKey).isSome = true

def received (sodium : Sodium) (initialized : Bool) (encrypted : Bytes) (privateKey : Key) :
    Decrypted :=
  decryptMessage sodium initialized encrypted privateKey (Region.fresh maxMessageLen)

def Decrypted.Inside (d : Decrypted) : Prop := d.decryptedBuffer.Inside ∧ d.message.Inside

def Decrypted.GivesBack (d : Decrypted) (message : Bytes) : Prop :=
  d.Inside ∧ d.result = .success ∧ d.message.stored = message ++ [0]

def Opens (sodium : Sodium) (initialized : Bool) (encrypted : Bytes) (privateKey : Key) : Prop :=
  (initCryptoLibrary sodium initialized).1 = .success ∧
    (sodium.boxSealOpen encrypted (sodium.scalarmultBase privateKey) privateKey).isSome = true

variable {sodium} {initialized : Bool} {encrypted plaintext message : Bytes} {privateKey : Key}

theorem received_closed (h : ¬ Opens sodium initialized encrypted privateKey) :
    (received sodium initialized encrypted privateKey).Inside := by
  have hnothing : ∀ result, Decrypted.Inside
      ⟨result, Region.fresh maxMessageLen, Region.fresh (maxMessageLen + 1)⟩ :=
    fun _ ↦ ⟨Nat.zero_le _, Nat.zero_le _⟩
  unfold received decryptMessage
  dsimp only
  split
  · exact hnothing _
  · split
    · exact hnothing _
    next hready =>
      cases hopen : sodium.boxSealOpen encrypted (sodium.scalarmultBase privateKey) privateKey with
      | none => exact hnothing _
      | some plaintext => exact absurd ⟨not_not.mp hready, by rw [hopen]; rfl⟩ h

theorem received_opened (h : sodium.SealsBoxes)
    (hready : (initCryptoLibrary sodium initialized).1 = .success)
    (hopen : sodium.boxSealOpen encrypted (sodium.scalarmultBase privateKey) privateKey =
      some plaintext) :
    (received sodium initialized encrypted privateKey).result = .success ∧
      (received sodium initialized encrypted privateKey).message =
        ⟨maxMessageLen, plaintext ++ [0]⟩ ∧
      (received sodium initialized encrypted privateKey).decryptedBuffer =
        (⟨maxMessageLen + 1, plaintext ++ [0]⟩ : Region).zero := by
  have hlength := h.open_length hopen
  have hnonempty : encrypted.length ≠ 0 := by
    rw [hlength]
    exact Nat.succ_ne_zero _
  have hmessage : encrypted.length - sealBytes = plaintext.length := by
    rw [hlength, Nat.add_sub_cancel]
  have hopened : (Region.fresh (maxMessageLen + 1)).store 0 plaintext =
      ⟨maxMessageLen + 1, plaintext⟩ := by
    simp [Region.store, Region.fresh]
  have hterminated : (⟨maxMessageLen + 1, plaintext⟩ : Region).store plaintext.length [0] =
      ⟨maxMessageLen + 1, plaintext ++ [0]⟩ := by
    simp [Region.store]
  have hcopied : (Region.fresh maxMessageLen).store 0
      ((plaintext ++ [0]).take (plaintext.length + 1)) = ⟨maxMessageLen, plaintext ++ [0]⟩ := by
    rw [List.take_of_length_le (by simp)]
    simp [Region.store, Region.fresh]
  unfold received decryptMessage
  dsimp only
  rw [if_neg hnonempty, if_neg (not_not.mpr hready), hopen]
  dsimp only
  rw [hmessage, hopened, hterminated, hcopied]
  exact ⟨rfl, rfl, rfl⟩

theorem zero_inside_iff (r : Region) : r.zero.Inside ↔ r.Inside := by
  simp only [Region.zero, Region.store, Region.Inside, List.take_zero, List.nil_append,
    List.length_append, List.length_replicate, List.length_drop]
  omega

theorem received_opened_inside (h : sodium.SealsBoxes)
    (hready : (initCryptoLibrary sodium initialized).1 = .success)
    (hopen : sodium.boxSealOpen encrypted (sodium.scalarmultBase privateKey) privateKey =
      some plaintext) :
    (received sodium initialized encrypted privateKey).Inside ↔
      plaintext.length < maxMessageLen := by
  obtain ⟨_, hmessage, hbuffer⟩ := received_opened h hready hopen
  rw [Decrypted.Inside, hbuffer, zero_inside_iff, hmessage]
  simp only [Region.Inside, List.length_append, List.length_singleton]
  omega

theorem received_inside_iff (h : sodium.SealsBoxes) :
    (received sodium initialized encrypted privateKey).Inside ↔
      ¬ Opens sodium initialized encrypted privateKey ∨
        encrypted.length < maxMessageLen + sealBytes := by
  by_cases hopens : Opens sodium initialized encrypted privateKey
  · obtain ⟨plaintext, hopen⟩ := Option.isSome_iff_exists.mp hopens.2
    rw [received_opened_inside h hopens.1 hopen, h.open_length hopen]
    have hnot : ¬ ¬ Opens sodium initialized encrypted privateKey := not_not.mpr hopens
    simp only [hnot, false_or]
    omega
  · exact iff_of_true (received_closed hopens) (.inl hopens)

theorem encryptMessage_ok {publicKey : Key}
    (h : (encryptMessage sodium initialized message publicKey).1 = .ok encrypted) :
    (message.length ≠ 0 ∧ message.length ≤ maxMessageLen) ∧
      sodium.boxSeal message publicKey = some encrypted ∧
      (encryptMessage sodium initialized message publicKey).2 = true := by
  unfold encryptMessage at h ⊢
  dsimp only at h ⊢
  split at h
  · cases h
  next hlength =>
    split at h
    · cases h
    next hready =>
      cases hseal : sodium.boxSeal message publicKey with
      | none =>
        rw [hseal] at h
        cases h
      | some sealed =>
        rw [hseal] at h
        cases h
        rw [if_neg hlength, if_neg hready]
        refine ⟨by omega, rfl, ?_⟩
        unfold initCryptoLibrary at hready ⊢
        split_ifs at hready ⊢ <;> simp_all

theorem encryptMessage_error {publicKey : Key} {e : CchatError}
    (h : (encryptMessage sodium initialized message publicKey).1 = .error e) : e ≠ .success := by
  unfold encryptMessage at h
  dsimp only at h
  split at h
  · cases h
    exact fun he ↦ CchatError.noConfusion he
  · split at h
    next hready =>
      cases h
      exact hready
    · split at h
      · cases h
        exact fun he ↦ CchatError.noConfusion he
      · cases h

theorem received_encrypted_iff (h : sodium.SealsBoxes)
    (hencrypted : (encryptMessage sodium initialized message
      (sodium.scalarmultBase privateKey)).1 = .ok encrypted) :
    (received sodium (encryptMessage sodium initialized message
      (sodium.scalarmultBase privateKey)).2 encrypted privateKey).GivesBack message ↔
      message.length < maxMessageLen := by
  obtain ⟨_, hseal, hflag⟩ := encryptMessage_ok hencrypted
  have hready : (initCryptoLibrary sodium true).1 = .success := rfl
  have hopen := h.open_seal hseal
  obtain ⟨hresult, hmessage, _⟩ := received_opened h hready hopen
  rw [hflag, Decrypted.GivesBack, received_opened_inside h hready hopen, hresult, hmessage]
  exact and_iff_left ⟨rfl, rfl⟩

/-- No length is too long to be sealed, so some box is always too long to be opened. -/
theorem overrun_exists (initialized : Bool) (h : sodium.SealsBoxes)
    (hready : (initCryptoLibrary sodium initialized).1 = .success) (privateKey : Key) :
    ∃ encrypted, ¬ (received sodium initialized encrypted privateKey).Inside := by
  obtain ⟨encrypted, hseal⟩ := Option.isSome_iff_exists.mp
    (h.seal_any (List.replicate maxMessageLen 0x61) (sodium.scalarmultBase privateKey))
  refine ⟨encrypted, ?_⟩
  rw [received_opened_inside h hready (h.open_seal hseal), List.length_replicate]
  exact Nat.lt_irrefl _

/-- The buffers hold one byte less than the longest message. -/
theorem decrypt_bounded_iff (h : sodium.SealsBoxes) :
    (∀ initialized encrypted privateKey,
      (received sodium initialized encrypted privateKey).Inside ↔
        ¬ Opens sodium initialized encrypted privateKey ∨
          encrypted.length < maxMessageLen + sealBytes) ∧
    ∀ initialized message privateKey encrypted,
      (encryptMessage sodium initialized message (sodium.scalarmultBase privateKey)).1 =
        .ok encrypted →
      ((received sodium (encryptMessage sodium initialized message
        (sodium.scalarmultBase privateKey)).2 encrypted privateKey).GivesBack message ↔
          message.length < maxMessageLen) :=
  ⟨fun _ _ _ ↦ received_inside_iff h, fun _ _ _ _ hencrypted ↦ received_encrypted_iff h hencrypted⟩

def plainSodium : Sodium where
  init := true
  keypair := some (Block.zero _, Block.zero _)
  scalarmultBase := id
  boxSeal plaintext _ := some (List.replicate sealBytes 0 ++ plaintext)
  boxSealOpen encrypted _ _ :=
    if sealBytes ≤ encrypted.length then some (encrypted.drop sealBytes) else none
  randombytes n := List.replicate n 0
  pwhash password _ := some password
  secretbox plaintext _ _ := some (List.replicate macBytes 0 ++ plaintext)
  secretboxOpen encrypted _ _ :=
    if encrypted.take macBytes = List.replicate macBytes 0 then some (encrypted.drop macBytes)
    else none

theorem plainSodium_sealsBoxes : plainSodium.SealsBoxes := by
  refine ⟨?_, ?_, fun _ _ ↦ rfl⟩
  · intro encrypted publicKey privateKey plaintext hopen
    obtain ⟨hlong, hdrop⟩ := Option.ite_none_right_eq_some.mp hopen
    obtain rfl := Option.some.inj hdrop
    rw [List.length_drop, Nat.sub_add_cancel hlong]
  · intro plaintext privateKey encrypted hseal
    obtain rfl := Option.some.inj hseal
    simp [plainSodium]

theorem decrypt_bounded_plain : plainSodium.SealsBoxes ∧
    ((received plainSodium true (List.replicate 60 0) (Block.zero _)).Inside ↔
      ¬ Opens plainSodium true (List.replicate 60 0) (Block.zero _) ∨
        (List.replicate 60 (0 : UInt8)).length < maxMessageLen + sealBytes) :=
  ⟨plainSodium_sealsBoxes, (decrypt_bounded_iff plainSodium_sealsBoxes).1 true _ _⟩

/-- A message of the greatest length leaves no room for its terminator. -/
theorem longest_overruns : ¬ ∀ sodium : Sodium, sodium.SealsBoxes →
    (∀ initialized encrypted privateKey,
      (received sodium initialized encrypted privateKey).Inside) ∧
    ∀ initialized message privateKey encrypted,
      (encryptMessage sodium initialized message (sodium.scalarmultBase privateKey)).1 =
        .ok encrypted →
      (received sodium (encryptMessage sodium initialized message
        (sodium.scalarmultBase privateKey)).2 encrypted privateKey).GivesBack message := by
  intro h
  have hopen : plainSodium.boxSealOpen
      (List.replicate sealBytes 0 ++ List.replicate maxMessageLen 0x61)
      (plainSodium.scalarmultBase (Block.zero publicKeySize)) (Block.zero publicKeySize) =
        some (List.replicate maxMessageLen 0x61) := by
    simp [plainSodium]
  have hready : (initCryptoLibrary plainSodium true).1 = .success := rfl
  have hshort := (received_opened_inside plainSodium_sealsBoxes hready hopen).mp
    ((h plainSodium plainSodium_sealsBoxes).1 true _ _)
  rw [List.length_replicate] at hshort
  exact Nat.lt_irrefl _ hshort

end CChat.Client.Crypto
