import CChat.Library.Scratch
import CChat.Client.Registration

namespace CChat.Client.Wiping

open CChat.Library.Scratch CChat.Protocol.Types Network Crypto KeyFiles Registration

/-- The calls whose outcome is not decided by the four functions below. Those of
libsodium give their result and what they leave in the array they fill, `fgets`
whether it gave a line and the array, and `snprintf` of a path its result and
the path. -/
inductive Call : Type → Type
  | getHomeDirectory : Call (Option Bytes)
  | createKeysDirectory : Call CchatError
  | snprintf (home username : Bytes) : Call (ℤ × Bytes)
  | stat (path : Bytes) : Call ℤ
  | initCryptoLibrary : Call CchatError
  | cryptoBoxKeypair : Call (ℤ × Bytes × Bytes)
  | randombytesBuf (size : ℕ) : Call Bytes
  | cryptoPwhash (password salt : Bytes) : Call (ℤ × Bytes)
  | cryptoSecretboxEasy (message nonce key : Bytes) : Call (ℤ × Bytes)
  | cryptoSecretboxOpenEasy (box nonce key : Bytes) : Call (ℤ × Bytes)
  | fopen (path : Bytes) (mode : String) : Call Bool
  | fwrite (bytes : Bytes) : Call ℕ
  | fread (size : ℕ) : Call Bytes
  | fclose : Call Unit
  | unlink (path : Bytes) : Call Unit
  | secureFilePermissions (path : Bytes) : Call CchatError
  | fgets (prompt : String) (buffer : Bytes) (size : ℕ) : Call (Bool × Bytes)
  | connectToServer : Call CchatError
  | registerUserWithServer (username publicKey : Bytes) : Call CchatError
  | disconnectFromServer : Call Unit

/-- The arrays of `save_keys_to_file` and of `load_keys_from_file`. -/
inductive KeyFileArray
  | salt
  | nonce
  | derivedKey
  | encryptedPrivate
deriving DecidableEq

abbrev derivedKeySize : ℕ := 32

def KeyFileArray.size : KeyFileArray → ℕ
  | .salt => saltBytes
  | .nonce => nonceBytes
  | .derivedKey => derivedKeySize
  | .encryptedPrivate => privateKeySize + macBytes

/-- The arrays of `register_user`; `login_user` has the first three. -/
inductive UserArray
  | publicKey
  | privateKey
  | password
  | confirmPassword
deriving DecidableEq

def UserArray.size : UserArray → ℕ
  | .publicKey => publicKeySize
  | .privateKey => privateKeySize
  | .password => maxPasswordLen
  | .confirmPassword => maxPasswordLen

section KeyFile

-- the arrays of the caller
variable {κ : Type}

abbrev KeyProg (κ ρ : Type) := Prog Call UInt8 (κ ⊕ KeyFileArray) ρ

def deriveKeyFromPassword (password : κ) : KeyProg κ CchatError := do
  let line ← get (.inl password)
  let salt ← get (.inr .salt)
  let derived ← invoke (.cryptoPwhash (cString line) salt)
  putSecret (.inr .derivedKey) derived.2
  if derived.1 ≠ 0 then return .keyDerivation
  return .success

def fwriteShort : List ((κ ⊕ KeyFileArray) × ℕ) → KeyProg κ Bool
  | [] => return false
  | (array, size) :: rest => do
    let bytes ← get array
    if (← invoke (.fwrite (bytes.take size))) ≠ size then return true
    fwriteShort rest

def freadShort : List ((κ ⊕ KeyFileArray) × ℕ) → KeyProg κ Bool
  | [] => return false
  | (array, size) :: rest => do
    let bytes ← invoke (.fread size)
    put array bytes
    if bytes.length ≠ size then return true
    freadShort rest

def keyFileParts (publicKey : κ) : List ((κ ⊕ KeyFileArray) × ℕ) :=
  [(.inr .salt, saltBytes), (.inr .nonce, nonceBytes), (.inl publicKey, publicKeySize),
    (.inr .encryptedPrivate, privateKeySize + macBytes)]

/-- `save_keys_to_file`; each pointer is null or one of the caller's arrays. -/
def saveKeysToFile : Option Bytes → Option κ → Option κ → Option κ → KeyProg κ CchatError
  | some username, some publicKey, some privateKey, some password => do
    if (← invoke .createKeysDirectory) ≠ .success then return .fileIo
    let some home ← invoke .getHomeDirectory | return .fileIo
    let path ← invoke (.snprintf home username)
    if path.1 ≥ pathMax ∨ path.1 < 0 then return .fileIo
    put (.inr .salt) (← invoke (.randombytesBuf saltBytes))
    if (← deriveKeyFromPassword password) ≠ .success then
      zero (.inr .derivedKey)
      return .keyDerivation
    put (.inr .nonce) (← invoke (.randombytesBuf nonceBytes))
    let message ← get (.inl privateKey)
    let nonce ← get (.inr .nonce)
    let derivedKey ← get (.inr .derivedKey)
    let encrypted ← invoke (.cryptoSecretboxEasy (message.take privateKeySize) nonce derivedKey)
    put (.inr .encryptedPrivate) encrypted.2
    if encrypted.1 ≠ 0 then
      zero (.inr .derivedKey)
      return .encryption
    if !(← invoke (.fopen path.2 "wb")) then
      zero (.inr .derivedKey)
      return .fileIo
    if (← fwriteShort (keyFileParts publicKey)) then
      invoke .fclose
      invoke (.unlink path.2)
      zero (.inr .derivedKey)
      return .fileIo
    invoke .fclose
    let _ ← invoke (.secureFilePermissions path.2)
    zero (.inr .derivedKey)
    zero (.inr .encryptedPrivate)
    return .success
  | _, _, _, _ => return .invalidArgs

/-- `load_keys_from_file`. What a failing decryption leaves in the private key's
array is no secret. -/
def loadKeysFromFile : Option Bytes → Option κ → Option κ → Option κ → KeyProg κ CchatError
  | some username, some publicKey, some privateKey, some password => do
    let some home ← invoke .getHomeDirectory | return .fileIo
    let path ← invoke (.snprintf home username)
    if path.1 ≥ pathMax ∨ path.1 < 0 then return .fileIo
    if !(← invoke (.fopen path.2 "rb")) then return .fileIo
    if (← freadShort (keyFileParts publicKey)) then
      invoke .fclose
      return .fileIo
    invoke .fclose
    if (← deriveKeyFromPassword password) ≠ .success then
      zero (.inr .derivedKey)
      return .keyDerivation
    let box ← get (.inr .encryptedPrivate)
    let nonce ← get (.inr .nonce)
    let derivedKey ← get (.inr .derivedKey)
    let opened ← invoke (.cryptoSecretboxOpenEasy box nonce derivedKey)
    if opened.1 ≠ 0 then
      put (.inl privateKey) opened.2
      zero (.inr .derivedKey)
      return .decryption
    putSecret (.inl privateKey) opened.2
    zero (.inr .derivedKey)
    zero (.inr .encryptedPrivate)
    return .success
  | _, _, _, _ => return .invalidArgs

theorem keyFileParts_untouched {t : κ ⊕ KeyFileArray → Status} {publicKey : κ}
    (hown : ∀ a, t (.inr a) = .untouched) (hpublic : t (.inl publicKey) = .untouched) :
    ∀ part ∈ keyFileParts publicKey, t part.1 = .untouched := by
  simp only [keyFileParts, List.forall_mem_cons, List.not_mem_nil]
  exact ⟨hown _, hown _, hpublic, hown _, nofun⟩

def loaded (privateKey : Option κ) : CchatError → List (κ ⊕ KeyFileArray)
  | .success => privateKey.toList.map .inl
  | _ => []

theorem loaded_failing (privateKey : Option κ) {r : CchatError} (h : r ≠ .success) :
    loaded privateKey r = [] := by
  cases r with
  | success => exact absurd rfl h
  | _ => rfl

theorem loaded_subset (privateKey : Option κ) (r : CchatError) :
    loaded privateKey r ⊆ privateKey.toList.map .inl := by
  cases r with
  | success => exact List.Subset.refl _
  | _ => exact List.nil_subset _

variable [DecidableEq κ] {t : κ ⊕ KeyFileArray → Status} {bs : List (κ ⊕ KeyFileArray)}

theorem deriveKeyFromPassword_leaves {Q : CchatError → (κ ⊕ KeyFileArray → Status) → Prop}
    (hQ : ∀ r, Q r (Function.update t (.inr .derivedKey) .exposed)) (password : κ) :
    (deriveKeyFromPassword password).Leaves Q t := by
  unfold deriveKeyFromPassword
  refine leaves_get fun line ↦ leaves_get fun salt ↦ leaves_call fun derived ↦
    leaves_putSecret ?_
  split
  · exact hQ _
  · exact hQ _

theorem fwriteShort_leaves {Q : Bool → (κ ⊕ KeyFileArray → Status) → Prop} (hQ : ∀ r, Q r t)
    (parts : List ((κ ⊕ KeyFileArray) × ℕ)) : (fwriteShort parts).Leaves Q t := by
  induction parts with
  | nil => exact hQ false
  | cons part rest ih =>
    refine leaves_get fun bytes ↦ leaves_call fun taken ↦ ?_
    split
    · exact hQ true
    · exact ih

theorem freadShort_leaves {Q : Bool → (κ ⊕ KeyFileArray → Status) → Prop} (hQ : ∀ r, Q r t)
    {parts : List ((κ ⊕ KeyFileArray) × ℕ)} (h : ∀ part ∈ parts, t part.1 = .untouched) :
    (freadShort parts).Leaves Q t := by
  induction parts with
  | nil => exact hQ false
  | cons part rest ih =>
    refine leaves_call fun bytes ↦ leaves_put (h part List.mem_cons_self) ?_
    split
    · exact hQ true
    · exact ih (fun part hpart ↦ h part (List.mem_cons_of_mem _ hpart))

theorem zeroDerivedKey_leaves (h : Exposes (.inr .derivedKey :: bs) t) (r : CchatError) :
    Prog.Leaves (fun _ t' ↦ Exposes bs t') t
      (do zero (.inr .derivedKey); return r : KeyProg κ CchatError) :=
  h.wipe

theorem saveKeysToFile_leaves (h : Exposes bs t) (hown : ∀ a, t (.inr a) = .untouched)
    (username : Option Bytes) (publicKey privateKey password : Option κ) :
    (saveKeysToFile username publicKey privateKey password).Leaves
      (fun _ t' ↦ Exposes bs t') t := by
  unfold saveKeysToFile
  split
  next username publicKey privateKey password =>
    refine leaves_call fun created ↦ ?_
    split
    · exact h
    refine leaves_call fun home ↦ ?_
    split
    next home =>
      refine leaves_call fun path ↦ ?_
      split
      · exact h
      refine leaves_call fun salt ↦ leaves_put (hown .salt) (leaves_bind ?_)
      refine deriveKeyFromPassword_leaves (fun derived ↦ ?_) password
      have hderived : Exposes (.inr .derivedKey :: bs)
          (Function.update t (.inr .derivedKey) .exposed) := h.store _ _
      have hrest : ∀ a ≠ .derivedKey,
          Function.update t (.inr .derivedKey) .exposed (.inr a) = .untouched := fun a ha ↦ by
        rw [Function.update_of_ne (fun heq ↦ ha (Sum.inr.inj heq)), hown]
      split
      · exact zeroDerivedKey_leaves hderived _
      refine leaves_call fun nonce ↦ leaves_put (hrest .nonce (by decide)) ?_
      refine leaves_get fun message ↦ leaves_get fun nonce ↦ leaves_get fun derivedKey ↦ ?_
      refine leaves_call fun encrypted ↦ leaves_put (hrest .encryptedPrivate (by decide)) ?_
      split
      · exact zeroDerivedKey_leaves hderived _
      refine leaves_call fun opened ↦ ?_
      split
      · exact zeroDerivedKey_leaves hderived _
      refine leaves_bind (fwriteShort_leaves (fun short ↦ ?_) _)
      split
      · exact leaves_call fun _ ↦ leaves_call fun _ ↦ zeroDerivedKey_leaves hderived _
      · refine leaves_call fun _ ↦ leaves_call fun _ ↦ leaves_zero (leaves_zero ?_)
        exact hderived.wipe.wipeAny _
    · exact h
  · exact h

theorem loadKeysFromFile_leaves (h : Exposes bs t) (hown : ∀ a, t (.inr a) = .untouched)
    (username : Option Bytes) {publicKey privateKey : Option κ} (password : Option κ)
    (hpublic : ∀ b ∈ publicKey, t (.inl b) = .untouched)
    (hprivate : ∀ b ∈ privateKey, t (.inl b) = .untouched) :
    (loadKeysFromFile username publicKey privateKey password).Leaves
      (fun r t' ↦ Exposes (loaded privateKey r ++ bs) t') t := by
  unfold loadKeysFromFile
  split
  next username publicKey privateKey password =>
    refine leaves_call fun home ↦ ?_
    split
    next home =>
      refine leaves_call fun path ↦ ?_
      split
      · exact h
      refine leaves_call fun opened ↦ ?_
      split
      · exact h
      refine leaves_bind (freadShort_leaves (fun short ↦ ?_)
        (keyFileParts_untouched hown (hpublic publicKey rfl)))
      split
      · exact leaves_call fun _ ↦ h
      refine leaves_call fun _ ↦ leaves_bind ?_
      refine deriveKeyFromPassword_leaves (fun derived ↦ ?_) password
      have hderived : Exposes (.inr .derivedKey :: bs)
          (Function.update t (.inr .derivedKey) .exposed) := h.store _ _
      have hkept :
          Function.update t (.inr .derivedKey) .exposed (.inl privateKey) = .untouched := by
        rw [Function.update_of_ne Sum.inl_ne_inr, hprivate privateKey rfl]
      split
      · exact zeroDerivedKey_leaves hderived .keyDerivation
      refine leaves_get fun box ↦ leaves_get fun nonce ↦ leaves_get fun derivedKey ↦ ?_
      refine leaves_call fun decrypted ↦ ?_
      split
      · exact leaves_put hkept (zeroDerivedKey_leaves hderived .decryption)
      · refine leaves_putSecret (leaves_zero (leaves_zero ?_))
        have hopened := hderived.store (.inl privateKey) .exposed
        exact (hopened.mono (List.Perm.swap _ _ _).subset).wipe.wipeAny _
    · exact h
  · exact h

end KeyFile

section User

abbrev UserProg (ρ : Type) := KeyProg UserArray ρ

/-- `generate_keypair`. What a failing generation leaves in the private key's
array is no secret. -/
def generateKeypair : UserProg CchatError := do
  let result ← invoke .initCryptoLibrary
  if result ≠ .success then return result
  let keys ← invoke .cryptoBoxKeypair
  put (.inl .publicKey) keys.2.1
  if keys.1 ≠ 0 then
    put (.inl .privateKey) keys.2.2
    return .keyGeneration
  putSecret (.inl .privateKey) keys.2.2
  return .success

/-- `get_password_input`. The array counts as written to also when `fgets` gives
no line. -/
def getPasswordInput (prompt : String) (array : UserArray) : UserProg Unit := do
  let got ← invoke (.fgets prompt (← get (.inl array)) maxPasswordLen)
  putSecret (.inl array) got.2
  if got.1 then
    let line ← get (.inl array)
    putSecret (.inl array) (line.set (strcspnNewline line) 0)

def passwordsDiffer : UserProg Bool := do
  let password ← get (.inl .password)
  let confirmPassword ← get (.inl .confirmPassword)
  return cString password ≠ cString confirmPassword

def passwordLoop : ℕ → UserProg Unit
  | 0 => .loop
  | turns + 1 => do
    getPasswordInput "Enter password to encrypt your private key: " .password
    getPasswordInput "Confirm password: " .confirmPassword
    if (← passwordsDiffer) then
      zero (.inl .password)
      zero (.inl .confirmPassword)
    if (← passwordsDiffer) then passwordLoop turns

def registerUser (turns : ℕ) (username : Bytes) : UserProg CchatError := do
  let some home ← invoke .getHomeDirectory | return .fileIo
  let path ← invoke (.snprintf home username)
  if path.1 ≥ pathMax ∨ path.1 < 0 then return .fileIo
  if (← invoke (.stat path.2)) = 0 then return .auth
  let result ← generateKeypair
  if result ≠ .success then return result
  passwordLoop turns
  zero (.inl .confirmPassword)
  let result ← saveKeysToFile (some username) (some .publicKey) (some .privateKey) (some .password)
  if result ≠ .success then
    zero (.inl .password)
    zero (.inl .publicKey)
    zero (.inl .privateKey)
    return result
  if (← invoke .connectToServer) = .success then
    let _ ← invoke (.registerUserWithServer username (← get (.inl .publicKey)))
    invoke .disconnectFromServer
  zero (.inl .password)
  zero (.inl .publicKey)
  zero (.inl .privateKey)
  return .success

def loginUser (username : Bytes) : UserProg CchatError := do
  getPasswordInput "Enter your password: " .password
  let result ← loadKeysFromFile (some username) (some .publicKey) (some .privateKey) (some .password)
  if result ≠ .success then
    zero (.inl .password)
    return result
  zero (.inl .password)
  zero (.inl .publicKey)
  zero (.inl .privateKey)
  return .success

variable {t : UserArray ⊕ KeyFileArray → Status} {bs : List (UserArray ⊕ KeyFileArray)}

def generated : CchatError → List (UserArray ⊕ KeyFileArray)
  | .success => [.inl .privateKey]
  | _ => []

theorem generated_failing {r : CchatError} (h : r ≠ .success) : generated r = [] := by
  cases r with
  | success => exact absurd rfl h
  | _ => rfl

structure Before (bs : List (UserArray ⊕ KeyFileArray)) (t : UserArray ⊕ KeyFileArray → Status) :
    Prop where
  exposes : Exposes bs t
  own : ∀ a, t (.inr a) = .untouched

theorem Before.store (h : Before bs t) {array : UserArray} (harray : .inl array ∈ bs)
    (status : Status) : Before bs (Function.update t (.inl array) status) := by
  refine ⟨(h.exposes.store _ _).mono (List.cons_subset.mpr ⟨harray, List.Subset.refl _⟩),
    fun a ↦ ?_⟩
  rw [Function.update_of_ne Sum.inr_ne_inl, h.own]

theorem getPasswordInput_leaves {Q : Unit → (UserArray ⊕ KeyFileArray → Status) → Prop}
    {array : UserArray} (hQ : Q () (Function.update t (.inl array) .exposed)) (prompt : String) :
    (getPasswordInput prompt array).Leaves Q t := by
  unfold getPasswordInput
  refine leaves_get fun buffer ↦ leaves_call fun got ↦ leaves_putSecret ?_
  split
  · refine leaves_get fun line ↦ leaves_putSecret ?_
    rw [Function.update_idem]
    exact hQ
  · exact hQ

theorem generateKeypair_leaves (h : Before bs t) (hpublic : t (.inl .publicKey) = .untouched)
    (hprivate : t (.inl .privateKey) = .untouched) :
    generateKeypair.Leaves (fun r t' ↦ Before (generated r ++ bs) t') t := by
  unfold generateKeypair
  refine leaves_call fun ready ↦ ?_
  split
  next hready =>
    show Before (generated ready ++ bs) t
    rw [generated_failing hready]
    exact h
  · refine leaves_call fun keys ↦ leaves_put hpublic ?_
    split
    · exact leaves_put hprivate h
    · refine leaves_putSecret (Before.store ⟨?_, h.own⟩ ?_ _)
      · exact h.exposes.mono (List.subset_cons_self _ _)
      · exact List.mem_cons_self

theorem passwordsDiffer_leaves {Q : Bool → (UserArray ⊕ KeyFileArray → Status) → Prop}
    (hQ : ∀ r, Q r t) : passwordsDiffer.Leaves Q t :=
  leaves_get fun _ ↦ leaves_get fun _ ↦ hQ _

theorem passwordLoop_leaves (hpassword : .inl .password ∈ bs)
    (hconfirm : .inl .confirmPassword ∈ bs) (h : Before bs t) (turns : ℕ) :
    (passwordLoop turns).Leaves (fun _ t' ↦ Before bs t') t := by
  induction turns generalizing t with
  | zero => exact trivial
  | succ turns ih =>
    have hasked : Before bs (Function.update (Function.update t (.inl .password) .exposed)
        (.inl .confirmPassword) .exposed) := (h.store hpassword _).store hconfirm _
    have hagain : ∀ t', Before bs t' → ∀ differ : Bool,
        ((if differ then passwordLoop turns else pure ()) : UserProg Unit).Leaves
          (fun _ t' ↦ Before bs t') t' := fun t' h' differ ↦ by
      cases differ with
      | true => exact ih h'
      | false => exact h'
    refine leaves_bind (getPasswordInput_leaves (leaves_bind (getPasswordInput_leaves ?_ _)) _)
    refine leaves_bind (passwordsDiffer_leaves fun differ ↦ ?_)
    dsimp only
    split
    · refine leaves_zero (leaves_zero (leaves_bind (passwordsDiffer_leaves (hagain _ ?_))))
      exact (hasked.store hpassword _).store hconfirm _
    · exact leaves_bind (passwordsDiffer_leaves (hagain _ hasked))

/-- The exits behind the call of `save_keys_to_file` wipe the password and the keys. -/
theorem zeroSecrets_leaves (h : Exposes [.inl .password, .inl .privateKey] t) (r : CchatError) :
    Prog.Leaves (fun _ t' ↦ Exposes [] t') t
      (do zero (.inl .password); zero (.inl .publicKey); zero (.inl .privateKey); return r :
        UserProg CchatError) :=
  (h.wipe.wipeAny _).wipe

theorem registerUser_leaves (turns : ℕ) (username : Bytes) :
    (registerUser turns username).Leaves (fun _ t' ↦ Exposes [] t') (fun _ ↦ .untouched) := by
  have hnone : Exposes [] (fun _ : UserArray ⊕ KeyFileArray ↦ Status.untouched) :=
    exposes_untouched []
  unfold registerUser
  refine leaves_call fun home ↦ ?_
  split
  next home =>
    refine leaves_call fun path ↦ ?_
    split
    · exact hnone
    refine leaves_call fun found ↦ ?_
    split
    · exact hnone
    refine leaves_bind ((generateKeypair_leaves ⟨hnone, fun _ ↦ rfl⟩ rfl rfl).mono
      fun result t' hkeys ↦ ?_)
    split
    next hfails =>
      rw [generated_failing hfails] at hkeys
      exact hkeys.exposes
    next hgenerated =>
      obtain rfl := not_not.mp hgenerated
      have hsecrets : Before [.inl .confirmPassword, .inl .password, .inl .privateKey] t' :=
        ⟨hkeys.exposes.mono (List.subset_append_right [_, _] [_]), hkeys.own⟩
      refine leaves_bind ((passwordLoop_leaves (by simp) (by simp) hsecrets turns).mono
        fun _ t' hasked ↦ ?_)
      refine leaves_zero (leaves_bind ((saveKeysToFile_leaves hasked.exposes.wipe (fun a ↦ ?_)
        _ _ _ _).mono fun result t' hsaved ↦ ?_))
      · rw [Function.update_of_ne Sum.inr_ne_inl, hasked.own]
      split
      · exact zeroSecrets_leaves hsaved _
      refine leaves_call fun connected ↦ ?_
      dsimp only
      split
      · exact leaves_get fun _ ↦ leaves_call fun _ ↦ leaves_call fun _ ↦
          zeroSecrets_leaves hsaved _
      · exact zeroSecrets_leaves hsaved _
  · exact hnone

theorem loginUser_leaves (username : Bytes) :
    (loginUser username).Leaves (fun _ t' ↦ Exposes [] t') (fun _ ↦ .untouched) := by
  have hpassword : Exposes [.inl .password] (Function.update
      (fun _ : UserArray ⊕ KeyFileArray ↦ Status.untouched) (.inl .password) .exposed) :=
    (exposes_untouched []).store _ _
  unfold loginUser
  refine leaves_bind (getPasswordInput_leaves (leaves_bind ?_) _)
  refine (loadKeysFromFile_leaves hpassword (fun _ ↦ rfl) _ _ ?_ ?_).mono
    fun result t' hloaded ↦ ?_
  · rintro _ ⟨⟩
    rfl
  · rintro _ ⟨⟩
    rfl
  split
  next hfails =>
    rw [loaded_failing _ hfails] at hloaded
    exact hloaded.wipe
  next hloads =>
    obtain rfl := not_not.mp hloads
    exact zeroSecrets_leaves (hloaded.mono (List.Perm.swap _ _ _).subset) _

end User

/-- Whatever the calls come to, whoever calls and whatever the arrays hold at
first, each of the four functions returns with no secret left in its arrays and
in those of the functions on key files it has called. -/
theorem secrets_wiped :
    (∀ (κ : Type) [DecidableEq κ] (size : κ → ℕ) username publicKey privateKey password array,
      (saveKeysToFile username publicKey privateKey password : KeyProg κ CchatError).Wipes 0
        (Sum.elim size KeyFileArray.size) (.inr array)) ∧
    (∀ (κ : Type) [DecidableEq κ] (size : κ → ℕ) username publicKey privateKey password array,
      (loadKeysFromFile username publicKey privateKey password : KeyProg κ CchatError).Wipes 0
        (Sum.elim size KeyFileArray.size) (.inr array)) ∧
    (∀ turns username array, (registerUser turns username).Wipes 0
      (Sum.elim UserArray.size KeyFileArray.size) array) ∧
    ∀ username array, (loginUser username).Wipes 0
      (Sum.elim UserArray.size KeyFileArray.size) array := by
  refine ⟨fun κ _ size username publicKey privateKey password array ↦ ?_,
    fun κ _ size username publicKey privateKey password array ↦ ?_,
    fun turns username array ↦ ?_, fun username array ↦ ?_⟩
  · exact wipes_of_leaves 0 List.not_mem_nil (saveKeysToFile_leaves (exposes_untouched [])
      (fun _ ↦ rfl) username publicKey privateKey password) _
  · -- the array behind `private_key` is the caller's
    have hloads : (loadKeysFromFile username publicKey privateKey password).Leaves
        (fun _ t ↦ Exposes (privateKey.toList.map .inl) t) (fun _ ↦ .untouched) := by
      refine (loadKeysFromFile_leaves (exposes_untouched []) (fun _ ↦ rfl) username password
        (fun _ _ ↦ rfl) (fun _ _ ↦ rfl)).mono fun r t h ↦ h.mono ?_
      rw [List.append_nil]
      exact loaded_subset privateKey r
    have hcaller : .inr array ∉ (privateKey.toList.map .inl : List (κ ⊕ KeyFileArray)) := by
      intro hmem
      obtain ⟨_, _, heq⟩ := List.mem_map.mp hmem
      exact Sum.inl_ne_inr heq
    exact wipes_of_leaves 0 hcaller hloads _
  · exact wipes_of_leaves 0 List.not_mem_nil (registerUser_leaves turns username) _
  · exact wipes_of_leaves 0 List.not_mem_nil (loginUser_leaves username) _

end CChat.Client.Wiping
