import CChat.Client.Registration
import CChat.Client.Requests

namespace CChat.Client.Usernames

open CChat.Protocol.Types CChat.Protocol.Wire CChat.Client.Network CChat.Client.KeyFiles
  CChat.Client.Registration
open CChat.Server.Network (isNameByte validateUsernameServer)
open CChat.Server.Handlers (parseRegister)
open CChat.Server.Names (ValidName)

/-- The number a plain `char` is promoted to, where it is signed and where it is not. -/
def promoted (signed : Bool) (char : UInt8) : ℤ :=
  if signed then char.toInt8.toInt else char.toNat

def isNameChar (signed : Bool) (char : UInt8) : Bool :=
  let c := promoted signed char
  (c ≥ 0x61 && c ≤ 0x7A) || (c ≥ 0x41 && c ≤ 0x5A) || (c ≥ 0x30 && c ≤ 0x39) || c == 0x5F

def strlen (buffer : Bytes) : ℕ := (cString buffer).length

/-- The loops of both validators, `n` turns before their end: whether they
come there without leaving the function. -/
def nameLoop (signed : Bool) (username : Bytes) (len : ℕ) : ℕ → Bool
  | 0 => true
  | n + 1 =>
    if !isNameChar signed (username.getD (len - (n + 1)) 0) then false
    else nameLoop signed username len n

def validateUsernameBuffer (signed : Bool) (username : Bytes) : CchatError :=
  let len := strlen username
  if len = 0 ∨ len ≥ maxUsernameLen then .invalidArgs
  else if !nameLoop signed username len len then .invalidArgs
  else .success

def validateUsernameServerBuffer (signed : Bool) (username : Bytes) : ℤ :=
  let len := strlen username
  if len = 0 ∨ len ≥ maxUsernameLen then -1
  else if !nameLoop signed username len len then -1
  else 0

/-- 1 to 31 bytes, each an ASCII letter, digit or underscore. -/
structure Grammar (name : Bytes) : Prop where
  nonempty : 1 ≤ name.length
  short : name.length ≤ 31
  plain : ∀ c ∈ name, (Char.ofUInt8 c).isAlphanum = true ∨ Char.ofUInt8 c = '_'

/-- The key file of a name lies in the key directory itself. -/
structure StaysInside (name : Bytes) : Prop where
  path : ∀ home, keysPath home name = keysDirectory home ++ (0x2F :: (name ++ text ".keys"))
  file : 0x2F ∉ name ++ text ".keys"
  no_dot : 0x2E ∉ name

structure SameGrammar (signed : Bool) (name buffer : Bytes) : Prop where
  client : validateUsernameBuffer signed buffer = .success ↔ Grammar name
  server : validateUsernameServerBuffer signed buffer = 0 ↔ Grammar name
  modelled : validateUsernameBuffer signed buffer = validateUsername name ∧
    validateUsernameServerBuffer signed buffer = validateUsernameServer name
  offered : validateUsernameBuffer signed buffer = .success →
    ∀ publicKey : Key, parseRegister (nameField name ++ publicKey.toList) =
      .ok (Username.ofBytes name, publicKey)
  inside : validateUsernameBuffer signed buffer = .success → StaysInside name

variable {signed : Bool} {name : Bytes}

theorem of_byte_values {P : UInt8 → Prop} (h : ∀ n < 256, P (UInt8.ofNat n)) : ∀ c, P c := by
  intro c
  rw [← @UInt8.ofNat_toNat c]
  exact h c.toNat c.toNat_lt

/-- A `char` above 127 is refused whether it is negative or large. -/
theorem isNameChar_unsigned (signed : Bool) (c : UInt8) :
    isNameChar signed c = isUsernameChar c := by
  revert c
  apply of_byte_values
  cases signed with
  | false => decide +kernel
  | true => decide +kernel

theorem isUsernameChar_iff (c : UInt8) :
    isUsernameChar c = true ↔ (Char.ofUInt8 c).isAlphanum = true ∨ Char.ofUInt8 c = '_' := by
  revert c
  apply of_byte_values
  decide +kernel

theorem nameLoop_suffix (signed : Bool) (front behind rest : Bytes) :
    nameLoop signed (front ++ behind ++ rest) (front.length + behind.length) behind.length =
      behind.all isUsernameChar := by
  induction behind generalizing front with
  | nil => rfl
  | cons c behind ih =>
    have hget : (front ++ c :: behind ++ rest).getD front.length 0 = c := by simp
    have hindex : front.length + (behind.length + 1) - (behind.length + 1) = front.length :=
      Nat.add_sub_cancel _ _
    have hbehind := ih (front ++ [c])
    rw [List.length_append, List.length_singleton, Nat.add_assoc, Nat.add_comm 1,
      List.append_assoc front, List.singleton_append] at hbehind
    rw [List.length_cons, nameLoop, hindex, hget, isNameChar_unsigned, hbehind, List.all_cons]
    cases isUsernameChar c with
    | false => rfl
    | true => rfl

theorem nameLoop_all (signed : Bool) (name rest : Bytes) :
    nameLoop signed (name ++ rest) name.length name.length = name.all isUsernameChar := by
  have hsuffix := nameLoop_suffix signed [] name rest
  rwa [List.nil_append, List.length_nil, Nat.zero_add] at hsuffix

theorem validateUsernameBuffer_eq (hnul : 0 ∉ name) (rest : Bytes) :
    validateUsernameBuffer signed (name ++ 0 :: rest) = validateUsername name := by
  unfold validateUsernameBuffer validateUsername
  dsimp only
  rw [strlen, cString_stop hnul, nameLoop_all]
  cases name.all isUsernameChar with
  | false => rfl
  | true => rfl

theorem validateUsernameServerBuffer_eq (hnul : 0 ∉ name) (rest : Bytes) :
    validateUsernameServerBuffer signed (name ++ 0 :: rest) = validateUsernameServer name := by
  have hsame : name.all isUsernameChar = name.all isNameByte := rfl
  unfold validateUsernameServerBuffer validateUsernameServer
  dsimp only
  rw [strlen, cString_stop hnul, nameLoop_all, hsame]
  cases name.all isNameByte with
  | false => rfl
  | true => rfl

theorem validateUsername_iff (name : Bytes) : validateUsername name = .success ↔ Grammar name := by
  have hmax : maxUsernameLen = 32 := rfl
  unfold validateUsername
  split
  next hlength =>
    refine iff_of_false nofun (fun h ↦ ?_)
    have hnonempty := h.nonempty
    have hshort := h.short
    omega
  next hlength =>
    have hall : name.all isUsernameChar = true ↔
        ∀ c ∈ name, (Char.ofUInt8 c).isAlphanum = true ∨ Char.ofUInt8 c = '_' := by
      simp only [List.all_eq_true, isUsernameChar_iff]
    split
    next hplain => exact iff_of_true rfl ⟨by omega, by omega, hall.mp hplain⟩
    next hplain => exact iff_of_false nofun (fun h ↦ hplain (hall.mpr h.plain))

theorem Grammar.valid (h : Grammar name) : ValidName name := by
  refine ⟨h.nonempty, Nat.lt_succ_of_le h.short, fun c hc ↦ ?_⟩
  exact (isUsernameChar_iff c).mpr (h.plain c hc)

theorem validateUsernameServer_zero_iff (name : Bytes) :
    validateUsernameServer name = 0 ↔ Grammar name := by
  rw [← validateUsername_iff]
  unfold validateUsernameServer validateUsername
  have hsame : name.all isUsernameChar = name.all isNameByte := rfl
  rw [hsame]
  split
  · exact iff_of_false (by decide) nofun
  · split
    · exact iff_of_true rfl rfl
    · exact iff_of_false (by decide) nofun

theorem Grammar.staysInside (h : Grammar name) : StaysInside name := by
  have hplain : ∀ c ∈ name, isUsernameChar c = true :=
    fun c hc ↦ (isUsernameChar_iff c).mpr (h.plain c hc)
  have hslash : (0x2F : UInt8) ∉ name := fun hmem ↦ absurd (hplain _ hmem) (by decide)
  have hfile : (0x2F : UInt8) ∉ text ".keys" := by decide
  refine ⟨fun home ↦ ?_, ?_, fun hmem ↦ absurd (hplain _ hmem) (by decide)⟩
  · rw [keysPath, List.append_assoc, List.append_assoc]
    rfl
  · rw [List.mem_append, not_or]
    exact ⟨hslash, hfile⟩

/-- Client and server accept the same names, whether `char` is signed or not,
and none of them leads out of the key directory. -/
theorem validators_agree (signed : Bool) (hnul : 0 ∉ name) (rest : Bytes) :
    SameGrammar signed name (name ++ 0 :: rest) := by
  have hclient := @validateUsernameBuffer_eq signed name hnul rest
  have hserver := @validateUsernameServerBuffer_eq signed name hnul rest
  refine ⟨?_, ?_, ⟨hclient, hserver⟩, fun hok publicKey ↦ ?_, fun hok ↦ ?_⟩
  · rw [hclient, validateUsername_iff]
  · rw [hserver, validateUsernameServer_zero_iff]
  · rw [hclient, validateUsername_iff] at hok
    exact Requests.parseRegister_request hok.valid publicKey
  · rw [hclient, validateUsername_iff] at hok
    exact hok.staysInside

/-- A name with a byte above 127, read from an array with more behind its NUL. -/
theorem validators_agree_umlaut :
    SameGrammar true (0xFC :: text "nal") ((0xFC :: text "nal") ++ 0 :: text "junk") :=
  validators_agree true (by decide) (text "junk")

end CChat.Client.Usernames
