import Mathlib.Data.List.TakeWhile
import Mathlib.Data.Vector.Basic
import CChat.Library.BigEndian

namespace CChat.Protocol.Types

open CChat.Library

abbrev Bytes := List UInt8

abbrev maxUsernameLen : ℕ := 32
abbrev maxMessageLen : ℕ := 1024
abbrev maxClients : ℕ := 1000
abbrev messageQueueSize : ℕ := 100
abbrev rateLimitWindow : ℤ := 60
abbrev rateLimitMaxRequests : ℕ := 100
abbrev publicKeySize : ℕ := 32
abbrev signatureSize : ℕ := 64
abbrev challengeSize : ℕ := 32

inductive MessageType
  | registerUser | loginUser | getPublicKey | sendMessage | getMessages | setStatus | listUsers
  | logout | registerResponse | loginResponse | publicKeyResponse | messageAck
  | incomingMessage | userListResponse | statusUpdate | error
deriving DecidableEq

def MessageType.code : MessageType → UInt8
  | .registerUser => 0x01
  | .loginUser => 0x02
  | .getPublicKey => 0x03
  | .sendMessage => 0x04
  | .getMessages => 0x05
  | .setStatus => 0x06
  | .listUsers => 0x07
  | .logout => 0x08
  | .registerResponse => 0x81
  | .loginResponse => 0x82
  | .publicKeyResponse => 0x83
  | .messageAck => 0x84
  | .incomingMessage => 0x85
  | .userListResponse => 0x86
  | .statusUpdate => 0x87
  | .error => 0x88

theorem MessageType.code_injective {s t : MessageType} (h : s.code = t.code) : s = t := by
  cases s <;> cases t <;> first | rfl | cases h

theorem MessageType.code_ne_zero (t : MessageType) : t.code ≠ 0 := by
  cases t <;> decide

inductive UserStatus
  | offline | online | away
deriving DecidableEq

def UserStatus.code : UserStatus → UInt8
  | .offline => 0
  | .online => 1
  | .away => 2

/-- The cast of a status byte, absent above `STATUS_AWAY`. -/
def UserStatus.ofByte (b : UInt8) : Option UserStatus :=
  if b = 0 then some .offline else if b = 1 then some .online
  else if b = 2 then some .away else none

inductive ErrorCode
  | invalidUsername | userExists | userNotFound | authFailed | invalidFormat | rateLimit
  | serverError | connectionTerminated
deriving DecidableEq

def ErrorCode.code : ErrorCode → UInt8
  | .invalidUsername => 0x01
  | .userExists => 0x02
  | .userNotFound => 0x03
  | .authFailed => 0x04
  | .invalidFormat => 0x05
  | .rateLimit => 0x06
  | .serverError => 0x07
  | .connectionTerminated => 0x08

/-- What a `char` array of the given size can hold as a C string. -/
structure CString (size : ℕ) where
  bytes : Bytes
  no_nul : 0 ∉ bytes
  fits : bytes.length < size
deriving DecidableEq

theorem CString.ext {size : ℕ} {s t : CString size} (h : s.bytes = t.bytes) : s = t := by
  cases s
  cases t
  simpa using h

/-- The C string in a `char` array of positive size that starts with these
bytes, a NUL behind them. -/
def CString.ofBytes (size : ℕ) (hsize : 0 < size) (bs : Bytes) : CString size where
  bytes := (bs.takeWhile (· ≠ 0)).take (size - 1)
  no_nul := fun h ↦ by
    have hmem := List.mem_of_mem_take h
    have hne : ∀ b ∈ bs.takeWhile (· ≠ 0), b ≠ 0 := by
      intro b hb
      simpa using List.mem_takeWhile_imp hb
    exact hne 0 hmem rfl
  fits := by
    rw [List.length_take]
    omega

abbrev Username := CString maxUsernameLen

def Username.ofBytes (bs : Bytes) : Username := CString.ofBytes maxUsernameLen (by decide) bs

def Username.empty : Username := ⟨[], by simp, by decide⟩

abbrev Block (n : ℕ) := List.Vector UInt8 n

/-- The `n` bytes `memcpy` takes from the front of a buffer that has them. -/
def Block.read (n : ℕ) (bs : Bytes) : Block n :=
  ⟨(bs ++ List.replicate n 0).take n, by simp⟩

theorem Block.read_append {n : ℕ} (b : Block n) (bs : Bytes) :
    Block.read n (b.toList ++ bs) = b := by
  apply Subtype.ext
  have hl : b.toList.length = n := b.toList_length
  simp only [Block.read, List.append_assoc]
  rw [List.take_append_of_le_length (by omega), List.take_of_length_le (by omega)]
  rfl

def Block.zero (n : ℕ) : Block n := ⟨List.replicate n 0, by simp⟩

abbrev Key := Block publicKeySize
abbrev Signature := Block signatureSize
abbrev Challenge := Block challengeSize

def text (s : String) : Bytes := s.toList.map (fun c ↦ c.toNat.toUInt8)

end CChat.Protocol.Types
