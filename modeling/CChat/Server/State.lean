import Mathlib.Logic.Function.Basic
import CChat.Library.Circular
import CChat.Protocol.Wire

namespace CChat.Server.State

open CChat.Library.Circular CChat.Protocol.Types

/-- A descriptor is named by how many `accept` calls returned before it, so a
number is never given to a second connection. -/
abbrev Fd := ℕ

structure UserRecord where
  username : Username
  publicKey : Key
  status : UserStatus
  isRegistered : Bool
deriving DecidableEq

structure StoredMessage where
  messageId : UInt32
  sender : Username
  recipient : Username
  timestamp : ℤ
  encryptedLen : ℕ
  encryptedData : Option Bytes
  delivered : Bool
deriving DecidableEq

structure RateLimit where
  windowStart : ℤ
  requestCount : ℕ
deriving DecidableEq

/-- One slot of `server.clients`; `queue` holds `message_queue`, `queue_head`,
`queue_tail` and `queue_count`, and a `socketFd` of `none` stands for `-1`. -/
structure ClientConnection where
  socketFd : Option Fd
  username : Username
  authenticated : Bool
  connected : Bool
  status : UserStatus
  challenge : Challenge
  rateLimit : RateLimit
  queue : Buffer StoredMessage

structure ServerState where
  users : ℕ → UserRecord
  userCount : ℕ
  clients : ℕ → ClientConnection
  clientCount : ℕ
  nextMessageId : UInt32
  running : Bool

def UserRecord.zero : UserRecord := ⟨Username.empty, Block.zero _, .offline, false⟩

def StoredMessage.zero : StoredMessage :=
  ⟨0, Username.empty, Username.empty, 0, 0, none, false⟩

/-- A slot after `memset` to zero, except for the descriptor. -/
def ClientConnection.zero : ClientConnection :=
  ⟨none, Username.empty, false, false, .offline, Block.zero _, ⟨0, 0⟩,
    ⟨fun _ ↦ StoredMessage.zero, 0, 0, 0⟩⟩

def ServerState.initial : ServerState where
  users := fun _ ↦ UserRecord.zero
  userCount := 0
  clients := fun _ ↦ ClientConnection.zero
  clientCount := 0
  nextMessageId := 1
  running := true

/-- What the rest of the world decides during one request: whether each
`malloc` succeeds, how many bytes each `send` takes (`none` for all of them)
and what each `time(NULL)` returns. Beyond its end a list means success and
the time zero. -/
structure Env where
  mallocs : List Bool
  sends : List (Option ℕ)
  clock : List ℤ
deriving DecidableEq

def Env.quiet : Env := ⟨[], [], []⟩

/-- The history of a run. A frame is whole when every byte of it was taken;
`entry` is the stored message whose delivery wrote the frame, if one did. -/
inductive Event
  | request (fd : Fd) (type : UInt8) (payload : Bytes)
  | frame (fd : Fd) (type : MessageType) (payload : Bytes) (entry : Option StoredMessage)
  | torn (fd : Fd) (bytes : Bytes)
  | login (fd : Fd) (name : Username) (signature : Signature) (challenge : Challenge) (key : Key)
  | queued (entry : StoredMessage)
  | closed (fd : Fd)
deriving DecidableEq

def Env.Faultless (e : Env) : Prop := (∀ b ∈ e.mallocs, b = true) ∧ ∀ taken ∈ e.sends, taken = none

instance (e : Env) : Decidable e.Faultless :=
  inferInstanceAs (Decidable ((∀ b ∈ e.mallocs, b = true) ∧ ∀ taken ∈ e.sends, taken = none))

def Env.allocates (e : Env) (k : ℕ) : Bool := e.mallocs.getD k true

def Env.takes (e : Env) (k n : ℕ) : Bool := decide (n ≤ (e.sends.getD k none).getD n)

structure World where
  server : ServerState
  nextFd : Fd
  out : List Event
  env : Env

def World.initial : World := ⟨ServerState.initial, 0, [], Env.quiet⟩

def World.emit (w : World) (e : Event) : World := { w with out := w.out ++ [e] }

def World.modifyClient (w : World) (i : ℕ) (f : ClientConnection → ClientConnection) : World :=
  { w with server := { w.server with
      clients := Function.update w.server.clients i (f (w.server.clients i)) } }

def World.modifyUser (w : World) (k : ℕ) (f : UserRecord → UserRecord) : World :=
  { w with server := { w.server with
      users := Function.update w.server.users k (f (w.server.users k)) } }

def malloc (w : World) : Bool × World :=
  match w.env.mallocs with
  | [] => (true, w)
  | ok :: rest => (ok, { w with env := { w.env with mallocs := rest } })

def time (w : World) : ℤ × World :=
  match w.env.clock with
  | [] => (0, w)
  | t :: rest => (t, { w with env := { w.env with clock := rest } })

/-- How many of `n` bytes one `send` on a descriptor takes; on `-1` it fails. -/
def send (w : World) (fd : Option Fd) (n : ℕ) : ℕ × World :=
  match fd, w.env.sends with
  | none, _ => (0, w)
  | some _, [] => (n, w)
  | some _, taken :: rest =>
    ((taken.getD n).min n, { w with env := { w.env with sends := rest } })

structure Silent (w w' : World) : Prop where
  server : w'.server = w.server
  nextFd : w'.nextFd = w.nextFd
  out : w'.out = w.out

theorem Silent.refl (w : World) : Silent w w := ⟨rfl, rfl, rfl⟩

theorem Silent.trans {a b c : World} (h : Silent a b) (h' : Silent b c) : Silent a c :=
  ⟨h'.server.trans h.server, h'.nextFd.trans h.nextFd, h'.out.trans h.out⟩

theorem malloc_silent (w : World) : Silent w (malloc w).2 := by
  unfold malloc
  split <;> exact ⟨rfl, rfl, rfl⟩

theorem time_silent (w : World) : Silent w (time w).2 := by
  unfold time
  split <;> exact ⟨rfl, rfl, rfl⟩

theorem send_silent (w : World) (fd : Option Fd) (n : ℕ) : Silent w (send w fd n).2 := by
  unfold send
  split <;> exact ⟨rfl, rfl, rfl⟩

theorem send_le (w : World) (fd : Option Fd) (n : ℕ) : (send w fd n).1 ≤ n := by
  unfold send
  split
  · exact Nat.zero_le n
  · exact Nat.le_refl n
  · exact Nat.min_le_right _ _

theorem malloc_faultless {w : World} (h : w.env.Faultless) :
    (malloc w).1 = true ∧ (malloc w).2.env.Faultless := by
  unfold malloc
  split
  · exact ⟨rfl, h⟩
  next ok rest hm =>
    have hall : ∀ b ∈ ok :: rest, b = true := hm ▸ h.1
    exact ⟨hall ok List.mem_cons_self, fun b hb ↦ hall b (List.mem_cons_of_mem _ hb), h.2⟩

theorem time_faultless {w : World} (h : w.env.Faultless) : (time w).2.env.Faultless := by
  unfold time
  split <;> exact h

theorem send_faultless {w : World} (h : w.env.Faultless) (fd : Option Fd) (n : ℕ) :
    (send w fd n).2.env.Faultless ∧ (fd.isSome → (send w fd n).1 = n) := by
  unfold send
  split
  · exact ⟨h, fun hfd ↦ by cases hfd⟩
  · exact ⟨h, fun _ ↦ rfl⟩
  next taken rest hs =>
    have hall : ∀ t ∈ taken :: rest, t = none := hs ▸ h.2
    refine ⟨⟨h.1, fun t ht ↦ hall t (List.mem_cons_of_mem _ ht)⟩, fun _ ↦ ?_⟩
    rw [hall taken List.mem_cons_self]
    exact Nat.min_self n

theorem malloc_allocates (w : World) : (malloc w).1 = Env.allocates w.env 0 := by
  unfold malloc Env.allocates
  split
  next h => rw [h]; rfl
  next h => rw [h]; rfl

theorem malloc_allocates_next (w : World) (k : ℕ) :
    Env.allocates (malloc w).2.env k = Env.allocates w.env (k + 1) := by
  unfold malloc Env.allocates
  split
  next h => rw [h]; rfl
  next h => rw [h]; rfl

theorem malloc_sends (w : World) : (malloc w).2.env.sends = w.env.sends := by
  unfold malloc
  split <;> rfl

theorem time_env (w : World) :
    (time w).2.env.mallocs = w.env.mallocs ∧ (time w).2.env.sends = w.env.sends := by
  unfold time
  split <;> exact ⟨rfl, rfl⟩

theorem time_malloc_allocates (w : World) : (malloc (time w).2).1 = Env.allocates w.env 0 := by
  rw [malloc_allocates, Env.allocates, (time_env w).1]
  rfl

theorem send_mallocs (w : World) (fd : Option Fd) (n : ℕ) :
    (send w fd n).2.env.mallocs = w.env.mallocs := by
  unfold send
  split <;> rfl

theorem send_takes (w : World) (fd : Fd) (n : ℕ) :
    (send w (some fd) n).1 = n ↔ Env.takes w.env 0 n = true := by
  unfold send Env.takes
  rw [decide_eq_true_eq]
  cases h : w.env.sends with
  | nil => simp
  | cons taken rest =>
    simp only [List.getD_cons_zero]
    exact min_eq_right_iff

theorem send_takes_next (w : World) (fd : Fd) (k n m : ℕ) :
    Env.takes (send w (some fd) n).2.env k m = Env.takes w.env (k + 1) m := by
  unfold send Env.takes
  cases h : w.env.sends with
  | nil => simp [h]
  | cons taken rest => simp

@[simp] theorem malloc_server (w : World) : (malloc w).2.server = w.server := (malloc_silent w).server
@[simp] theorem malloc_out (w : World) : (malloc w).2.out = w.out := (malloc_silent w).out
@[simp] theorem time_server (w : World) : (time w).2.server = w.server := (time_silent w).server
@[simp] theorem time_out (w : World) : (time w).2.out = w.out := (time_silent w).out
@[simp] theorem send_out (w : World) (fd : Option Fd) (n : ℕ) :
    (send w fd n).2.out = w.out := (send_silent w fd n).out

@[simp] theorem emit_server (w : World) (e : Event) : (w.emit e).server = w.server := rfl
@[simp] theorem emit_out (w : World) (e : Event) : (w.emit e).out = w.out ++ [e] := rfl

@[simp] theorem modifyClient_out (w : World) (i : ℕ) (f : ClientConnection → ClientConnection) :
    (w.modifyClient i f).out = w.out := rfl

@[simp] theorem modifyClient_self (w : World) (i : ℕ) (f : ClientConnection → ClientConnection) :
    (w.modifyClient i f).server.clients i = f (w.server.clients i) := by
  simp [World.modifyClient]

theorem modifyClient_other (w : World) {i j : ℕ} (f : ClientConnection → ClientConnection)
    (h : j ≠ i) : (w.modifyClient i f).server.clients j = w.server.clients j := by
  simp [World.modifyClient, Function.update_of_ne h]

@[simp] theorem modifyClient_users (w : World) (i : ℕ) (f : ClientConnection → ClientConnection) :
    (w.modifyClient i f).server.users = w.server.users := rfl

@[simp] theorem modifyUser_clients (w : World) (k : ℕ) (f : UserRecord → UserRecord) :
    (w.modifyUser k f).server.clients = w.server.clients := rfl

end CChat.Server.State
