import Mathlib.Data.List.Nodup
import Mathlib.Logic.Function.Basic
import CChat.Library.Runs
import CChat.Protocol.Types

namespace CChat.Threads.Descriptors

open CChat.Library CChat.Protocol.Types

/-- A descriptor is named by how many calls of `socket` and `accept` returned
one before it, so a number that is given out again gets another name. -/
abbrev Fd := ℕ

/-- The descriptor in `server_socket`, which no code resets. -/
def listening : Fd := 0

/-- A slot, with its `mutex` and, as history, whether its socket was closed at a
site that leaves `socket_fd` as it is. -/
structure Slot where
  socketFd : Option Fd
  connected : Bool
  mutex : Bool
  unreset : Bool
deriving DecidableEq

/-- Where `main` is, from the loop on through `cleanup_server`. -/
inductive Main
  | testing
  | accepting
  | scanning (fd : Fd) (i : ℕ)
  | creating (fd : Fd) (i : ℕ)
  | abandoning (i : ℕ)
  | stopping
  | closing
  | sweeping (i : ℕ)
  | hangingUp (i : ℕ)
  | forgetting (i : ℕ)
  | returned
deriving DecidableEq

inductive Signal
  | pending
  | closing
  | returned
deriving DecidableEq

/-- Where a `client_handler` is: in its loop, or in the closing block. -/
inductive Position
  | absent
  | serving
  | testing
  | closing
  | resetting
  | clearing
  | unlocking
  | returned
deriving DecidableEq

structure Handler where
  slot : ℕ
  position : Position
  closed : Option Fd
deriving DecidableEq

structure Process where
  running : Bool
  slots : ℕ → Slot
  clientCount : ℕ
  main : Main
  signal : Signal
  handlers : ℕ → Handler
  handlerCount : ℕ
  nextFd : Fd
  closes : List Fd

def Process.initial : Process where
  running := true
  slots := fun _ ↦ ⟨none, false, false, false⟩
  clientCount := 0
  main := .testing
  signal := .pending
  handlers := fun _ ↦ ⟨0, .absent, none⟩
  handlerCount := 0
  nextFd := listening + 1
  closes := []

def Process.goto (p : Process) (main : Main) : Process := { p with main := main }

def Process.close (p : Process) (fd : Fd) : Process := { p with closes := p.closes ++ [fd] }

def Process.closeField (p : Process) : Option Fd → Process
  | none => p
  | some fd => p.close fd

def Process.modifySlot (p : Process) (i : ℕ) (f : Slot → Slot) : Process :=
  { p with slots := Function.update p.slots i (f (p.slots i)) }

def Process.setHandler (p : Process) (h : ℕ) (handler : Handler) : Process :=
  { p with handlers := Function.update p.handlers h handler }

/-- One step of `main`; `ok` is whether the `accept` or the `pthread_create` it
is at succeeds. -/
def mainStep (p : Process) (ok : Bool) : Process :=
  match p.main with
  | .testing => p.goto (if p.running then .accepting else .stopping)
  | .accepting =>
    if ok then { p with nextFd := p.nextFd + 1, main := .scanning p.nextFd 0 }
    else p.goto .testing
  | .scanning fd i =>
    if i ≥ maxClients then (p.close fd).goto .testing
    else if (p.slots i).connected then p.goto (.scanning fd (i + 1))
    else { p.modifySlot i (fun _ ↦ ⟨some fd, true, false, false⟩) with
      clientCount := if i ≥ p.clientCount then i + 1 else p.clientCount, main := .creating fd i }
  | .creating fd i =>
    if ok then
      { p.setHandler p.handlerCount ⟨i, .serving, none⟩ with
        handlerCount := p.handlerCount + 1, main := .testing }
    else ((p.close fd).modifySlot i (fun c ↦ { c with unreset := true })).goto (.abandoning i)
  | .abandoning i => (p.modifySlot i (fun c ↦ { c with connected := false })).goto .testing
  | .stopping => { p with running := false, main := .closing }
  | .closing => (p.close listening).goto (.sweeping 0)
  | .sweeping i =>
    if i ≥ p.clientCount then p.goto .returned
    else if (p.slots i).connected && (p.slots i).socketFd.isSome then p.goto (.hangingUp i)
    else p.goto (.sweeping (i + 1))
  | .hangingUp i =>
    ((p.closeField (p.slots i).socketFd).modifySlot i (fun c ↦ { c with unreset := true })).goto
      (.forgetting i)
  | .forgetting i =>
    (p.modifySlot i (fun c ↦ { c with connected := false })).goto (.sweeping (i + 1))
  | .returned => p

def signalStep (p : Process) : Process :=
  match p.signal with
  | .pending => { p with running := false, signal := .closing }
  | .closing => { p.close listening with signal := .returned }
  | .returned => p

/-- One step of a handler: it leaves its loop once `client->mutex` is free, and
goes through the closing block. -/
def handlerStep (p : Process) (h : ℕ) : Process :=
  let handler := p.handlers h
  let c := p.slots handler.slot
  match handler.position with
  | .absent => p
  | .serving =>
    if c.mutex then p
    else (p.modifySlot handler.slot (fun c ↦ { c with mutex := true })).setHandler h
      { handler with position := .testing }
  | .testing =>
    p.setHandler h { handler with position := if c.socketFd.isSome then .closing else .clearing }
  | .closing =>
    (p.closeField c.socketFd).setHandler h
      { handler with position := .resetting, closed := c.socketFd }
  | .resetting =>
    (p.modifySlot handler.slot (fun c ↦ { c with socketFd := none })).setHandler h
      { handler with position := .clearing }
  | .clearing =>
    (p.modifySlot handler.slot (fun c ↦ { c with connected := false })).setHandler h
      { handler with position := .unlocking }
  | .unlocking =>
    (p.modifySlot handler.slot (fun c ↦ { c with mutex := false })).setHandler h
      { handler with position := .returned }
  | .returned => p

def logoutStep (p : Process) (h : ℕ) : Process :=
  let handler := p.handlers h
  if handler.position = .serving ∧ !(p.slots handler.slot).mutex then
    p.modifySlot handler.slot (fun c ↦ { c with connected := false })
  else p

inductive Move
  | main (ok : Bool)
  | signal
  | handler (h : ℕ)
  | logout (h : ℕ)

def step (p : Process) (move : Move) : Process :=
  if p.main = .returned then p
  else
    match move with
    | .main ok => mainStep p ok
    | .signal => signalStep p
    | .handler h => handlerStep p h
    | .logout h => logoutStep p h

/-- No descriptor was passed to `close` twice. -/
def ClosedOnce (p : Process) : Prop := p.closes.Nodup

def Main.cleaning : Main → Bool
  | .sweeping _ => true
  | .hangingUp _ => true
  | .forgetting _ => true
  | .returned => true
  | _ => false

def Main.idle : Main → Bool
  | .scanning _ _ => false
  | .creating _ _ => false
  | _ => true

/-- The descriptor in a slot was not closed where `socket_fd` is left as it is,
and no closing block is between its close of it and the reset. -/
def Current (p : Process) (i : ℕ) : Prop :=
  ∀ fd, (p.slots i).socketFd = some fd → (p.slots i).unreset = false ∧
    ∀ h, (p.handlers h).position = .resetting → (p.handlers h).closed ≠ some fd

/-- The signal handler and `cleanup_server` do not both close the listening
socket; a closing block or `cleanup_server` closes what is current in its slot,
and a `pthread_create` that fails closes a socket that no closing block has
closed. -/
def Orderly (p : Process) : Move → Prop
  | .main ok =>
    match p.main with
    | .creating fd _ => ok = false → ∀ h, (p.handlers h).closed ≠ some fd
    | .closing => p.signal ≠ .returned
    | .hangingUp i => Current p i
    | _ => True
  | .signal => p.signal = .closing → p.main = .returned ∨ Main.cleaning p.main = false
  | .handler h =>
    (p.handlers h).position = .closing → p.main = .returned ∨ Current p (p.handlers h).slot
  | .logout _ => True

variable {p : Process} {i h : ℕ}

theorem mem_close (p : Process) (fd x : Fd) :
    x ∈ (p.close fd).closes ↔ x ∈ p.closes ∨ x = fd := by
  rw [Process.close, List.mem_append, List.mem_singleton]

theorem modifySlot_keeps {α : Type} (g : Slot → α) {f : Slot → Slot} (hf : ∀ c, g (f c) = g c)
    (k : ℕ) : g ((p.modifySlot i f).slots k) = g (p.slots k) := by
  by_cases hk : k = i
  · subst hk
    show g (Function.update p.slots k (f (p.slots k)) k) = _
    rw [Function.update_self, hf]
  · show g (Function.update p.slots i (f (p.slots i)) k) = _
    rw [Function.update_of_ne hk]

theorem modifySlot_self (f : Slot → Slot) : (p.modifySlot i f).slots i = f (p.slots i) :=
  Function.update_self i _ _

theorem modifySlot_other (f : Slot → Slot) {k : ℕ} (hk : k ≠ i) :
    (p.modifySlot i f).slots k = p.slots k := Function.update_of_ne hk _ _

theorem setHandler_self (handler : Handler) : (p.setHandler h handler).handlers h = handler :=
  Function.update_self h _ _

theorem setHandler_other (handler : Handler) {k : ℕ} (hk : k ≠ h) :
    (p.setHandler h handler).handlers k = p.handlers k := Function.update_of_ne hk _ _

end CChat.Threads.Descriptors
