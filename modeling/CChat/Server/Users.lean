import Mathlib.Data.List.Find
import CChat.Server.Network

namespace CChat.Server.Users

open CChat.Protocol.Types State Network

def findUser (s : ServerState) (username : Username) : Option ℕ :=
  (List.range s.userCount).find? (fun i ↦
    (s.users i).isRegistered && decide ((s.users i).username = username))

/-- Whether `find_client_by_username` stops at a slot. -/
def holds (c : ClientConnection) (username : Username) : Bool :=
  c.connected && c.authenticated && decide (c.username = username)

def findClientByUsername (s : ServerState) (username : Username) : Option ℕ :=
  (List.range s.clientCount).find? (fun i ↦ holds (s.clients i) username)

/-- `add_user`: its own search for a duplicate is the loop of `find_user`. -/
def addUser (w : World) (username : Username) (publicKey : Key) : ℤ × World :=
  if validateUsernameServer username.bytes < 0 then (-1, w)
  else if w.server.userCount ≥ maxClients then (-1, w)
  else if (findUser w.server username).isSome then (-2, w)
  else (0, { w with server := { w.server with
    users := Function.update w.server.users w.server.userCount ⟨username, publicKey, .offline, true⟩
    userCount := w.server.userCount + 1 } })

def statusPayload (username : Username) (status : UserStatus) : Bytes :=
  UInt8.ofNat username.bytes.length :: username.bytes ++ [status.code]

def broadcastLoop (username : Username) (payload : Bytes) : List ℕ → World → World
  | [], w => w
  | i :: is, w =>
    let c := w.server.clients i
    if c.connected && c.authenticated && decide (c.username ≠ username) then
      broadcastLoop username payload is
        (sendNetworkMessage w c.socketFd .statusUpdate payload none).2
    else broadcastLoop username payload is w

def broadcastStatusUpdate (w : World) (username : Username) (status : UserStatus) : World :=
  let allocated := malloc w
  if !allocated.1 then allocated.2
  else broadcastLoop username (statusPayload username status)
    (List.range allocated.2.server.clientCount) allocated.2

/-- The signature check `crypto_sign_verify_detached` is a parameter. -/
def authenticateUser (verify : Signature → Challenge → Key → Bool) (w : World) (i : ℕ)
    (username : Username) (signature : Signature) : ℤ × World :=
  match findUser w.server username with
  | none => (-1, w)
  | some k =>
    let c := w.server.clients i
    let key := (w.server.users k).publicKey
    if !verify signature c.challenge key then (-1, w)
    else
      let w₁ := (w.modifyClient i (fun c ↦ { c with authenticated := true, username := username }))
      let w₂ := match c.socketFd with
        | none => w₁
        | some fd => w₁.emit (.login fd username signature c.challenge key)
      let w₃ := w₂.modifyUser k (fun u ↦ { u with status := .online })
      (0, broadcastStatusUpdate w₃ username .online)

theorem addUser_fails {w : World} {username : Username} {key : Key} (h : (addUser w username key).1 ≠ 0) :
    (addUser w username key).2 = w := by
  unfold addUser at h ⊢
  split_ifs at h ⊢
  · rfl
  · rfl
  · rfl
  · exact absurd rfl h

theorem findUser_congr {s s' : ServerState} (hu : s'.users = s.users)
    (hc : s'.userCount = s.userCount) (username : Username) :
    findUser s' username = findUser s username := by
  simp only [findUser, hu, hc]

theorem findUser_longer {s s' : ServerState} (hc : s.userCount ≤ s'.userCount)
    (hu : ∀ k < s.userCount, (s'.users k).username = (s.users k).username ∧
      (s'.users k).isRegistered = (s.users k).isRegistered) {username : Username} {k : ℕ}
    (h : findUser s username = some k) : findUser s' username = some k := by
  obtain ⟨d, hd⟩ := Nat.exists_eq_add_of_le hc
  have hsame : (List.range s.userCount).find? (fun i ↦
      (s'.users i).isRegistered && decide ((s'.users i).username = username)) = some k := by
    rw [← h]
    refine List.find?_congr (fun i hi ↦ ?_)
    obtain ⟨hname, hreg⟩ := hu i (List.mem_range.mp hi)
    rw [hname, hreg]
  rw [findUser, hd, List.range_add, List.find?_append, hsame]
  rfl

theorem findUser_some {s : ServerState} {username : Username} {k : ℕ}
    (h : findUser s username = some k) :
    k < s.userCount ∧ (s.users k).isRegistered = true ∧ (s.users k).username = username := by
  have hp := List.find?_some h
  have hm := List.mem_of_find?_eq_some h
  simp only [Bool.and_eq_true, decide_eq_true_eq] at hp
  exact ⟨List.mem_range.mp hm, hp⟩

theorem findClient_some {s : ServerState} {username : Username} {j : ℕ}
    (h : findClientByUsername s username = some j) :
    j < s.clientCount ∧ (s.clients j).connected = true ∧ (s.clients j).authenticated = true ∧
      (s.clients j).username = username := by
  have hp := List.find?_some h
  have hm := List.mem_of_find?_eq_some h
  simp only [holds, Bool.and_eq_true, decide_eq_true_eq] at hp
  exact ⟨List.mem_range.mp hm, hp.1.1, hp.1.2, hp.2⟩

end CChat.Server.Users
