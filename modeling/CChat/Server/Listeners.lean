import Mathlib.Data.List.Forall2
import CChat.Server.Challenges

namespace CChat.Server.Listeners

open CChat.Library CChat.Protocol.Types CChat.Protocol.Wire State Network Users Loop Invariants
  History

def listens (c : ClientConnection) (username : Username) : Bool :=
  c.connected && c.authenticated && decide (c.username ≠ username)

def listeners (s : ServerState) (username : Username) : List ℕ :=
  (List.range maxClients).filter (fun i ↦ listens (s.clients i) username)

/-- What one `send_network_message` leaves in the history: the frame, or what
was taken of it. -/
inductive OneWrite (fd : Fd) (type : MessageType) (payload : Bytes) : Event → Prop
  | whole : OneWrite fd type payload (.frame fd type payload none)
  | torn (n : ℕ) : OneWrite fd type payload (.torn fd ((packet type.code payload).take n))

/-- The event is the one write to the socket of a slot, and the whole frame
when nothing fails. -/
structure Told (s : ServerState) (payload : Bytes) (faultless : Prop) (i : ℕ) (e : Event) :
    Prop where
  written : ∃ fd, (s.clients i).socketFd = some fd ∧ OneWrite fd .statusUpdate payload e ∧
    (faultless → e = .frame fd .statusUpdate payload none)

/-- The slots are written to one after another, each in the world the write before
leaves, and a frame is whole just when the two `send`s that are made for it take all
they are given. -/
inductive Tells (payload : Bytes) : World → List ℕ → List Event → Prop
  | nil (w : World) : Tells payload w [] []
  | cons {w : World} {i : ℕ} {is : List ℕ} {fd : Fd} {e : Event} {es : List Event}
      (hsocket : (w.server.clients i).socketFd = some fd)
      (hout : (sendNetworkMessage w (some fd) .statusUpdate payload none).2.out = w.out ++ [e])
      (hwrite : OneWrite fd .statusUpdate payload e)
      (hwhole : e = .frame fd .statusUpdate payload none ↔
        (Env.takes w.env 0 5 && Env.takes w.env 1 payload.length) = true)
      (hrest : Tells payload (sendNetworkMessage w (some fd) .statusUpdate payload none).2 is es) :
      Tells payload w (i :: is) (e :: es)

structure SeesEveryone (w : World) : Prop where
  below : ∀ i, (w.server.clients i).connected = true → i < w.server.clientCount
  bounded : w.server.clientCount ≤ maxClients
  found : ∀ username i, findClientByUsername w.server username = some i →
    holds (w.server.clients i) username = true
  finds : ∀ username i, holds (w.server.clients i) username = true →
    findClientByUsername w.server username ≠ none
  listening : ∀ username i,
    i ∈ listeners w.server username ↔ listens (w.server.clients i) username = true
  once : ∀ username, (listeners w.server username).Nodup
  apart : ∀ i j fd, (w.server.clients i).socketFd = some fd →
    (w.server.clients j).socketFd = some fd → i = j
  told : ∀ env username status, (malloc { w with env := env }).1 = true →
    ∃ es, (broadcastStatusUpdate { w with env := env } username status).out = w.out ++ es ∧
      List.Forall₂ (Told w.server (statusPayload username status) env.Faultless)
        (listeners w.server username) es
  whole : ∀ env username status, (malloc { w with env := env }).1 = true →
    ∃ es, (broadcastStatusUpdate { w with env := env } username status).out = w.out ++ es ∧
      Tells (statusPayload username status) (malloc { w with env := env }).2
        (listeners w.server username) es
  refused : ∀ env username status, (malloc { w with env := env }).1 = false →
    (broadcastStatusUpdate { w with env := env } username status).out = w.out

variable {w : World} {verify : Signature → Challenge → Key → Bool}

theorem sendNetworkMessage_oneWrite (w : World) (fd : Fd) (type : MessageType) {payload : Bytes}
    (hpos : 0 < payload.length) :
    ∃ e, (sendNetworkMessage w (some fd) type payload none).2.out = w.out ++ [e] ∧
      OneWrite fd type payload e ∧ (e = .frame fd type payload none ↔
        (Env.takes w.env 0 5 && Env.takes w.env 1 payload.length) = true) := by
  obtain ⟨n, hwire⟩ := sendNetworkMessage_wire w fd type payload none
  have htakes := sendNetworkMessage_takes w fd type payload none hpos
  cases sendNetworkMessage_written w (some fd) type payload none with
  | whole fd' hfd hr hs hn ho =>
    obtain rfl := Option.some.inj hfd
    exact ⟨_, ho, .whole, iff_of_true rfl (htakes.mp hr)⟩
  | torn fd' bytes hfd hr hs hn ho =>
    obtain rfl := Option.some.inj hfd
    have hbytes : bytes = (packet type.code payload).take n := by
      rw [ho, wire_append, List.append_cancel_left_eq] at hwire
      simpa [wire, Event.sent] using hwire
    refine ⟨_, ho, hbytes ▸ .torn n, iff_of_false (fun h ↦ by cases h) (fun h ↦ ?_)⟩
    rw [htakes.mpr h] at hr
    cases hr
  | dead hfd => cases hfd

theorem broadcastLoop_cons (username : Username) (payload : Bytes) (i : ℕ) (is : List ℕ)
    (w : World) :
    broadcastLoop username payload (i :: is) w =
      if listens (w.server.clients i) username then
        broadcastLoop username payload is
          (sendNetworkMessage w (w.server.clients i).socketFd .statusUpdate payload none).2
      else broadcastLoop username payload is w := rfl

/-- The loop makes one write for each of its slots that listens, in order. -/
theorem broadcastLoop_tells (username : Username) {payload : Bytes} (hpos : 0 < payload.length)
    (is : List ℕ) (w : World) (hsocket : ∀ i, (w.server.clients i).connected = true →
      ∃ fd, (w.server.clients i).socketFd = some fd) :
    ∃ es, (broadcastLoop username payload is w).out = w.out ++ es ∧
      Tells payload w (is.filter (fun i ↦ listens (w.server.clients i) username)) es := by
  induction is generalizing w with
  | nil => exact ⟨[], (List.append_nil _).symm, .nil w⟩
  | cons i is ih =>
    rw [broadcastLoop_cons]
    cases hlistens : listens (w.server.clients i) username with
    | true =>
      have hconnected : (w.server.clients i).connected = true := by
        simp only [listens, Bool.and_eq_true] at hlistens
        exact hlistens.1.1
      obtain ⟨fd, hfd⟩ := hsocket i hconnected
      obtain ⟨e, hout, hwrite, hwhole⟩ := sendNetworkMessage_oneWrite w fd .statusUpdate hpos
      have hserver := sendNetworkMessage_server w (some fd) .statusUpdate payload none
      obtain ⟨es, hrest, htells⟩ := ih (sendNetworkMessage w (some fd) .statusUpdate payload none).2
        (by rw [hserver]; exact hsocket)
      rw [hserver] at htells
      have hfilter : (i :: is).filter (fun i ↦ listens (w.server.clients i) username) =
          i :: is.filter (fun i ↦ listens (w.server.clients i) username) :=
        List.filter_cons_of_pos hlistens
      rw [if_pos rfl, hfd, hfilter]
      refine ⟨e :: es, ?_, .cons hfd hout hwrite hwhole htells⟩
      rw [hrest, hout, List.append_assoc]
      rfl
    | false =>
      have hfilter : (i :: is).filter (fun i ↦ listens (w.server.clients i) username) =
          is.filter (fun i ↦ listens (w.server.clients i) username) :=
        List.filter_cons_of_neg (Bool.eq_false_iff.mp hlistens)
      rw [if_neg (by decide), hfilter]
      exact ih w hsocket

/-- Without a fault every frame is whole. -/
theorem Tells.told {payload : Bytes} {is : List ℕ} {es : List Event} (h : Tells payload w is es)
    (hpos : 0 < payload.length) :
    List.Forall₂ (Told w.server payload w.env.Faultless) is es := by
  induction h with
  | nil w => exact .nil
  | @cons w i is fd e es hsocket hout hwrite hwhole hrest ih =>
    have hserver := sendNetworkMessage_server w (some fd) .statusUpdate payload none
    have hfaultless := @sendNetworkMessage_faultless w
    rw [hserver] at ih
    refine .cons ⟨fd, hsocket, hwrite, fun hf ↦ hwhole.mpr ?_⟩ (ih.imp fun j e' hj ↦ ?_)
    · exact (sendNetworkMessage_takes w fd .statusUpdate payload none hpos).mp
        ((hfaultless hf (some fd) .statusUpdate payload none).2 rfl)
    · obtain ⟨fd', hfd', hwrite', hwhole'⟩ := hj.written
      exact ⟨fd', hfd', hwrite', fun hf ↦
        hwhole' (hfaultless hf (some fd) .statusUpdate payload none).1⟩

theorem statusPayload_pos (username : Username) (status : UserStatus) :
    0 < (statusPayload username status).length := by
  simp [statusPayload]

theorem findClientByUsername_holds {username : Username} {i : ℕ}
    (h : findClientByUsername w.server username = some i) :
    holds (w.server.clients i) username = true := by
  have hholds := List.find?_some h
  exact hholds

section Table

variable (hbelow : ∀ i, (w.server.clients i).connected = true → i < w.server.clientCount)
  (hbounded : w.server.clientCount ≤ maxClients)

include hbelow

theorem findClientByUsername_finds {username : Username} {i : ℕ}
    (h : holds (w.server.clients i) username = true) :
    findClientByUsername w.server username ≠ none := by
  have hconnected : (w.server.clients i).connected = true := by
    simp only [holds, Bool.and_eq_true] at h
    exact h.1.1
  intro hnone
  have hnot := List.find?_eq_none.mp hnone i (List.mem_range.mpr (hbelow i hconnected))
  exact hnot h

include hbounded

theorem mem_listeners (username : Username) (i : ℕ) :
    i ∈ listeners w.server username ↔ listens (w.server.clients i) username = true := by
  rw [listeners, List.mem_filter, List.mem_range]
  refine ⟨fun h ↦ h.2, fun h ↦ ⟨?_, h⟩⟩
  simp only [listens, Bool.and_eq_true] at h
  exact Nat.lt_of_lt_of_le (hbelow i h.1.1) hbounded

/-- Stopping at `client_count` leaves no listener out. -/
theorem listeners_below (username : Username) :
    (List.range w.server.clientCount).filter (fun i ↦ listens (w.server.clients i) username) =
      listeners w.server username := by
  obtain ⟨d, hd⟩ := Nat.exists_eq_add_of_le hbounded
  have hbehind : ((List.range d).map (w.server.clientCount + ·)).filter
      (fun i ↦ listens (w.server.clients i) username) = [] := by
    refine List.filter_eq_nil_iff.mpr fun i hi hlistens ↦ ?_
    obtain ⟨k, _, rfl⟩ := List.mem_map.mp hi
    simp only [listens, Bool.and_eq_true] at hlistens
    have hlt := hbelow _ hlistens.1.1
    omega
  rw [listeners, hd, List.range_add, List.filter_append, hbehind, List.append_nil]

end Table

theorem broadcast_refused (hroom : (malloc w).1 = false) (username : Username)
    (status : UserStatus) : (broadcastStatusUpdate w username status).out = w.out := by
  rw [broadcastStatusUpdate, hroom, if_pos (by decide), malloc_out]

theorem seesEveryone_of_sockets (h : Sockets w) : SeesEveryone w := by
  have hbelow : ∀ i, (w.server.clients i).connected = true → i < w.server.clientCount := by
    intro i hconnected
    obtain ⟨fd, hfd⟩ := h.connected i hconnected
    exact (h.socket i fd hfd).2
  have htells : ∀ env username status, (malloc { w with env := env }).1 = true →
      ∃ es, (broadcastStatusUpdate { w with env := env } username status).out = w.out ++ es ∧
        Tells (statusPayload username status) (malloc { w with env := env }).2
          (listeners w.server username) es := by
    intro env username status hroom
    have hserver := malloc_server { w with env := env }
    obtain ⟨es, hout, htells⟩ := broadcastLoop_tells username (statusPayload_pos username status)
      (List.range w.server.clientCount) (malloc { w with env := env }).2 (by
        rw [hserver]
        exact h.connected)
    rw [malloc_out] at hout
    rw [hserver, listeners_below hbelow h.count_le] at htells
    refine ⟨es, ?_, htells⟩
    rw [broadcastStatusUpdate, hroom, if_neg (by decide), hserver]
    exact hout
  refine ⟨hbelow, h.count_le, fun _ _ hfind ↦ findClientByUsername_holds hfind,
    fun _ _ hholds ↦ findClientByUsername_finds hbelow hholds, mem_listeners hbelow h.count_le,
    fun _ ↦ List.nodup_range.filter _, h.distinct, fun env username status hroom ↦ ?_, htells,
    fun env username status hroom ↦ broadcast_refused hroom username status⟩
  obtain ⟨es, hout, htold⟩ := htells env username status hroom
  have hall := htold.told (statusPayload_pos username status)
  rw [malloc_server] at hall
  refine ⟨es, hout, hall.imp fun i e hi ↦ ?_⟩
  obtain ⟨fd, hfd, hwrite, hwhole⟩ := hi.written
  exact ⟨fd, hfd, hwrite, fun hf ↦ hwhole (@malloc_faultless { w with env := env } hf).2⟩

/-- After every run of the server the lookups and broadcasts see every live connection. -/
theorem reach_sees_everyone (xs : List Input) : SeesEveryone (reach verify xs) :=
  seesEveryone_of_sockets (reach_steady xs).sound.sockets

theorem untold {username : Username} (h : listeners w.server username ≠ []) :
    ¬ ∀ env username status, ∃ es,
      (broadcastStatusUpdate { w with env := env } username status).out = w.out ++ es ∧
        List.Forall₂ (Told w.server (statusPayload username status) env.Faultless)
          (listeners w.server username) es := by
  intro htold
  obtain ⟨es, hes, hall⟩ := htold ⟨[false], [], []⟩ username .online
  rw [broadcast_refused rfl, List.self_eq_append_right] at hes
  rw [hes, List.forall₂_nil_right_iff] at hall
  exact h hall

/-- Alice is logged in, and need not be told of a change of Bob's. -/
theorem alice_untold :
    listeners (reach (fun _ _ _ ↦ true) Challenges.firstLogin).server
        (Username.ofBytes (text "bob")) = [0] ∧
      ¬ ∀ env username status, ∃ es, (broadcastStatusUpdate
          { reach (fun _ _ _ ↦ true) Challenges.firstLogin with env := env } username status).out =
            (reach (fun _ _ _ ↦ true) Challenges.firstLogin).out ++ es ∧
        List.Forall₂ (Told (reach (fun _ _ _ ↦ true) Challenges.firstLogin).server
            (statusPayload username status) env.Faultless)
          (listeners (reach (fun _ _ _ ↦ true) Challenges.firstLogin).server username) es := by
  have halice : listeners (reach (fun _ _ _ ↦ true) Challenges.firstLogin).server
      (Username.ofBytes (text "bob")) = [0] := by decide +kernel
  refine ⟨halice, @untold _ (Username.ofBytes (text "bob")) ?_⟩
  rw [halice]
  exact List.cons_ne_nil 0 []

end CChat.Server.Listeners
