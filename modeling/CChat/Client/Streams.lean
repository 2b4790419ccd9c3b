import CChat.Client.Network
import CChat.Server.Receiving
import CChat.Server.ShortWrites

namespace CChat.Client.Streams

open CChat.Library CChat.Protocol.Types CChat.Protocol.Wire
open CChat.Server.State CChat.Server.Network CChat.Server.Receiving CChat.Server.ShortWrites

def clientSends : Network.ClientState → List Frame → List ℤ × Network.ClientState
  | c, [] => ([], c)
  | c, f :: fs =>
    let sent := Network.sendNetworkMessage c f.1 f.2
    (sent.1 :: (clientSends sent.2 fs).1, (clientSends sent.2 fs).2)

def clientReceives : ℕ → Network.ClientState → List (Option Frame)
  | 0, _ => []
  | n + 1, c =>
    (Network.receiveNetworkMessage c).1 :: clientReceives n (Network.receiveNetworkMessage c).2

theorem clientSends_written (fs : List Frame) (c : Network.ClientState)
    (h : ∀ r ∈ (clientSends c fs).1, r = 0) :
    (clientSends c fs).2.channel.written =
      c.channel.written ++ fs.flatMap (Framing.encode codec) := by
  induction fs generalizing c with
  | nil => exact (List.append_nil _).symm
  | cons f fs ih =>
    have hfirst := h _ List.mem_cons_self
    have hwhole := (Network.sendNetworkMessage_whole
      (show ¬ (Network.sendNetworkMessage c f.1 f.2).1 < 0 by omega)).1
    have hlater := ih _ (fun r hr ↦ h r (List.mem_cons_of_mem _ hr))
    rw [clientSends, hlater, hwhole, List.flatMap_cons, ← List.append_assoc]
    rfl

theorem performAll_whole (fd : Fd) (w : World) (cs : List Write)
    (h : ∀ r ∈ (performAll fd w cs).1, r.2 = 0) :
    wire fd (performAll fd w cs).2.out =
      wire fd w.out ++ (cs.map Write.frame).flatMap (Framing.encode codec) := by
  obtain ⟨hresults, hwire⟩ := performAll_spec fd w cs
  have hwhole : ∀ c ∈ cs, c.bytes = Framing.encode codec c.frame := by
    intro c hc
    have hresult := h _ (hresults ▸ List.mem_map_of_mem hc)
    dsimp only at hresult
    split at hresult
    next hall => exact Write.bytes_whole hall
    next => cases hresult
  rw [hwire, List.flatMap_map]
  exact congrArg _ (List.flatMap_congr hwhole)

theorem clientMalloc_allocates {c : Network.ClientState} (h : Allocates c.env.mallocs) :
    (Network.malloc c).1 = true ∧ Allocates (Network.malloc c).2.env.mallocs := by
  unfold Network.malloc
  split
  · exact ⟨rfl, h⟩
  next ok rest hm =>
    rw [hm] at h
    exact ⟨h ok List.mem_cons_self, fun b hb ↦ h b (List.mem_cons_of_mem _ hb)⟩

theorem clientReceive_allocates {c : Network.ClientState} (h : Allocates c.env.mallocs) :
    Allocates (Network.receiveNetworkMessage c).2.env.mallocs := by
  have hleft := (@clientMalloc_allocates (Network.recv c 5).2 h).2
  unfold Network.receiveNetworkMessage
  dsimp only
  split
  · exact h
  · split_ifs
    · exact h
    · exact hleft
    · exact hleft
    · exact hleft
    · exact h

theorem clientReceives_frames (fs : List Frame) (hfs : ∀ f ∈ fs, f.2.length < 2 ^ 32)
    (c : Network.ClientState) {s : ℕ} (hs : c.serverSocket = some s)
    (h : Allocates c.env.mallocs) (rest : Bytes)
    (hin : c.channel.incoming = fs.flatMap (Framing.encode codec) ++ rest) :
    clientReceives fs.length c = fs.map some := by
  induction fs generalizing c with
  | nil => rfl
  | cons f fs ih =>
    have hd := Framing.decodeOne_encode codec f (hfs f List.mem_cons_self)
      (fs.flatMap (Framing.encode codec) ++ rest)
    rw [← List.append_assoc, ← List.flatMap_cons, ← hin] at hd
    have hkeeps := (Network.receiveNetworkMessage_keeps c).1.trans hs
    have hleft := clientReceive_allocates h
    have hreceived := Network.receiveNetworkMessage_received hs
    rw [List.length_cons, clientReceives, List.map_cons]
    generalize Network.receiveNetworkMessage c = received at hkeeps hleft hreceived ⊢
    cases hreceived with
    | frame g rest' c' hd' _ hin' =>
      rw [hd] at hd'
      cases hd'
      exact congrArg _ (ih (fun g hg ↦ hfs g (List.mem_cons_of_mem _ hg)) c' hkeeps hleft hin')
    | ended c' hnone =>
      rw [hd] at hnone
      cases hnone
    | noRoom _ _ _ _ _ hroom =>
      rw [(clientMalloc_allocates h).1] at hroom
      cases hroom

/-- What either side sends the other reads back frame by frame, and the server
tells a stream that ends between frames from one that ends inside a frame or
announces too much. -/
theorem streams_round_trip :
    (∀ (c : Network.ClientState) (fs : List Frame) (w : World),
      (∀ f ∈ fs, f.2.length ≤ maxMessageLen * 2) → Allocates w.env.mallocs →
      (∀ r ∈ (clientSends c fs).1, r = 0) →
      receiveCalls (fs.length + 1) w
          ((clientSends c fs).2.channel.written.drop c.channel.written.length) =
        fs.map (fun f ↦ .message f.1 f.2) ++ [.disconnected]) ∧
    (∀ (w : World) (fd : Fd) (cs : List Write) (c : Network.ClientState) (s : ℕ) (rest : Bytes),
      c.serverSocket = some s → Allocates c.env.mallocs →
      (∀ r ∈ (performAll fd w cs).1, r.2 = 0) →
      c.channel.incoming =
        (wire fd (performAll fd w cs).2.out).drop (wire fd w.out).length ++ rest →
      clientReceives cs.length c = cs.map (fun f ↦ some f.frame)) ∧
    (∀ (w : World) (fs : List Frame) (rest : Bytes), (∀ f ∈ fs, f.2.length ≤ maxMessageLen * 2) →
      Allocates w.env.mallocs →
      ∃ r, receiveCalls (fs.length + 1) w (fs.flatMap (Framing.encode codec) ++ rest) =
          fs.map (fun f ↦ .message f.1 f.2) ++ [r] ∧
        (r = .disconnected ↔ rest = []) ∧
        (r = .failed ↔ rest ≠ [] ∧ (Framing.decodeOne codec rest = none ∨
          5 ≤ rest.length ∧ maxMessageLen * 2 < announced rest))) ∧
    ∀ (w : World) (n : ℕ) (stream : Bytes), Allocates w.env.mallocs →
      .disconnected ∈ receiveCalls n w stream →
      ∃ fs : List Frame, stream = fs.flatMap (Framing.encode codec) := by
  have hclassified : ∀ (w : World) (fs : List Frame) (rest : Bytes),
      (∀ f ∈ fs, f.2.length ≤ maxMessageLen * 2) → Allocates w.env.mallocs →
      ∃ r, receiveCalls (fs.length + 1) w (fs.flatMap (Framing.encode codec) ++ rest) =
        fs.map (fun f ↦ .message f.1 f.2) ++ [r] ∧ Outcome rest r := by
    intro w fs rest hfs h
    obtain ⟨w', hw', hframes⟩ := receiveCalls_frames fs hfs 1 h rest
    obtain ⟨r, hr, hcall⟩ := receiveCalls_one hw' rest
    exact ⟨r, by rw [hframes, hr], hcall⟩
  refine ⟨?_, ?_, ?_, fun w n stream h hend ↦ receiveCalls_boundary n h stream hend⟩
  · intro c fs w hfs h hsent
    obtain ⟨r, hr, hcall⟩ := hclassified w fs [] hfs h
    rw [List.append_nil, (Outcome.disconnected_iff hcall).mpr rfl] at hr
    rw [clientSends_written fs c hsent, List.drop_left, hr]
  · intro w fd cs c s rest hs h hsent hin
    have hfits : ∀ f ∈ cs.map Write.frame, f.2.length < 2 ^ 32 := by
      intro f hf
      obtain ⟨g, _, rfl⟩ := List.mem_map.mp hf
      exact g.fits
    rw [performAll_whole fd w cs hsent, List.drop_left] at hin
    have hread := clientReceives_frames (cs.map Write.frame) hfits c hs h rest hin
    rw [List.length_map, List.map_map] at hread
    exact hread
  · intro w fs rest hfs h
    obtain ⟨r, hr, hcall⟩ := hclassified w fs rest hfs h
    exact ⟨r, hr, Outcome.disconnected_iff hcall, Outcome.failed_iff hcall⟩

def connectedClient (sent : Bytes) : Network.ClientState :=
  ⟨some 0, true, [0], 1, ⟨fun _ ↦ sent, [], 0⟩, ⟨[], [], [], []⟩⟩

theorem streams_round_trip_pair :
    receiveCalls 3 World.initial ((clientSends (connectedClient [])
        [(0x42, []), (0x08, [1, 2])]).2.channel.written.drop 0) =
      [.message 0x42 [], .message 0x08 [1, 2], .disconnected] ∧
    clientReceives 2 (connectedClient [0, 0, 0, 1, 0x82, 0, 0, 0, 0, 0, 0x85]) =
      [some (0x82, [0]), some (0x85, [])] ∧
    (∃ r, receiveCalls 2 World.initial ([0, 0, 0, 0, 0x08] ++ [0, 0, 8]) =
      [.message 0x08 []] ++ [r] ∧ r = .failed) ∧
    ∃ fs : List Frame, [0, 0, 0, 0, 0x08] = fs.flatMap (Framing.encode codec) := by
  have hempty : Allocates [] := fun _ hb ↦ absurd hb List.not_mem_nil
  refine ⟨?_, ?_, ?_, ?_⟩
  · exact streams_round_trip.1 (connectedClient []) [(0x42, []), (0x08, [1, 2])] World.initial
      (by decide) hempty (by decide)
  · exact streams_round_trip.2.1 World.initial 7
      [⟨.loginResponse, [0], [], by decide⟩, ⟨.incomingMessage, [], [], by decide⟩]
      (connectedClient [0, 0, 0, 1, 0x82, 0, 0, 0, 0, 0, 0x85]) 0 [] rfl hempty (by decide)
      (by decide)
  · obtain ⟨r, hr, _, hfailed⟩ := streams_round_trip.2.2.1 World.initial [(0x08, [])] [0, 0, 8]
      (by decide) hempty
    exact ⟨r, hr, hfailed.mpr (by decide)⟩
  · exact streams_round_trip.2.2.2 World.initial 2 [0, 0, 0, 0, 0x08] hempty (by decide)

end CChat.Client.Streams
