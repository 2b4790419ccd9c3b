import CChat.Server.Network

namespace CChat.Server.Receiving

open CChat.Library CChat.Protocol.Types CChat.Protocol.Wire State Network

def announced (stream : Bytes) : ℕ := (readHeader (stream.take 5)).2

/-- The calls of the server's `receive_network_message` that the loop of
`client_handler` makes on one stream, `n` of them unless one ends the loop. -/
def receiveCalls : ℕ → World → Bytes → List Received
  | 0, _, _ => []
  | n + 1, w, stream =>
    let received := receiveNetworkMessage w stream
    match received.1 with
    | .message type payload =>
      .message type payload :: receiveCalls n received.2 (stream.drop (5 + payload.length))
    | result => [result]

def Allocates (mallocs : List Bool) : Prop := ∀ b ∈ mallocs, b = true

variable {w : World} {stream : Bytes}

theorem malloc_allocates (h : Allocates w.env.mallocs) :
    (malloc w).1 = true ∧ Allocates (malloc w).2.env.mallocs := by
  unfold malloc
  split
  · exact ⟨rfl, h⟩
  next ok rest hm =>
    rw [hm] at h
    exact ⟨h ok List.mem_cons_self, fun b hb ↦ h b (List.mem_cons_of_mem _ hb)⟩

inductive Outcome (stream : Bytes) : Received → Prop
  | boundary (h : stream = []) : Outcome stream .disconnected
  | cut (h : stream ≠ []) (hd : Framing.decodeOne codec stream = none) : Outcome stream .failed
  | oversize (hlong : 5 ≤ stream.length) (h : maxMessageLen * 2 < announced stream) :
      Outcome stream .failed
  | frame (f : Frame) (rest : Bytes) (hd : Framing.decodeOne codec stream = some (f, rest))
      (hrest : rest = stream.drop (5 + f.2.length)) (hfits : f.2.length ≤ maxMessageLen * 2) :
      Outcome stream (.message f.1 f.2)

theorem receiveNetworkMessage_call (h : Allocates w.env.mallocs) (stream : Bytes) :
    Outcome stream (receiveNetworkMessage w stream).1 ∧
      Allocates (receiveNetworkMessage w stream).2.env.mallocs := by
  obtain ⟨hroom, hleft⟩ := malloc_allocates h
  unfold receiveNetworkMessage
  dsimp only
  by_cases hempty : (stream.take 5).length = 0
  · rw [if_pos hempty]
    refine ⟨.boundary ?_, h⟩
    rw [List.length_take] at hempty
    rw [List.eq_nil_iff_length_eq_zero]
    omega
  rw [if_neg hempty]
  have hne : stream ≠ [] := by
    rintro rfl
    exact hempty rfl
  by_cases hfive : (stream.take 5).length = 5
  · have hlong : 5 ≤ stream.length := by
      rw [List.length_take] at hfive
      omega
    rw [if_neg (not_not.mpr hfive)]
    by_cases hbig : (readHeader (stream.take 5)).2 > maxMessageLen * 2
    · rw [if_pos hbig]
      exact ⟨.oversize hlong hbig, h⟩
    rw [if_neg hbig]
    by_cases hbody : (readHeader (stream.take 5)).2 ≤ (stream.drop 5).length
    · have hd := (Framing.decodeOne_some codec).mpr ⟨hlong, hbody, rfl, rfl⟩
      have hfull : ((stream.drop 5).take (readHeader (stream.take 5)).2).length =
          (readHeader (stream.take 5)).2 := by
        rw [List.length_take]
        omega
      obtain ⟨hsize, hrest⟩ := Framing.decodeOne_announced codec hd
      have hcall := Outcome.frame _ _ hd hrest (hsize.trans_le (Nat.le_of_not_lt hbig))
      by_cases hpos : (readHeader (stream.take 5)).2 > 0
      · rw [if_pos hpos, hroom, if_neg (by decide), if_neg (not_not.mpr hfull)]
        exact ⟨hcall, hleft⟩
      · have hzero : (codec.read (stream.take codec.width)).2 = 0 := Nat.eq_zero_of_not_pos hpos
        rw [if_neg hpos]
        rw [hzero, List.take_zero] at hcall
        exact ⟨hcall, h⟩
    · have hpos : (readHeader (stream.take 5)).2 > 0 := by omega
      have hshort : ((stream.drop 5).take (readHeader (stream.take 5)).2).length ≠
          (readHeader (stream.take 5)).2 := by
        rw [List.length_take]
        omega
      rw [if_pos hpos, hroom, if_neg (by decide), if_pos hshort]
      exact ⟨.cut hne ((Framing.decodeOne_none codec).mpr (.inr (Nat.lt_of_not_le hbody))), hleft⟩
  · rw [if_pos hfive]
    refine ⟨.cut hne ((Framing.decodeOne_none codec).mpr (.inl ?_)), h⟩
    rw [List.length_take] at hfive
    show stream.length < 5
    omega

theorem receiveCalls_one (h : Allocates w.env.mallocs) (rest : Bytes) :
    ∃ r, receiveCalls 1 w rest = [r] ∧ Outcome rest r := by
  have hcall := (receiveNetworkMessage_call h rest).1
  unfold receiveCalls
  dsimp only
  generalize (receiveNetworkMessage w rest).1 = r at hcall
  cases r with
  | disconnected => exact ⟨_, rfl, hcall⟩
  | failed => exact ⟨_, rfl, hcall⟩
  | message type payload => exact ⟨_, rfl, hcall⟩

theorem receiveNetworkMessage_frame (h : Allocates w.env.mallocs) {f : Frame}
    (hfits : f.2.length ≤ maxMessageLen * 2) (rest : Bytes) :
    (receiveNetworkMessage w (Framing.encode codec f ++ rest)).1 = .message f.1 f.2 := by
  have hd := Framing.decodeOne_encode codec f (hfits.trans_lt (by decide)) rest
  have hsize := Framing.decodeOne_announced codec hd
  have hcall := (receiveNetworkMessage_call h (Framing.encode codec f ++ rest)).1
  generalize (receiveNetworkMessage w (Framing.encode codec f ++ rest)).1 = r at hcall ⊢
  cases hcall with
  | boundary hnil =>
    rw [hnil] at hd
    cases hd
  | cut _ hnone =>
    rw [hnone] at hd
    cases hd
  | oversize _ hbig => exact absurd hbig (Nat.not_lt.mpr (hsize.1.symm.trans_le hfits))
  | frame g rest' hd' =>
    rw [hd] at hd'
    cases hd'
    rfl

theorem receiveCalls_frames (fs : List Frame) (hfs : ∀ f ∈ fs, f.2.length ≤ maxMessageLen * 2)
    (n : ℕ) (h : Allocates w.env.mallocs) (rest : Bytes) :
    ∃ w', Allocates w'.env.mallocs ∧
      receiveCalls (fs.length + n) w (fs.flatMap (Framing.encode codec) ++ rest) =
        fs.map (fun f ↦ Received.message f.1 f.2) ++ receiveCalls n w' rest := by
  induction fs generalizing w with
  | nil => exact ⟨w, h, by rw [List.length_nil, Nat.zero_add]; rfl⟩
  | cons f fs ih =>
    have hfits := hfs f List.mem_cons_self
    have hfirst := receiveNetworkMessage_frame h hfits (fs.flatMap (Framing.encode codec) ++ rest)
    have hleft := (receiveNetworkMessage_call h
      (Framing.encode codec f ++ (fs.flatMap (Framing.encode codec) ++ rest))).2
    have hbehind : (Framing.encode codec f ++ (fs.flatMap (Framing.encode codec) ++ rest)).drop
        (5 + f.2.length) = fs.flatMap (Framing.encode codec) ++ rest :=
      List.drop_left' (Framing.encode_length codec f)
    obtain ⟨w', hw', htail⟩ := ih (fun g hg ↦ hfs g (List.mem_cons_of_mem _ hg)) hleft
    refine ⟨w', hw', ?_⟩
    rw [List.length_cons, Nat.add_right_comm, List.flatMap_cons, List.append_assoc, receiveCalls,
      hfirst]
    dsimp only
    rw [hbehind, htail]
    rfl

theorem Outcome.disconnected_iff {r : Received} (h : Outcome stream r) : r = .disconnected ↔ stream = [] := by
  cases h with
  | boundary hnil => exact ⟨fun _ ↦ hnil, fun _ ↦ rfl⟩
  | cut hne => exact ⟨nofun, fun h ↦ absurd h hne⟩
  | oversize hlong =>
    refine ⟨nofun, fun h ↦ ?_⟩
    rw [h] at hlong
    exact absurd hlong (by decide)
  | frame f rest hd =>
    refine ⟨nofun, fun h ↦ ?_⟩
    rw [h] at hd
    cases hd

theorem Outcome.failed_iff {r : Received} (h : Outcome stream r) :
    r = .failed ↔ stream ≠ [] ∧ (Framing.decodeOne codec stream = none ∨
      5 ≤ stream.length ∧ maxMessageLen * 2 < announced stream) := by
  cases h with
  | boundary hnil => exact ⟨nofun, fun h ↦ absurd hnil h.1⟩
  | cut hne hd => exact ⟨fun _ ↦ ⟨hne, .inl hd⟩, fun _ ↦ rfl⟩
  | oversize hlong hbig =>
    refine ⟨fun _ ↦ ⟨?_, .inr ⟨hlong, hbig⟩⟩, fun _ ↦ rfl⟩
    rintro rfl
    exact absurd hlong (by decide)
  | frame f rest hd _ hfits =>
    have hsize : f.2.length = announced stream := (Framing.decodeOne_announced codec hd).1
    refine ⟨nofun, ?_⟩
    rintro ⟨_, hnone | ⟨_, hbig⟩⟩
    · rw [hnone] at hd
      cases hd
    · omega

/-- A stream that is read to its end is a stream of whole frames. -/
theorem receiveCalls_boundary (n : ℕ) (h : Allocates w.env.mallocs) (stream : Bytes)
    (hend : .disconnected ∈ receiveCalls n w stream) :
    ∃ fs : List Frame, stream = fs.flatMap (Framing.encode codec) := by
  induction n generalizing w stream with
  | zero => cases hend
  | succ n ih =>
    obtain ⟨hcall, hleft⟩ := receiveNetworkMessage_call h stream
    unfold receiveCalls at hend
    generalize receiveNetworkMessage w stream = received at hcall hleft hend
    obtain ⟨r, v⟩ := received
    dsimp only at hcall hleft hend
    cases hcall with
    | boundary hnil => exact ⟨[], hnil⟩
    | cut => cases List.mem_singleton.mp hend
    | oversize => cases List.mem_singleton.mp hend
    | frame f rest hd hrest =>
      dsimp only at hend
      obtain hnow | hlater := List.mem_cons.mp hend
      · cases hnow
      · rw [← hrest] at hlater
        obtain ⟨fs, hfs⟩ := ih hleft rest hlater
        refine ⟨f :: fs, ?_⟩
        rw [List.flatMap_cons, ← hfs]
        exact encode_decodeOne hd

end CChat.Server.Receiving
