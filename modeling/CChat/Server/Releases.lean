import CChat.Server.Rings

namespace CChat.Server.Releases

open CChat.Library CChat.Library.Circular CChat.Protocol.Types State Rings

variable {ring : Buffer StoredMessage}

/-- One buffer zeroed and given to `free`. A buffer is named by the slot whose
`encrypted_data` points to it: every slot has its own allocation. -/
structure Release where
  slot : ℕ
  zeroed : ℕ
deriving DecidableEq

def releaseLoop (ring : Buffer StoredMessage) : List ℕ → List Release
  | [] => []
  | k :: ks =>
    match (ring.cells k).encryptedData with
    | none => releaseLoop ring ks
    | some _ => ⟨k, (ring.cells k).encryptedLen⟩ :: releaseLoop ring ks

def clientHandlerReleases (ring : Buffer StoredMessage) : List Release :=
  releaseLoop ring (List.range ring.count)

def cleanupServerReleases (ring : Buffer StoredMessage) : List Release :=
  releaseLoop ring (List.range ring.count)

/-- The buffers of the messages in the queue are zeroed whole and freed, each
once, no other pointer is freed and no slot keeps an allocation. -/
structure ReleasesQueue (ring : Buffer StoredMessage) (log : List Release) : Prop where
  once : (log.map Release.slot).Nodup
  queued : ∀ k, k ∈ log.map Release.slot ↔ Occupied messageQueueSize ring k
  wiped : ∀ r ∈ log, ∃ data, (ring.cells r.slot).encryptedData = some data ∧ r.zeroed = data.length
  kept : ∀ k < messageQueueSize, (ring.cells k).encryptedData ≠ none → k ∈ log.map Release.slot

theorem releaseLoop_slots (ring : Buffer StoredMessage) (ks : List ℕ) :
    (releaseLoop ring ks).map Release.slot =
      ks.filter (fun k ↦ (ring.cells k).encryptedData.isSome) := by
  induction ks with
  | nil => rfl
  | cons k ks ih =>
    rw [releaseLoop]
    cases hk : (ring.cells k).encryptedData <;> simp [hk, ih]

theorem releaseLoop_wiped (ring : Buffer StoredMessage) (ks : List ℕ) {r : Release}
    (hr : r ∈ releaseLoop ring ks) :
    (ring.cells r.slot).encryptedData ≠ none ∧ r.zeroed = (ring.cells r.slot).encryptedLen := by
  induction ks with
  | nil => cases hr
  | cons k ks ih =>
    rw [releaseLoop] at hr
    cases hk : (ring.cells k).encryptedData with
    | none =>
      rw [hk] at hr
      exact ih hr
    | some data =>
      rw [hk] at hr
      obtain rfl | hr := List.mem_cons.mp hr
      · exact ⟨by simp [hk], rfl⟩
      · exact ih hr

theorem Held.data_iff (h : Held ring) {k : ℕ} (hk : k < messageQueueSize) :
    (ring.cells k).encryptedData ≠ none ↔ Occupied messageQueueSize ring k := by
  constructor
  · intro hdata
    by_contra hfree
    exact hdata (h.free k hk hfree)
  · intro hlive
    obtain ⟨_, data, hdata, _⟩ := h.live k hlive
    rw [hdata]
    exact Option.some_ne_none data

/-- The loop starts at slot 0, so it meets the whole window only when that
lies there. -/
theorem releaseLoop_exact_iff (h : Held ring) :
    ReleasesQueue ring (releaseLoop ring (List.range ring.count)) ↔
      ring.count = 0 ∨ ring.head = 0 ∨ ring.count = messageQueueSize := by
  have hmem : ∀ k, k ∈ (releaseLoop ring (List.range ring.count)).map Release.slot ↔
      k < ring.count ∧ Occupied messageQueueSize ring k := by
    intro k
    rw [releaseLoop_slots, List.mem_filter, List.mem_range, Option.isSome_iff_ne_none]
    refine and_congr_right (fun hk ↦ Held.data_iff h (hk.trans_le h.ring.count_le))
  rw [← occupied_front_iff h.ring]
  constructor
  · intro hexact k hk
    exact ((hmem k).mp ((hexact.queued k).mpr hk)).1
  · intro hfront
    refine ⟨?_, fun k ↦ ?_, fun r hr ↦ ?_, fun k hk hdata ↦ ?_⟩
    · rw [releaseLoop_slots]
      exact List.Nodup.filter _ List.nodup_range
    · rw [hmem]
      exact and_iff_right_of_imp (hfront k)
    · obtain ⟨hdata, hzeroed⟩ := releaseLoop_wiped ring _ hr
      have hslot := (hmem r.slot).mp (List.mem_map_of_mem hr)
      obtain ⟨_, data, hsome, hlength⟩ := h.live _ hslot.2
      exact ⟨data, hsome, hzeroed.trans hlength.symm⟩
    · have hlive := (Held.data_iff h hk).mp hdata
      exact (hmem k).mpr ⟨hfront k hlive, hlive⟩

theorem releases_exact_iff (i : ℕ) (calls : List Call) :
    let ring := Runs.run (perform i) cleared calls
    (ReleasesQueue ring (clientHandlerReleases ring) ↔
      ring.count = 0 ∨ ring.head = 0 ∨ ring.count = messageQueueSize) ∧
    (ReleasesQueue ring (cleanupServerReleases ring) ↔
      ring.count = 0 ∨ ring.head = 0 ∨ ring.count = messageQueueSize) := by
  have hheld := (run_refines i calls cleared_held).1
  exact ⟨releaseLoop_exact_iff hheld, releaseLoop_exact_iff hheld⟩

def bob : Username := Username.ofBytes (text "bob")

def bobOnline : World :=
  let w := World.initial.modifyClient 0 (fun _ ↦
    { ClientConnection.zero with
      socketFd := some 0, connected := true, authenticated := true, username := bob })
  { w with server := { w.server with clientCount := 1 } }

def secondMessage : List Call :=
  [.queue bobOnline bob Username.empty [1], .deliver bobOnline,
    .queue bobOnline bob Username.empty [2]]

theorem secondMessage_ring :
    (Runs.run (perform 0) cleared secondMessage).head = 1 ∧
      (Runs.run (perform 0) cleared secondMessage).count = 1 := by decide +kernel

theorem secondMessage_unreleased :
    ¬ ReleasesQueue (Runs.run (perform 0) cleared secondMessage)
        (clientHandlerReleases (Runs.run (perform 0) cleared secondMessage)) ∧
      ¬ ReleasesQueue (Runs.run (perform 0) cleared secondMessage)
        (cleanupServerReleases (Runs.run (perform 0) cleared secondMessage)) := by
  have hheld := (run_refines 0 secondMessage cleared_held).1
  obtain ⟨hhead, hcount⟩ := secondMessage_ring
  have hnot : ¬ ReleasesQueue (Runs.run (perform 0) cleared secondMessage)
      (releaseLoop (Runs.run (perform 0) cleared secondMessage)
        (List.range (Runs.run (perform 0) cleared secondMessage).count)) := by
    rw [releaseLoop_exact_iff hheld, hhead, hcount]
    decide
  exact ⟨hnot, hnot⟩

end CChat.Server.Releases
