import CChat.Library.FixedWindow
import CChat.Server.Pushes
import CChat.Server.Loop

namespace CChat.Server.Limits

open CChat.Library CChat.Library.Circular CChat.Library.FixedWindow CChat.Protocol.Types State
  Network Users Queue Handlers Loop Pushes

variable {i : ℕ} {w w' : World}

/-- The top of the loop of `client_handler` for a request of the slot that
arrives at `now`: `none` when the loop is left. `time(NULL)` counts the seconds
since the Epoch. -/
def allow (i : ℕ) (w : World) (now : ℕ) : Option World :=
  let allowed := checkRateLimit { w with env := { w.env with clock := [(now : ℤ)] } } i
  if !allowed.1 then none else some (updateRateLimit allowed.2 i)

/-- The arrival times of the requests let through, up to the first one that is
not, which ends the connection. -/
def letThrough (i : ℕ) : World → List ℕ → List ℕ
  | _, [] => []
  | w, now :: rest =>
    match allow i w now with
    | none => []
    | some w' => now :: letThrough i w' rest

def opened (w : World) (i : ℕ) (fd : Fd) (challenge : Challenge) : World :=
  w.modifyClient i (fun _ ↦ freshClient fd challenge)

def within (start length : ℕ) (times : List ℕ) : ℕ :=
  times.countP (fun t ↦ decide (start ≤ t ∧ t < start + length))

def window (c : ClientConnection) : Window := ⟨c.rateLimit.windowStart, c.rateLimit.requestCount⟩

theorem checkRateLimit_admits (w : World) (i : ℕ) :
    (if (checkRateLimit w i).1 then
      some (window ((updateRateLimit (checkRateLimit w i).2 i).server.clients i)) else none) =
      FixedWindow.allow rateLimitWindow rateLimitMaxRequests (window (w.server.clients i))
        (time w).1 := by
  unfold checkRateLimit FixedWindow.allow refresh window
  by_cases hout : (time w).1 - (w.server.clients i).rateLimit.windowStart ≥ rateLimitWindow
  · simp [hout, updateRateLimit]
  · simp [hout, updateRateLimit]

theorem admit_window (w : World) (now : ℕ) :
    (allow i w now).map (fun w' ↦ window (w'.server.clients i)) =
      FixedWindow.allow rateLimitWindow rateLimitMaxRequests (window (w.server.clients i)) now := by
  have h := checkRateLimit_admits { w with env := { w.env with clock := [(now : ℤ)] } } i
  have htime : (time { w with env := { w.env with clock := [(now : ℤ)] } }).1 = now := rfl
  rw [htime] at h
  rw [← h]
  unfold allow
  dsimp only
  cases (checkRateLimit { w with env := { w.env with clock := [(now : ℤ)] } } i).1 <;> rfl

theorem letThrough_admitted (w : World) (times : List ℕ) :
    (letThrough i w times).map (fun t : ℕ ↦ (t : ℤ)) =
      admitted rateLimitWindow rateLimitMaxRequests (window (w.server.clients i))
        (times.map (fun t : ℕ ↦ (t : ℤ))) := by
  induction times generalizing w with
  | nil => rfl
  | cons now rest ih =>
    have h := admit_window (i := i) w now
    rw [List.map_cons, admitted, ← h, letThrough]
    cases allow i w now with
    | none => rfl
    | some w' => simp [ih w']

theorem malloc_clock (w : World) : (malloc w).2.env.clock = w.env.clock := by
  unfold malloc
  split <;> rfl

/-- A received message goes to its handler exactly when the window admits it. -/
theorem takeRequest_window {stream : Bytes} {type : UInt8} {payload : Bytes}
    (hmsg : (receiveNetworkMessage w stream).1 = .message type payload) :
    (takeRequest w i stream).1.map
        (fun _ ↦ window ((takeRequest w i stream).2.server.clients i)) =
      FixedWindow.allow rateLimitWindow rateLimitMaxRequests (window (w.server.clients i))
        (time w).1 := by
  have hsilent := receiveNetworkMessage_silent w stream
  have hclock : (receiveNetworkMessage w stream).2.env.clock = w.env.clock := by
    unfold receiveNetworkMessage
    dsimp only
    repeat' split
    all_goals first | rfl | exact malloc_clock w
  have htime : (time (receiveNetworkMessage w stream).2).1 = (time w).1 := by
    unfold time
    rw [hclock]
    split <;> rfl
  have h := checkRateLimit_admits (receiveNetworkMessage w stream).2 i
  rw [htime, hsilent.server] at h
  rw [← h]
  unfold takeRequest
  dsimp only
  rw [hmsg]
  dsimp only
  cases (checkRateLimit (receiveNetworkMessage w stream).2 i).1 with
  | false => rfl
  | true =>
    simp only [Bool.not_true, Bool.false_eq_true, ↓reduceIte]
    split <;> rfl

structure Unmetered (w w' : World) : Prop where
  windows : ∀ j, window (w'.server.clients j) = window (w.server.clients j)

theorem Unmetered.of_server (h : w'.server = w.server) : Unmetered w w' := ⟨fun j ↦ by rw [h]⟩

theorem Unmetered.trans {u : World} (h : Unmetered u w) (h' : Unmetered w w') : Unmetered u w' :=
  ⟨fun j ↦ (h'.windows j).trans (h.windows j)⟩

theorem modifyClient_unmetered (w : World) (j : ℕ) {f : ClientConnection → ClientConnection}
    (hf : ∀ c, window (f c) = window c) : Unmetered w (w.modifyClient j f) := by
  refine ⟨fun k ↦ ?_⟩
  by_cases hk : k = j
  · rw [hk, modifyClient_self, hf]
  · rw [modifyClient_other w f hk]

theorem unmetered_neutral : Neutral Unmetered where
  refl _ := ⟨fun _ ↦ rfl⟩
  trans := Unmetered.trans
  alloc w := .of_server (malloc_server w)
  clock w := .of_server (time_server w)
  draw _ := ⟨fun _ ↦ rfl⟩
  pushed _ _ _ _ _ _ := .of_server (sendNetworkMessage_server ..)
  requeue w j _ := modifyClient_unmetered w j (fun _ ↦ rfl)
  queued _ _ := ⟨fun _ ↦ rfl⟩

theorem within_during (start length : ℕ) (times : List ℕ) :
    within start length times = during length start (times.map (fun t : ℕ ↦ (t : ℤ))) := by
  rw [within, during, List.countP_map]
  refine List.countP_congr (fun t _ ↦ ?_)
  simp only [Function.comp_apply, decide_eq_true_eq]
  omega

theorem opened_window_zero (w : World) (i : ℕ) (fd : Fd) (challenge : Challenge) :
    window ((opened w i fd challenge).server.clients i) = ⟨0, 0⟩ := by
  rw [opened, modifyClient_self]
  rfl

theorem sorted_cast {times : List ℕ} (h : times.Pairwise (· ≤ ·)) :
    (times.map (fun t : ℕ ↦ (t : ℤ))).Pairwise (· ≤ ·) :=
  h.map _ (fun _ _ hle ↦ Int.ofNat_le.mpr hle)

/-- The counting windows overlap an interval of one window twice at most. -/
theorem letThrough_bounded (w : World) (i : ℕ) (fd : Fd) (challenge : Challenge)
    {times : List ℕ} (hsorted : times.Pairwise (· ≤ ·)) (start : ℕ) {length : ℕ}
    (hlength : (length : ℤ) ≤ rateLimitWindow) :
    within start length (letThrough i (opened w i fd challenge) times) ≤
        2 * rateLimitMaxRequests ∧
      ((∀ t ∈ times, rateLimitWindow ≤ t) →
        within start length (letThrough i (opened w i fd challenge) times) ≤
          2 * rateLimitMaxRequests - 1) := by
  have hcap : 0 < rateLimitMaxRequests := by decide
  have hlong := during_le hlength start (admitted rateLimitWindow rateLimitMaxRequests ⟨0, 0⟩
    (times.map (fun t : ℕ ↦ (t : ℤ))))
  rw [within_during, letThrough_admitted, opened_window_zero]
  refine ⟨hlong.trans (during_admitted hcap _ _ (sorted_cast hsorted)), fun hlate ↦ ?_⟩
  refine hlong.trans (during_admitted_opened hcap _ (sorted_cast hsorted) (fun t ht ↦ ?_))
  obtain ⟨u, hu, rfl⟩ := List.mem_map.mp ht
  have := hlate u hu
  dsimp only
  omega

def burst : List ℕ := 60 :: (List.replicate 99 119 ++ List.replicate 100 120)

theorem burst_sorted : burst.Pairwise (· ≤ ·) := by decide +kernel

theorem burst_passes (w : World) (fd : Fd) (challenge : Challenge) :
    within 119 2 (letThrough 0 (opened w 0 fd challenge) burst) = 199 := by
  rw [within_during, letThrough_admitted, opened_window_zero]
  decide +kernel

theorem letThrough_bounded_burst :
    burst.Pairwise (· ≤ ·) ∧ ((2 : ℕ) : ℤ) ≤ rateLimitWindow ∧
      within 119 2 (letThrough 0 (opened World.initial 0 0 (Block.zero _)) burst) ≤
        2 * rateLimitMaxRequests - 1 :=
  have hlength : ((2 : ℕ) : ℤ) ≤ rateLimitWindow := by decide
  have hbounded := letThrough_bounded World.initial 0 0 (Block.zero _) burst_sorted 119 hlength
  ⟨burst_sorted, hlength, hbounded.2 (by decide +kernel)⟩

/-- An interval of two seconds in which 199 requests pass. -/
theorem burst_exceeds : ¬ ∀ (w : World) (i : ℕ) (fd : Fd) (challenge : Challenge) (times : List ℕ),
    times.Pairwise (· ≤ ·) → ∀ start length : ℕ, (length : ℤ) < rateLimitWindow →
      within start length (letThrough i (opened w i fd challenge) times) ≤ rateLimitMaxRequests := by
  intro h
  have hburst := h World.initial 0 0 (Block.zero _) burst burst_sorted 119 2 (by decide)
  rw [burst_passes] at hburst
  exact absurd hburst (by decide)

theorem letThrough_all (w : World) (i : ℕ) (fd : Fd) (challenge : Challenge) {times : List ℕ}
    (hsorted : times.Pairwise (· ≤ ·))
    (hroom : ∀ start, within start rateLimitWindow.toNat times ≤ rateLimitMaxRequests) :
    letThrough i (opened w i fd challenge) times = times := by
  have hall : admitted rateLimitWindow rateLimitMaxRequests ⟨0, 0⟩
      (times.map (fun t : ℕ ↦ (t : ℤ))) = times.map (fun t : ℕ ↦ (t : ℤ)) := by
    refine admitted_all (by decide) (by decide) [] (sorted_cast hsorted)
      (fun t ht ↦ ?_) (fun a ha ↦ ?_) (Nat.zero_le _)
    · obtain ⟨u, _, rfl⟩ := List.mem_map.mp ht
      exact Int.natCast_nonneg u
    · obtain ⟨start, rfl⟩ := Int.eq_ofNat_of_zero_le ha
      have h := hroom start
      rw [within_during] at h
      exact h
  refine List.map_injective_iff.mpr Int.ofNat_injective ?_
  rw [← opened_window_zero w i fd challenge, ← letThrough_admitted] at hall
  exact hall

def steady : List ℕ := List.replicate 100 60 ++ List.replicate 100 120

theorem steady_sorted : steady.Pairwise (· ≤ ·) := by decide +kernel

theorem steady_room (start : ℕ) :
    within start rateLimitWindow.toNat steady ≤ rateLimitMaxRequests := by
  have hwindow : rateLimitWindow.toNat = 60 := rfl
  have hmax : rateLimitMaxRequests = 100 := rfl
  rw [within, steady, List.countP_append, List.countP_replicate, List.countP_replicate, hwindow,
    hmax]
  simp only [decide_eq_true_eq]
  split_ifs <;> omega

theorem letThrough_all_steady :
    (steady.Pairwise (· ≤ ·) ∧
      ∀ start, within start rateLimitWindow.toNat steady ≤ rateLimitMaxRequests) ∧
    letThrough 0 (opened World.initial 0 0 (Block.zero _)) steady = steady :=
  ⟨⟨steady_sorted, steady_room⟩,
    letThrough_all World.initial 0 0 (Block.zero _) steady_sorted steady_room⟩

end CChat.Server.Limits
