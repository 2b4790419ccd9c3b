import CChat.Threads.Closings

namespace CChat.Threads.Shutdown

open CChat.Library Descriptors Closings

variable {p q : Process} {i : ℕ}

theorem current_vacant (hfd : (p.slots i).socketFd = none) : Current p i := by
  intro fd hsome
  rw [hfd] at hsome
  cases hsome

theorem Kept.current_iff (hk : Kept p) {fd : Fd} (hfd : (p.slots i).socketFd = some fd) :
    Current p i ↔ fd ∉ p.closes := by
  rw [hk.current hfd]
  refine ⟨fun hcurrent ↦ hcurrent fd hfd, fun hcurrent x hx ↦ ?_⟩
  obtain rfl := Option.some.inj (hx.symm.trans hfd)
  exact hcurrent

/-- What a step does about closing: nothing, or one `close`, and that is the
descriptor's first exactly when the step is orderly. -/
structure Closing (p q : Process) (orderly : Prop) : Prop where
  closes : (q.closes = p.closes ∧ orderly) ∨
    ∃ fd, q.closes = p.closes ++ [fd] ∧ (orderly ↔ fd ∉ p.closes)

theorem Closing.silent {orderly : Prop} (hcloses : q.closes = p.closes) (h : orderly) :
    Closing p q orderly := ⟨.inl ⟨hcloses, h⟩⟩

theorem mainStep_closing (hk : Kept p) (hrunning : p.main ≠ .returned) (ok : Bool) :
    Closing p (mainStep p ok) (Orderly p (.main ok)) := by
  unfold mainStep Orderly
  cases hmain : p.main with
  | testing => exact .silent rfl trivial
  | accepting =>
    dsimp only
    split
    · exact .silent rfl trivial
    · exact .silent rfl trivial
  | scanning fd i =>
    dsimp only
    split
    · exact ⟨.inr ⟨fd, rfl, iff_of_true trivial (hk.scanned hmain).unclosed⟩⟩
    · split
      · exact .silent rfl trivial
      · exact .silent rfl trivial
  | creating fd i =>
    dsimp only
    have hclosed := (hk.created hmain).closed
    cases ok with
    | true => exact .silent rfl (fun h ↦ absurd h (by decide))
    | false =>
      refine ⟨.inr ⟨fd, rfl, ?_⟩⟩
      rw [hclosed, not_exists]
      exact ⟨fun h ↦ h rfl, fun h _ ↦ h⟩
  | abandoning i => exact .silent rfl trivial
  | stopping => exact .silent rfl trivial
  | closing =>
    refine ⟨.inr ⟨listening, rfl, ?_⟩⟩
    rw [hk.stopped, hmain]
    exact not_congr (or_iff_left (by decide)).symm
  | sweeping i =>
    dsimp only
    split
    · exact .silent rfl trivial
    · split
      · exact .silent rfl trivial
      · exact .silent rfl trivial
  | hangingUp i =>
    dsimp only
    cases hfd : (p.slots i).socketFd with
    | none => exact .silent rfl (current_vacant hfd)
    | some fd => exact ⟨.inr ⟨fd, rfl, Kept.current_iff hk hfd⟩⟩
  | forgetting i => exact .silent rfl trivial
  | returned => exact absurd hmain hrunning

theorem signalStep_closing (hk : Kept p) (hrunning : p.main ≠ .returned) :
    Closing p (signalStep p) (Orderly p .signal) := by
  unfold signalStep Orderly
  cases hsignal : p.signal with
  | pending => exact .silent rfl (fun h ↦ (by cases h))
  | closing =>
    refine ⟨.inr ⟨listening, rfl, fun h hmem ↦ ?_, fun h _ ↦ .inr ?_⟩⟩
    · have hcleaning := (h rfl).resolve_left hrunning
      rw [hk.stopped, hsignal, hcleaning] at hmem
      obtain h | h := hmem
      · cases h
      · cases h
    · exact Bool.eq_false_iff.mpr (fun hcleaning ↦ h (hk.stopped.mpr (.inr hcleaning)))
  | returned => exact .silent rfl (fun h ↦ (by cases h))

theorem handlerStep_closing (hk : Kept p) (hrunning : p.main ≠ .returned) (h : ℕ) :
    Closing p (handlerStep p h) (Orderly p (.handler h)) := by
  unfold handlerStep Orderly
  dsimp only
  cases hposition : (p.handlers h).position with
  | closing =>
    dsimp only
    have hcurrent : (Position.closing = .closing → p.main = .returned ∨
        Current p (p.handlers h).slot) ↔ Current p (p.handlers h).slot :=
      ⟨fun h ↦ (h rfl).resolve_left hrunning, fun h _ ↦ .inr h⟩
    cases hfd : (p.slots (p.handlers h).slot).socketFd with
    | none => exact .silent rfl (hcurrent.mpr (current_vacant hfd))
    | some fd => exact ⟨.inr ⟨fd, rfl, hcurrent.trans (Kept.current_iff hk hfd)⟩⟩
  | serving =>
    dsimp only
    split
    · exact .silent rfl (fun h ↦ (by cases h))
    · exact .silent rfl (fun h ↦ (by cases h))
  | absent => exact .silent rfl (fun h ↦ (by cases h))
  | testing => exact .silent rfl (fun h ↦ (by cases h))
  | resetting => exact .silent rfl (fun h ↦ (by cases h))
  | clearing => exact .silent rfl (fun h ↦ (by cases h))
  | unlocking => exact .silent rfl (fun h ↦ (by cases h))
  | returned => exact .silent rfl (fun h ↦ (by cases h))

theorem orderly_returned (hmain : p.main = .returned) (move : Move) : Orderly p move := by
  unfold Orderly
  cases move with
  | main ok =>
    rw [hmain]
    trivial
  | signal => exact fun _ ↦ .inl hmain
  | handler h => exact fun _ ↦ .inl hmain
  | logout h => trivial

theorem step_closing (hk : Kept p) (move : Move) : Closing p (step p move) (Orderly p move) := by
  unfold step
  split
  next hmain => exact .silent rfl (orderly_returned hmain move)
  next hrunning =>
    cases move with
    | main ok => exact mainStep_closing hk hrunning ok
    | signal => exact signalStep_closing hk hrunning
    | handler h => exact handlerStep_closing hk hrunning h
    | logout h =>
      refine .silent ?_ trivial
      unfold logoutStep
      dsimp only
      split
      · rfl
      · rfl

theorem step_closedOnce_iff (hk : Kept p) (hp : ClosedOnce p) (move : Move) :
    ClosedOnce (step p move) ↔ Orderly p move := by
  unfold ClosedOnce at hp ⊢
  obtain ⟨hcloses, horderly⟩ | ⟨fd, hcloses, horderly⟩ := (step_closing hk move).closes
  · rw [hcloses]
    exact iff_of_true hp horderly
  · rw [hcloses, horderly, List.nodup_append]
    refine ⟨fun h hmem ↦ h.2.2 fd hmem fd List.mem_cons_self rfl,
      fun hnot ↦ ⟨hp, List.nodup_singleton fd, fun a ha b hb hab ↦ ?_⟩⟩
    obtain rfl := List.mem_singleton.mp hb
    exact hnot (hab ▸ ha)

theorem closes_once_iff (moves : List Move) :
    Runs.Always step ClosedOnce Process.initial moves ↔
      Runs.Along step Orderly Process.initial moves := by
  have hkept : Runs.Always step Kept Process.initial moves :=
    Runs.always_invariant (Q := Kept) (fun _ move hk ↦ step_kept hk move) initial_kept moves
  refine ⟨fun h ↦ ?_, fun h ↦ ?_⟩
  · refine (hkept.and h).along (fun p move hp hq ↦ ?_)
    exact (step_closedOnce_iff hp.1 hp.2 move).mp hq.2
  · have hboth : Runs.Always step (fun p ↦ Kept p ∧ ClosedOnce p) Process.initial moves := by
      refine Runs.Along.always (fun p move hp horderly ↦ ?_) ⟨initial_kept, List.nodup_nil⟩ h
      exact ⟨step_kept hp.1 move, (step_closedOnce_iff hp.1 hp.2 move).mpr horderly⟩
    exact hboth.mono (fun p hp ↦ hp.2)

def shutdown : List Move := [.signal, .signal, .main true, .main true, .main true]

def hungUp : List Move :=
  [.main true, .main true, .main true, .main true, .signal] ++
    List.replicate 6 (.main true) ++ List.replicate 3 (.handler 0)

theorem shutdown_closes_twice :
    ¬ ClosedOnce (Runs.run step Process.initial shutdown) ∧
      ¬ ClosedOnce (Runs.run step Process.initial hungUp) := by
  unfold ClosedOnce
  decide

end CChat.Threads.Shutdown
