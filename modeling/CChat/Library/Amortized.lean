import CChat.Library.Runs

namespace CChat.Library.Amortized

universe u v

variable {σ : Type u} {ι : Type v} (step : σ → ι → σ)

def total (cost : σ → ι → ℕ) : σ → List ι → ℕ
  | _, [] => 0
  | s, x :: xs => cost s x + total cost (step s x) xs

/-- A potential that pays for the work of every step, with what the step's
input brings in. -/
structure Covers (Q : σ → Prop) (potential : σ → ℕ) (spent paid : σ → ι → ℕ) : Prop where
  kept : ∀ s x, Q s → Q (step s x)
  balance : ∀ s x, Q s → potential (step s x) + spent s x ≤ potential s + paid s x

/-- A step that works and for which nothing comes in. -/
def Working (spent paid : σ → ι → ℕ) (s : σ) (x : ι) : Prop := 0 < spent s x ∧ paid s x = 0

variable {step} {Q : σ → Prop} {potential : σ → ℕ} {spent paid : σ → ι → ℕ}

theorem Covers.run (h : Covers step Q potential spent paid) {s : σ} (hs : Q s)
    (xs : List ι) : potential (Runs.run step s xs) + total step spent s xs ≤
      potential s + total step paid s xs := by
  induction xs generalizing s with
  | nil => exact Nat.le_refl _
  | cons x xs ih =>
    have hstep := h.balance s x hs
    have hlater := ih (h.kept s x hs)
    rw [Runs.run_cons, total, total]
    omega

theorem Covers.bounded (h : Covers step Q potential spent paid) {s : σ} (hs : Q s)
    {xs : List ι} (hx : Runs.Along step (Working spent paid) s xs) :
    potential (Runs.run step s xs) + xs.length ≤ potential s := by
  induction xs generalizing s with
  | nil => exact Nat.le_refl _
  | cons x xs ih =>
    obtain ⟨⟨hworks, hfree⟩, hlater⟩ := hx
    have hstep := h.balance s x hs
    have hrest := ih (h.kept s x hs) hlater
    rw [Runs.run_cons, List.length_cons]
    omega

/-- Where one of the inputs that work is to be had as long as the system is not at
rest, it comes to rest by these. -/
theorem Covers.settles (h : Covers step Q potential spent paid) {Rest : σ → Prop}
    {P : σ → ι → Prop} (hworks : ∀ s x, P s x → Working spent paid s x)
    (hable : ∀ s, Q s → ¬ Rest s → ∃ x, P s x) {s : σ} (hs : Q s) :
    ∃ xs, Runs.Along step P s xs ∧ Rest (Runs.run step s xs) := by
  induction hn : potential s using Nat.strongRecOn generalizing s with
  | ind n ih =>
    by_cases hrest : Rest s
    · exact ⟨[], trivial, hrest⟩
    · obtain ⟨x, hx⟩ := hable s hs hrest
      have hless : potential (step s x) < n := by
        have hstep := h.balance s x hs
        obtain ⟨hworks, hfree⟩ := hworks s x hx
        omega
      obtain ⟨xs, hxs, hend⟩ := ih _ hless (h.kept s x hs) rfl
      exact ⟨x :: xs, ⟨hx, hxs⟩, hend⟩

end CChat.Library.Amortized
