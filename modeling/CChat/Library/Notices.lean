import Mathlib.Order.Basic

namespace CChat.Library.Notices

universe u v

/-- Registers that are written again and again, and observers who are told of
it: how often each register was written, which write each observer was told
of last, and which writes somebody has yet to tell an observer of. -/
structure Board (ω : Type u) (κ : Type v) where
  version : κ → ℕ
  seen : ω → κ → ℕ
  owed : ω → κ → ℕ → Prop

variable {ω : Type u} {κ : Type v} {b b' : Board ω κ} {o : ω} {k : κ} {v n : ℕ}

/-- Whoever learned the write `v` on the way to an observer learned the newest
one, or the observer was told that one or is going to be. -/
def Board.Due (b : Board ω κ) (o : ω) (k : κ) (v : ℕ) : Prop :=
  v = b.version k ∨ b.seen o k = b.version k ∨ b.owed o k (b.version k)

theorem Board.Due.keep (h : b.Due o k v) (hversion : b'.version k = b.version k)
    (hseen : b'.seen o k = b.seen o k)
    (howed : b.owed o k (b.version k) → b'.owed o k (b.version k)) : b'.Due o k v := by
  rw [Board.Due, hversion, hseen]
  exact h.imp_right (fun h ↦ h.imp_right howed)

theorem due_write (howed : b'.owed o k (b'.version k)) : b'.Due o k v := .inr (.inr howed)

/-- An observer is told of a write that is no older than the last one it was told of. -/
theorem Board.Due.told (h : b.Due o k v) (hversion : b'.version k = b.version k)
    (hseen : b'.seen o k = n) (hold : b.seen o k ≤ n) (hnew : n ≤ b.version k)
    (howed : b.owed o k (b.version k) → b'.owed o k (b.version k) ∨ n = b.version k) :
    b'.Due o k v := by
  rw [Board.Due, hversion, hseen]
  obtain hv | hv | hv := h
  · exact .inl hv
  · exact .inr (.inl (by omega))
  · obtain hv | hv := howed hv
    · exact .inr (.inr hv)
    · exact .inr (.inl hv)

theorem Board.Due.told_seen (h : b.Due o k (b.seen o k)) (hversion : b'.version k = b.version k)
    (hseen : b'.seen o k = n) (hold : b.seen o k ≤ n) (hnew : n ≤ b.version k)
    (howed : b.owed o k (b.version k) → b'.owed o k (b.version k) ∨ n = b.version k) :
    b'.Due o k (b'.seen o k) := by
  obtain hv | hv | hv := h.told hversion hseen hold hnew howed
  · rw [hversion] at hv
    exact .inr (.inl (by omega))
  · exact .inr (.inl hv)
  · exact .inr (.inr hv)

/-- Where nothing is left to tell, the last thing an observer was told is the newest. -/
theorem Board.Due.settled (h : b.Due o k (b.seen o k)) (howed : ∀ n, ¬ b.owed o k n) :
    b.seen o k = b.version k := by
  obtain hv | hv | hv := h
  · exact hv
  · exact hv
  · exact absurd hv (howed _)

end CChat.Library.Notices
