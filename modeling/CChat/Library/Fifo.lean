import Mathlib.Data.List.Basic

namespace CChat.Library.Fifo

universe u v

variable {α : Type u} {σ : Type v}

/-- Append to a queue of at most `n` entries; a full one stays as it is. -/
def enqueue (n : ℕ) (x : α) (xs : List α) : List α := if xs.length < n then xs ++ [x] else xs

/-- Hand the entries over oldest first, up to the first attempt that fails. The
results are the entries left and the state behind the attempts. -/
def drain (attempt : σ → α → Bool × σ) : σ → List α → List α × σ
  | s, [] => ([], s)
  | s, x :: xs =>
    let tried := attempt s x
    if tried.1 then drain attempt tried.2 xs else (x :: xs, tried.2)

inductive HandedOver (attempt : σ → α → Bool × σ) : σ → List α → σ → Prop
  | nil (s : σ) : HandedOver attempt s [] s
  | cons {s t : σ} {x : α} {xs : List α} (hx : (attempt s x).1 = true)
      (h : HandedOver attempt (attempt s x).2 xs t) : HandedOver attempt s (x :: xs) t

variable {attempt : σ → α → Bool × σ}

/-- What is taken off the queue is handed over, and the first of what stays is
the entry whose attempt failed. -/
theorem drain_split (s : σ) (xs : List α) :
    ∃ sent t, HandedOver attempt s sent t ∧ xs = sent ++ (drain attempt s xs).1 ∧
      (drain attempt s xs = ([], t) ∨
        ∃ x rest, (attempt t x).1 = false ∧ drain attempt s xs = (x :: rest, (attempt t x).2)) := by
  induction xs generalizing s with
  | nil => exact ⟨[], s, .nil s, rfl, .inl rfl⟩
  | cons x xs ih =>
    cases hx : (attempt s x).1 with
    | false =>
      have hstop : drain attempt s (x :: xs) = (x :: xs, (attempt s x).2) := by simp [drain, hx]
      exact ⟨[], s, .nil s, by rw [hstop]; rfl, .inr ⟨x, xs, hx, hstop⟩⟩
    | true =>
      have hgo : drain attempt s (x :: xs) = drain attempt (attempt s x).2 xs := by simp [drain, hx]
      obtain ⟨sent, t, hsent, hsplit, hend⟩ := ih (attempt s x).2
      refine ⟨x :: sent, t, .cons hx hsent, ?_, hgo ▸ hend⟩
      rw [hgo, List.cons_append, ← hsplit]

end CChat.Library.Fifo
