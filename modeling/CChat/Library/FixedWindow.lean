import Mathlib.Data.List.Count
import Mathlib.Data.Int.Notation

namespace CChat.Library.FixedWindow

structure Window where
  start : ℤ
  used : ℕ

variable (period : ℤ) (capacity : ℕ)

def refresh (c : Window) (now : ℤ) : Window :=
  if now - c.start ≥ period then ⟨now, 0⟩ else c

def allow (c : Window) (now : ℤ) : Option Window :=
  let c := refresh period c now
  if c.used < capacity then some { c with used := c.used + 1 } else none

def admitted : Window → List ℤ → List ℤ
  | _, [] => []
  | c, t :: ts =>
    match allow period capacity c t with
    | none => []
    | some c' => t :: admitted c' ts

def during (length a : ℤ) (ts : List ℤ) : ℕ :=
  ts.countP (fun t ↦ decide (a ≤ t ∧ t < a + length))

variable {period : ℤ} {capacity : ℕ} {c : Window}

theorem during_cons (length a t : ℤ) (ts : List ℤ) :
    during length a (t :: ts) =
      during length a ts + if a ≤ t ∧ t < a + length then 1 else 0 := by
  simp only [during, List.countP_cons, decide_eq_true_eq]

theorem during_append (length a : ℤ) (ts us : List ℤ) :
    during length a (ts ++ us) = during length a ts + during length a us := List.countP_append

theorem during_le {length length' : ℤ} (h : length ≤ length') (a : ℤ) (ts : List ℤ) :
    during length a ts ≤ during length' a ts := by
  refine List.countP_mono_left (fun t _ ht ↦ ?_)
  simp only [decide_eq_true_eq] at ht ⊢
  omega

theorem during_eq_zero {length a : ℤ} {ts : List ℤ} (h : ∀ t ∈ ts, a + length ≤ t) :
    during length a ts = 0 := by
  refine List.countP_eq_zero.mpr (fun t ht ↦ ?_)
  have := h t ht
  simp only [decide_eq_true_eq]
  omega

/-- What one arrival does: it is refused by a full window, counted in the
window it falls into, or the first of a new one. -/
inductive Arrival (period : ℤ) (capacity : ℕ) (c : Window) (t : ℤ) (ts : List ℤ) : Prop
  | refused (hin : t < c.start + period) (hfull : capacity ≤ c.used)
      (h : admitted period capacity c (t :: ts) = [])
  | counted (hin : t < c.start + period) (hroom : c.used < capacity)
      (h : admitted period capacity c (t :: ts) =
        t :: admitted period capacity ⟨c.start, c.used + 1⟩ ts)
  | opened (hout : c.start + period ≤ t)
      (h : admitted period capacity c (t :: ts) = t :: admitted period capacity ⟨t, 1⟩ ts)

variable (period) in
theorem admitted_cons (hcap : 0 < capacity) (c : Window) (t : ℤ) (ts : List ℤ) :
    Arrival period capacity c t ts := by
  by_cases hout : t - c.start ≥ period
  · refine .opened (by omega) ?_
    simp [admitted, allow, refresh, hout, hcap]
  · by_cases hroom : c.used < capacity
    · refine .counted (by omega) hroom ?_
      simp [admitted, allow, refresh, hout, hroom]
    · refine .refused (by omega) (by omega) ?_
      simp [admitted, allow, refresh, hout, hroom]

theorem admitted_first (hcap : 0 < capacity) (c : Window) (ts : List ℤ) :
    admitted period capacity c ts <+: ts := by
  induction ts generalizing c with
  | nil => exact List.prefix_rfl
  | cons t ts ih =>
    cases admitted_cons period hcap c t ts with
    | refused _ _ h => exact h ▸ List.nil_prefix
    | counted _ _ h => exact h ▸ (List.prefix_cons_inj t).mpr (ih _)
    | opened _ h => exact h ▸ (List.prefix_cons_inj t).mpr (ih _)

theorem admitted_le (hcap : 0 < capacity) {t : ℤ} {ts : List ℤ} (hts : ∀ u ∈ ts, t ≤ u)
    (c : Window) : ∀ u ∈ admitted period capacity c ts, t ≤ u :=
  fun u hu ↦ hts u ((admitted_first hcap c ts).subset hu)

/-- What is left of an open window bounds what is admitted before its end. -/
theorem within_window (hcap : 0 < capacity) {a : ℤ} {ts : List ℤ} (hsorted : ts.Pairwise (· ≤ ·))
    (ha : a ≤ c.start) : during period a (admitted period capacity c ts) ≤ capacity - c.used := by
  induction ts generalizing c with
  | nil => exact Nat.zero_le _
  | cons t ts ih =>
    obtain ⟨hle, hsorted⟩ := List.pairwise_cons.mp hsorted
    cases admitted_cons period hcap c t ts with
    | refused _ _ h =>
      rw [h]
      exact Nat.zero_le _
    | counted _ hroom h =>
      have hrest : during period a (admitted period capacity ⟨c.start, c.used + 1⟩ ts) ≤
          capacity - (c.used + 1) := ih hsorted ha
      rw [h, during_cons]
      split <;> omega
    | opened hout h =>
      rw [h, during_eq_zero]
      · exact Nat.zero_le _
      · intro u hu
        obtain rfl | hu := List.mem_cons.mp hu
        · omega
        · have := admitted_le hcap hle ⟨t, 1⟩ u hu
          omega

/-- The first window a request opens admits no more than its capacity. -/
theorem within_opened (hcap : 0 < capacity) {a t : ℤ} {ts : List ℤ}
    (hsorted : ts.Pairwise (· ≤ ·)) (ha : a ≤ t) :
    during period a (t :: admitted period capacity ⟨t, 1⟩ ts) ≤ capacity := by
  have hrest : during period a (admitted period capacity ⟨t, 1⟩ ts) ≤ capacity - 1 :=
    within_window hcap hsorted ha
  rw [during_cons]
  split <;> omega

/-- An interval that starts before the end of the open window reaches into the
next one at most. -/
theorem across_windows (hcap : 0 < capacity) {a : ℤ} {ts : List ℤ}
    (hsorted : ts.Pairwise (· ≤ ·)) (ha : a < c.start + period) :
    during period a (admitted period capacity c ts) ≤ capacity - c.used + capacity := by
  induction ts generalizing c with
  | nil => exact Nat.zero_le _
  | cons t ts ih =>
    obtain ⟨_, hsorted⟩ := List.pairwise_cons.mp hsorted
    cases admitted_cons period hcap c t ts with
    | refused _ _ h =>
      rw [h]
      exact Nat.zero_le _
    | counted _ hroom h =>
      have hrest : during period a (admitted period capacity ⟨c.start, c.used + 1⟩ ts) ≤
          capacity - (c.used + 1) + capacity := ih hsorted ha
      rw [h, during_cons]
      split <;> omega
    | opened hout h =>
      have hrest : during period a (t :: admitted period capacity ⟨t, 1⟩ ts) ≤ capacity :=
        within_opened hcap hsorted (by omega)
      rw [h]
      omega

/-- The request that opens a window is at its start, so an interval with
requests of a later one misses it. -/
theorem opened_window (hcap : 0 < capacity) (a : ℤ) {t : ℤ} {ts : List ℤ}
    (hsorted : ts.Pairwise (· ≤ ·))
    (hlater : during period a (admitted period capacity ⟨t, 1⟩ ts) ≤ 2 * capacity - 1) :
    during period a (t :: admitted period capacity ⟨t, 1⟩ ts) ≤ 2 * capacity - 1 := by
  by_cases ha : a ≤ t
  · have hopened : during period a (t :: admitted period capacity ⟨t, 1⟩ ts) ≤ capacity :=
      within_opened hcap hsorted ha
    omega
  · rw [during_cons, if_neg (fun h ↦ ha h.1)]
    exact hlater

theorem started_window (hcap : 0 < capacity) (a : ℤ) {ts : List ℤ}
    (hsorted : ts.Pairwise (· ≤ ·)) (hused : 0 < c.used) :
    during period a (admitted period capacity c ts) ≤ 2 * capacity - 1 := by
  induction ts generalizing c with
  | nil => exact Nat.zero_le _
  | cons t ts ih =>
    by_cases ha : a < c.start + period
    · have hacross := across_windows hcap hsorted ha
      omega
    · obtain ⟨_, hsorted⟩ := List.pairwise_cons.mp hsorted
      cases admitted_cons period hcap c t ts with
      | refused _ _ h =>
        rw [h]
        exact Nat.zero_le _
      | counted hin _ h =>
        rw [h, during_cons, if_neg (by omega)]
        exact ih hsorted (Nat.succ_pos _)
      | opened _ h =>
        rw [h]
        exact opened_window hcap a hsorted (ih hsorted Nat.one_pos)

/-- No interval of one period holds more than two windows let in. -/
theorem during_admitted (hcap : 0 < capacity) (c : Window) (a : ℤ) {ts : List ℤ}
    (hsorted : ts.Pairwise (· ≤ ·)) :
    during period a (admitted period capacity c ts) ≤ 2 * capacity := by
  cases ts with
  | nil => exact Nat.zero_le _
  | cons t ts =>
    obtain ⟨_, hsorted⟩ := List.pairwise_cons.mp hsorted
    cases admitted_cons period hcap c t ts with
    | refused _ _ h =>
      rw [h]
      exact Nat.zero_le _
    | counted _ _ h =>
      have hlater : during period a (admitted period capacity ⟨c.start, c.used + 1⟩ ts) ≤
          2 * capacity - 1 := started_window hcap a hsorted (Nat.succ_pos _)
      rw [h, during_cons]
      split <;> omega
    | opened _ h =>
      have hopened : during period a (t :: admitted period capacity ⟨t, 1⟩ ts) ≤
          2 * capacity - 1 :=
        opened_window hcap a hsorted (started_window hcap a hsorted Nat.one_pos)
      rw [h]
      omega

theorem during_admitted_opened (hcap : 0 < capacity) (a : ℤ) {ts : List ℤ}
    (hsorted : ts.Pairwise (· ≤ ·)) (hout : ∀ t ∈ ts, c.start + period ≤ t) :
    during period a (admitted period capacity c ts) ≤ 2 * capacity - 1 := by
  cases ts with
  | nil => exact Nat.zero_le _
  | cons t ts =>
    have hfirst := hout t List.mem_cons_self
    obtain ⟨_, hsorted⟩ := List.pairwise_cons.mp hsorted
    cases admitted_cons period hcap c t ts with
    | refused hin => omega
    | counted hin => omega
    | opened _ h =>
      rw [h]
      exact opened_window hcap a hsorted (started_window hcap a hsorted Nat.one_pos)

/-- Arrivals that never exceed the capacity in one period are all admitted: the
requests counted in the window are among those that arrived since its start. -/
theorem admitted_all (hcap : 0 < capacity) (hperiod : 0 < period) (past : List ℤ) {ts : List ℤ}
    (hsorted : ts.Pairwise (· ≤ ·)) (hstart : ∀ t ∈ ts, c.start ≤ t)
    (hroom : ∀ a, c.start ≤ a → during period a (past ++ ts) ≤ capacity)
    (hused : c.used ≤ during period c.start past) : admitted period capacity c ts = ts := by
  induction ts generalizing c past with
  | nil => rfl
  | cons t ts ih =>
    obtain ⟨hle, hsorted⟩ := List.pairwise_cons.mp hsorted
    have hfirst := hstart t List.mem_cons_self
    have hnext : ∀ a, c.start ≤ a → during period a ((past ++ [t]) ++ ts) ≤ capacity := by
      intro a ha
      rw [List.append_assoc]
      exact hroom a ha
    have hpast : ∀ a, a ≤ t → t < a + period →
        during period a (past ++ [t]) = during period a past + 1 := by
      intro a ha hin
      rw [during_append, during_cons, if_pos ⟨ha, hin⟩]
      rfl
    cases admitted_cons period hcap c t ts with
    | refused hin hfull h =>
      have hsum := hnext c.start (Int.le_refl _)
      rw [during_append, hpast _ hfirst hin] at hsum
      omega
    | counted hin _ h =>
      have hcount : c.used + 1 ≤ during period c.start (past ++ [t]) := by
        rw [hpast _ hfirst hin]
        exact Nat.succ_le_succ hused
      have hrest : admitted period capacity ⟨c.start, c.used + 1⟩ ts = ts :=
        ih _ hsorted (fun u hu ↦ hstart u (List.mem_cons_of_mem t hu)) hnext hcount
      rw [h, hrest]
    | opened _ h =>
      have hcount : 1 ≤ during period t (past ++ [t]) := by
        rw [hpast t (Int.le_refl t) (by omega)]
        exact Nat.succ_le_succ (Nat.zero_le _)
      have hrest : admitted period capacity ⟨t, 1⟩ ts = ts :=
        ih _ hsorted hle (fun a ha ↦ hnext a (Int.le_trans hfirst ha)) hcount
      rw [h, hrest]

end CChat.Library.FixedWindow
