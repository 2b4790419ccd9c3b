import Mathlib.Data.List.Basic
import Mathlib.Logic.Relation

namespace CChat.Library.Runs

universe u v

variable {σ : Type u} {ι : Type v} (step : σ → ι → σ)

def run (s : σ) (xs : List ι) : σ := xs.foldl step s

@[simp] theorem run_nil (s : σ) : run step s [] = s := rfl

@[simp] theorem run_cons (s : σ) (x : ι) (xs : List ι) :
    run step s (x :: xs) = run step (step s x) xs := rfl

/-- Every step of the run meets a condition on the state before it and its input. -/
def Along (P : σ → ι → Prop) : σ → List ι → Prop
  | _, [] => True
  | s, x :: xs => P s x ∧ Along P (step s x) xs

/-- Every state reached along the run has a property, the first and last included. -/
def Always (Q : σ → Prop) : σ → List ι → Prop
  | s, [] => Q s
  | s, x :: xs => Q s ∧ Always Q (step s x) xs

instance decidableAlong {P : σ → ι → Prop} [∀ s x, Decidable (P s x)] :
    (s : σ) → (xs : List ι) → Decidable (Along step P s xs)
  | _, [] => isTrue trivial
  | s, x :: xs =>
    have : Decidable (Along step P (step s x) xs) := decidableAlong (step s x) xs
    inferInstanceAs (Decidable (P s x ∧ Along step P (step s x) xs))

variable {step} {P : σ → ι → Prop} {Q : σ → Prop}

theorem Always.first {s : σ} {xs : List ι} (h : Always step Q s xs) : Q s := by
  cases xs with
  | nil => exact h
  | cons x xs => exact h.1

theorem Always.last {s : σ} {xs : List ι} (h : Always step Q s xs) : Q (run step s xs) := by
  induction xs generalizing s with
  | nil => exact h
  | cons x xs ih => exact ih h.2

theorem run_invariant (hstep : ∀ s x, Q s → Q (step s x)) {s : σ} (h : Q s) (xs : List ι) :
    Q (run step s xs) := by
  induction xs generalizing s with
  | nil => exact h
  | cons x xs ih => exact ih (hstep s x h)

/-- What a step preserves under a condition holds along the runs that meet it. -/
theorem Along.always (hstep : ∀ s x, Q s → P s x → Q (step s x)) {s : σ} {xs : List ι}
    (h : Q s) (hp : Along step P s xs) : Always step Q s xs := by
  induction xs generalizing s with
  | nil => exact h
  | cons x xs ih => exact ⟨h, ih (hstep s x h hp.1) hp.2⟩

theorem Along.and_inputs {p : ι → Prop} {s : σ} {xs : List ι} (h : Along step P s xs)
    (hp : ∀ x ∈ xs, p x) : Along step (fun t x ↦ P t x ∧ p x) s xs := by
  induction xs generalizing s with
  | nil => trivial
  | cons x xs ih =>
    exact ⟨⟨h.1, hp x List.mem_cons_self⟩, ih h.2 (fun y hy ↦ hp y (List.mem_cons_of_mem x hy))⟩

/-- When a step outside a condition leaves a mark that later steps keep, a run
that ends without the mark met the condition all along. -/
theorem along_of_unmarked {R : σ → Prop} (hinv : ∀ s x, Q s → Q (step s x))
    (hkeep : ∀ s x, Q s → R s → R (step s x)) (hmark : ∀ s x, Q s → ¬ P s x → R (step s x))
    {s : σ} {xs : List ι} (h : Q s) (hend : ¬ R (run step s xs)) : Along step P s xs := by
  induction xs generalizing s with
  | nil => trivial
  | cons x xs ih =>
    refine ⟨?_, ih (hinv s x h) hend⟩
    by_contra hx
    have hlast : Q (run step (step s x) xs) ∧ R (run step (step s x) xs) :=
      run_invariant (Q := fun t ↦ Q t ∧ R t) (fun t y ht ↦ ⟨hinv t y ht.1, hkeep t y ht.1 ht.2⟩)
        ⟨hinv s x h, hmark s x h hx⟩ xs
    exact hend hlast.2

/-- A condition that every step between two good states meets holds along the run. -/
theorem Always.along (hstep : ∀ s x, Q s → Q (step s x) → P s x) {s : σ} {xs : List ι}
    (h : Always step Q s xs) : Along step P s xs := by
  induction xs generalizing s with
  | nil => trivial
  | cons x xs ih => exact ⟨hstep s x h.1 h.2.first, ih h.2⟩

theorem Always.mono {R : σ → Prop} (hqr : ∀ s, Q s → R s) {s : σ} {xs : List ι}
    (h : Always step Q s xs) : Always step R s xs := by
  induction xs generalizing s with
  | nil => exact hqr s h
  | cons x xs ih => exact ⟨hqr s h.1, ih h.2⟩

theorem Always.and {R : σ → Prop} {s : σ} {xs : List ι} (h : Always step Q s xs)
    (h' : Always step R s xs) : Always step (fun t ↦ Q t ∧ R t) s xs := by
  induction xs generalizing s with
  | nil => exact ⟨h, h'⟩
  | cons x xs ih => exact ⟨⟨h.1, h'.1⟩, ih h.2 h'.2⟩

/-- Two conditions that agree where an invariant holds agree along a run, when
the first of them keeps the invariant. -/
theorem along_iff {R : σ → ι → Prop} (hiff : ∀ s x, Q s → (P s x ↔ R s x))
    (hstep : ∀ s x, Q s → P s x → Q (step s x)) {s : σ} (h : Q s) (xs : List ι) :
    Along step P s xs ↔ Along step R s xs := by
  induction xs generalizing s with
  | nil => exact Iff.rfl
  | cons x xs ih =>
    constructor
    · rintro ⟨hx, hxs⟩
      exact ⟨(hiff s x h).mp hx, (ih (hstep s x h hx)).mp hxs⟩
    · rintro ⟨hx, hxs⟩
      have hx' := (hiff s x h).mpr hx
      exact ⟨hx', (ih (hstep s x h hx')).mpr hxs⟩

theorem always_invariant (hstep : ∀ s x, Q s → Q (step s x)) {s : σ} (h : Q s) (xs : List ι) :
    Always step Q s xs := by
  induction xs generalizing s with
  | nil => exact h
  | cons x xs ih => exact ⟨h, ih (hstep s x h)⟩

theorem run_related {S : σ → σ → Prop} {I : ι → ι → Prop}
    (hstep : ∀ s t x y, S s t → I x y → S (step s x) (step t y)) {s t : σ} (h : S s t)
    {xs ys : List ι} (hxs : List.Forall₂ I xs ys) : S (run step s xs) (run step t ys) := by
  induction hxs generalizing s t with
  | nil => exact h
  | cons hx _ ih => exact ih (hstep _ _ _ _ h hx)

/-- When a step tells its inputs apart by a view of them alone, so does a run. -/
theorem run_viewed {κ : Type*} {step' : σ → κ → σ} {view : ι → κ}
    (hstep : ∀ s x, Q s → Q (step s x)) (hview : ∀ s x, Q s → step s x = step' s (view x))
    {s : σ} (h : Q s) (xs : List ι) : run step s xs = run step' s (xs.map view) := by
  induction xs generalizing s with
  | nil => rfl
  | cons x xs ih =>
    rw [run_cons, ih (hstep s x h), hview s x h]
    rfl

theorem run_append (s : σ) (xs ys : List ι) :
    run step s (xs ++ ys) = run step (run step s xs) ys := List.foldl_append

theorem Along.append {s : σ} {xs ys : List ι} (h : Along step P s xs)
    (h' : Along step P (run step s xs) ys) : Along step P s (xs ++ ys) := by
  induction xs generalizing s with
  | nil => exact h'
  | cons x xs ih => exact ⟨h.1, ih h.2 h'⟩

/-- A system whose every step another one matches with a run of its own: each
of its runs is matched too. -/
theorem run_matched {τ κ : Type*} {step' : τ → κ → τ} {C : τ → κ → Prop} {R : σ → τ → Prop}
    (hstep : ∀ s t x, R s t → ∃ ys, Along step' C t ys ∧ R (step s x) (run step' t ys))
    {s : σ} {t : τ} (h : R s t) (xs : List ι) :
    ∃ ys, Along step' C t ys ∧ R (run step s xs) (run step' t ys) := by
  induction xs generalizing s t with
  | nil => exact ⟨[], trivial, h⟩
  | cons x xs ih =>
    obtain ⟨ys, hys, hr⟩ := hstep s t x h
    obtain ⟨zs, hzs, hend⟩ := ih hr
    refine ⟨ys ++ zs, hys.append hzs, ?_⟩
    rw [run_append]
    exact hend

end CChat.Library.Runs
