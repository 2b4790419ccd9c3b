import Mathlib.Data.Fintype.Card
import Mathlib.Data.Set.Insert
import Mathlib.Logic.Function.Basic
import Mathlib.Logic.Relation
import Mathlib.Order.WellFounded
import CChat.Library.Runs

namespace CChat.Library.Locking

universe u v

/-- A routine as far as its locks go: what it locks and unlocks on the way to
its result. It branches where anything but a lock decides. -/
inductive Code (M : Type u) (α : Type)
  | ret (a : α)
  | lock (m : M) (next : Code M α)
  | unlock (m : M) (next : Code M α)
  | decide (next : Bool → Code M α)
  | index (next : ℕ → Code M α)

variable {M : Type u} {α β : Type}

def Code.bind : Code M α → (α → Code M β) → Code M β
  | .ret a, f => f a
  | .lock m next, f => .lock m (next.bind f)
  | .unlock m next, f => .unlock m (next.bind f)
  | .decide next, f => .decide (fun b ↦ (next b).bind f)
  | .index next, f => .index (fun n ↦ (next n).bind f)

instance : Monad (Code M) where
  pure := .ret
  bind := Code.bind

def lock (m : M) : Code M Unit := .lock m (.ret ())

def unlock (m : M) : Code M Unit := .unlock m (.ret ())

def either : Code M Bool := .decide .ret

def someIndex : Code M ℕ := .index .ret

def each (body : ℕ → Code M Unit) : ℕ → Code M Unit
  | 0 => pure ()
  | n + 1 => do
    each body n
    body n

variable (rank : M → ℕ)

/-- From a set of locks held, every lock taken ranks above all that are held,
every lock given back is held, and the result and the locks held at the end are
as wanted. -/
def Safe : Code M α → Set M → (α → Set M → Prop) → Prop
  | .ret a, held, post => post a held
  | .lock m next, held, post => (∀ x ∈ held, rank x < rank m) ∧ Safe next (insert m held) post
  | .unlock m next, held, post => m ∈ held ∧ Safe next (held \ {m}) post
  | .decide next, held, post => ∀ b, Safe (next b) held post
  | .index next, held, post => ∀ n, Safe (next n) held post

/-- Called with locks below a rank, the routine is safe and ends with the locks
it was called with. -/
def Restores (n : ℕ) (c : Code M α) : Prop :=
  ∀ held : Set M, (∀ x ∈ held, rank x < n) → Safe rank c held (fun _ after ↦ after = held)

/-- Called with a lock and others below a rank that the lock reaches, the
routine is safe and gives back that lock and no other. -/
def Releases (n : ℕ) (m : M) (c : Code M α) : Prop :=
  n ≤ rank m → ∀ held : Set M, (∀ x ∈ held, rank x < n) →
    Safe rank c (insert m held) (fun _ after ↦ after = held)

variable {rank}

theorem Safe.mono {c : Code M α} {held : Set M} {post post' : α → Set M → Prop}
    (h : Safe rank c held post) (hpost : ∀ a after, post a after → post' a after) :
    Safe rank c held post' := by
  induction c generalizing held with
  | ret a => exact hpost a held h
  | lock m next ih => exact ⟨h.1, ih h.2⟩
  | unlock m next ih => exact ⟨h.1, ih h.2⟩
  | decide next ih => exact fun b ↦ ih b (h b)
  | index next ih => exact fun n ↦ ih n (h n)

theorem Safe.bind {c : Code M α} {f : α → Code M β} {held : Set M} {post : β → Set M → Prop}
    (h : Safe rank c held (fun a after ↦ Safe rank (f a) after post)) :
    Safe rank (c >>= f) held post := by
  induction c generalizing held with
  | ret a => exact h
  | lock m next ih => exact ⟨h.1, ih h.2⟩
  | unlock m next ih => exact ⟨h.1, ih h.2⟩
  | decide next ih => exact fun b ↦ ih b (h b)
  | index next ih => exact fun n ↦ ih n (h n)

theorem Restores.pure (n : ℕ) (a : α) : Restores rank n (pure a : Code M α) := fun _ _ ↦ rfl

theorem Restores.either (n : ℕ) : Restores rank n (either : Code M Bool) := fun _ _ _ ↦ rfl

theorem Restores.someIndex (n : ℕ) : Restores rank n (someIndex : Code M ℕ) := fun _ _ _ ↦ rfl

theorem Restores.mono {n n' : ℕ} {c : Code M α} (h : Restores rank n' c) (hn : n ≤ n') :
    Restores rank n c := fun held hheld ↦ h held (fun x hx ↦ (hheld x hx).trans_le hn)

theorem Restores.bind {n : ℕ} {c : Code M α} {f : α → Code M β} (hc : Restores rank n c)
    (hf : ∀ a, Restores rank n (f a)) : Restores rank n (c >>= f) := by
  intro held hheld
  refine Safe.bind ((hc held hheld).mono ?_)
  rintro a _ rfl
  exact hf a _ hheld

theorem Restores.discard {n : ℕ} {c : Code M α} (h : Restores rank n c) :
    Restores rank n (discard c) := h.bind (fun _ ↦ .pure n _)

theorem Restores.branch {n : ℕ} {c c' : Code M α} (h : Restores rank n c)
    (h' : Restores rank n c') :
    Restores rank n (do if ← Locking.either then c else c') := by
  refine .bind (.either n) (fun b ↦ ?_)
  cases b with
  | false => exact h'
  | true => exact h

theorem Restores.each {n : ℕ} {body : ℕ → Code M Unit} (h : ∀ k, Restores rank n (body k))
    (turns : ℕ) : Restores rank n (each body turns) := by
  induction turns with
  | zero => exact .pure n ()
  | succ turns ih => exact ih.bind (fun _ ↦ h turns)

theorem Restores.locked {n : ℕ} {m : M} {c : Code M α} (hn : n ≤ rank m)
    (h : Releases rank n m c) : Restores rank n (do lock m; c) := fun held hheld ↦
  ⟨fun x hx ↦ (hheld x hx).trans_le hn, h hn held hheld⟩

theorem Releases.bind {n : ℕ} {m : M} {c : Code M α} {f : α → Code M β}
    (hc : Restores rank (rank m + 1) c) (hf : ∀ a, Releases rank n m (f a)) :
    Releases rank n m (c >>= f) := by
  intro hn held hheld
  refine Safe.bind ((hc _ ?_).mono ?_)
  · rintro x (rfl | hx)
    · exact Nat.lt_succ_self _
    · exact (hheld x hx).trans_le (hn.trans (Nat.le_succ _))
  · rintro a _ rfl
    exact hf a hn held hheld

theorem Releases.branch {n : ℕ} {m : M} {c c' : Code M α} (h : Releases rank n m c)
    (h' : Releases rank n m c') : Releases rank n m (do if ← either then c else c') := by
  refine .bind (.either _) (fun b ↦ ?_)
  cases b with
  | false => exact h'
  | true => exact h

theorem Releases.unlocked {n : ℕ} {m : M} {c : Code M α} (h : Restores rank n c) :
    Releases rank n m (do unlock m; c) := by
  intro hn held hheld
  have hnot : m ∉ held := fun hm ↦ absurd (hheld m hm) (Nat.not_lt.mpr hn)
  have hback : insert m held \ {m} = held := Set.insert_sdiff_self_of_notMem hnot
  refine ⟨Set.mem_insert m held, ?_⟩
  rw [hback]
  exact h held hheld

theorem Restores.visited {n : ℕ} {m : M} {c : Code M α} (hn : n ≤ rank m)
    (h : Restores rank n c) : Restores rank n (do lock m; unlock m; c) := .locked hn (.unlocked h)

/-- A lock taken and given back inside the critical section of another. -/
theorem Releases.visited {n : ℕ} {m m' : M} {c : Code M α} (hrank : rank m < rank m')
    (h : Releases rank n m c) : Releases rank n m (do lock m'; unlock m'; c) := by
  have hvisit : Restores rank (rank m + 1) (do lock m'; unlock m'; pure ()) :=
    .visited hrank (.pure _ ())
  have hseq : Releases rank n m ((do lock m'; unlock m'; pure ()) >>= fun _ ↦ c) :=
    .bind hvisit (fun _ ↦ h)
  exact hseq

structure Crew (ι : Type v) (M : Type u) where
  owner : M → Option ι
  code : ι → Code M Unit

section Crews

variable {ι : Type v}

def start (code : ι → Code M Unit) : Crew ι M := ⟨fun _ ↦ none, code⟩

def Waits (s : Crew ι M) (t u : ι) : Prop :=
  ∃ m next, s.code t = .lock m next ∧ s.owner m = some u

def Deadlocked (s : Crew ι M) : Prop := ∃ t, Relation.TransGen (Waits s) t t

def Returned (s : Crew ι M) (t : ι) : Prop := s.code t = .ret ()

def HoldsNothing (s : Crew ι M) (t : ι) : Prop := ∀ m, s.owner m ≠ some t

variable (rank) in
def Disciplined (s : Crew ι M) : Prop :=
  ∀ t, Safe rank (s.code t) {m | s.owner m = some t} (fun _ after ↦ after = ∅)

theorem start_disciplined {code : ι → Code M Unit} (h : ∀ t, Restores rank 0 (code t)) :
    Disciplined rank (start code) := by
  intro t
  have hnone : {m | (start code).owner m = some t} = ∅ :=
    Set.eq_empty_of_forall_notMem (fun m hm ↦ by cases hm)
  rw [hnone]
  exact h t ∅ (fun x hx ↦ absurd hx (Set.notMem_empty x))

variable {s : Crew ι M}

/-- Along a chain of waiting threads the locks waited for rank higher and higher. -/
theorem Disciplined.ascends (h : Disciplined rank s) {t u : ι}
    (hchain : Relation.TransGen (Waits s) t u) {m m' : M} {next next' : Code M Unit}
    (ht : s.code t = .lock m next) (hu : s.code u = .lock m' next') : rank m < rank m' := by
  have hedge : ∀ {a b : ι} {x y : M} {c d : Code M Unit}, Waits s a b → s.code a = .lock x c →
      s.code b = .lock y d → rank x < rank y := by
    rintro a b x y c d ⟨z, e, hz, howner⟩ ha hb
    obtain ⟨rfl, _⟩ := Code.lock.inj (hz.symm.trans ha)
    have hsafe := h b
    rw [hb] at hsafe
    exact hsafe.1 z howner
  induction hchain generalizing m' next' with
  | single hwaits => exact hedge hwaits ht hu
  | tail _ hwaits ih =>
    obtain ⟨x, c, hx, howner⟩ := hwaits
    exact (ih hx).trans (hedge ⟨x, c, hx, howner⟩ hx hu)

theorem Disciplined.not_deadlocked (h : Disciplined rank s) : ¬ Deadlocked s := by
  rintro ⟨t, hcycle⟩
  obtain ⟨u, ⟨m, next, hm, _⟩, _⟩ := Relation.TransGen.head'_iff.mp hcycle
  exact lt_irrefl _ (h.ascends hcycle hm hm)

theorem Disciplined.returned (h : Disciplined rank s) {t : ι} (ht : Returned s t) :
    HoldsNothing s t := by
  intro m hm
  have hsafe := h t
  rw [show s.code t = .ret () from ht] at hsafe
  have hempty : {x | s.owner x = some t} = ∅ := hsafe
  exact Set.notMem_empty m (hempty ▸ hm)

/-- As long as one of finitely many threads has not returned, one of those does
not wait. -/
theorem Disciplined.proceeds [Finite ι] (h : Disciplined rank s) {t : ι} (ht : ¬ Returned s t) :
    ∃ u, ¬ Returned s u ∧ ∀ v, ¬ Waits s u v := by
  let behind : ι → ι → Prop := fun a b ↦ Relation.TransGen (Waits s) b a
  have : IsTrans ι behind := ⟨fun _ _ _ hab hbc ↦ hbc.trans hab⟩
  have : Std.Irrefl behind := ⟨fun a ha ↦ h.not_deadlocked ⟨a, ha⟩⟩
  have hwell : WellFounded behind := Finite.wellFounded_of_trans_of_irrefl behind
  obtain ⟨u, hu, hmin⟩ := hwell.has_min {u | ¬ Returned s u} ⟨t, ht⟩
  refine ⟨u, hu, fun v hwaits ↦ hmin v (fun hv ↦ ?_) (.single hwaits)⟩
  obtain ⟨m, _, _, howner⟩ := hwaits
  exact h.returned hv m howner

variable [DecidableEq ι]

/-- A thread's move keeps the others to their locks as long as it leaves those alone. -/
theorem Disciplined.update (h : Disciplined rank s) {t : ι} {owner : M → Option ι}
    {next : Code M Unit} (howner : ∀ u, u ≠ t → ∀ m, owner m = some u ↔ s.owner m = some u)
    (hnext : Safe rank next {m | owner m = some t} (fun _ after ↦ after = ∅)) :
    Disciplined rank ⟨owner, Function.update s.code t next⟩ := by
  intro u
  by_cases hu : u = t
  · subst hu
    show Safe rank (Function.update s.code u next u) _ _
    rw [Function.update_self]
    exact hnext
  · show Safe rank (Function.update s.code t next u) {m | owner m = some u} _
    rw [Function.update_of_ne hu, Set.ext (howner u hu)]
    exact h u

variable [DecidableEq M]

/-- A thread does one thing; `n` settles where it branches. A lock that is held,
be it by the thread itself, is waited for. -/
def step (s : Crew ι M) (move : ι × ℕ) : Crew ι M :=
  match s.code move.1 with
  | .ret _ => s
  | .lock m next =>
    match s.owner m with
    | some _ => s
    | none => ⟨Function.update s.owner m (some move.1), Function.update s.code move.1 next⟩
  | .unlock m next =>
    ⟨Function.update s.owner m none, Function.update s.code move.1 next⟩
  | .decide next => { s with code := Function.update s.code move.1 (next (move.2 ≠ 0)) }
  | .index next => { s with code := Function.update s.code move.1 (next move.2) }

theorem step_disciplined (h : Disciplined rank s) (move : ι × ℕ) :
    Disciplined rank (step s move) := by
  obtain ⟨t, n⟩ := move
  have ht := h t
  unfold step
  dsimp only
  cases hcode : s.code t with
  | ret a => exact h
  | lock m next =>
    rw [hcode] at ht
    dsimp only
    cases howner : s.owner m with
    | some u => exact h
    | none =>
      refine h.update (fun u hu x ↦ ?_) ?_
      · by_cases hx : x = m
        · rw [hx, Function.update_self, howner]
          exact iff_of_false (fun heq ↦ hu (Option.some.inj heq).symm) (Option.some_ne_none u).symm
        · rw [Function.update_of_ne hx]
      · have hheld : {x | Function.update s.owner m (some t) x = some t} =
            insert m {x | s.owner x = some t} := by
          ext x
          by_cases hx : x = m
          · simp [hx]
          · simp [hx]
        rw [hheld]
        exact ht.2
  | unlock m next =>
    rw [hcode] at ht
    have howner : s.owner m = some t := ht.1
    refine h.update (fun u hu x ↦ ?_) ?_
    · by_cases hx : x = m
      · rw [hx, Function.update_self, howner]
        exact iff_of_false (Option.some_ne_none u).symm (fun heq ↦ hu (Option.some.inj heq).symm)
      · rw [Function.update_of_ne hx]
    · have hheld : {x | Function.update s.owner m none x = some t} =
          {x | s.owner x = some t} \ {m} := by
        ext x
        by_cases hx : x = m
        · simp [hx]
        · simp [hx]
      rw [hheld]
      exact ht.2
  | decide next =>
    rw [hcode] at ht
    exact h.update (fun _ _ _ ↦ Iff.rfl) (ht _)
  | index next =>
    rw [hcode] at ht
    exact h.update (fun _ _ _ ↦ Iff.rfl) (ht _)

theorem run_disciplined {code : ι → Code M Unit} (h : ∀ t, Restores rank 0 (code t))
    (moves : List (ι × ℕ)) : Disciplined rank (Runs.run step (start code) moves) :=
  Runs.run_invariant (Q := Disciplined rank) (fun _ move hs ↦ step_disciplined hs move)
    (start_disciplined h) moves

end Crews

end CChat.Library.Locking
