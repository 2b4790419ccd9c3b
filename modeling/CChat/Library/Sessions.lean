import Mathlib.Data.List.Basic
import Mathlib.Logic.Function.Basic

namespace CChat.Library.Sessions

universe u v w

variable {ι : Type u} {κ : Type v} {β : Type w}

def latest (p : ι → Bool) (marks : List (ι × β)) : Option β :=
  (marks.filter (fun m ↦ p m.1)).getLast?.map Prod.snd

theorem latest_concat (p : ι → Bool) (marks : List (ι × β)) (i : ι) (b : β) :
    latest p (marks ++ [(i, b)]) = if p i then some b else latest p marks := by
  cases hp : p i <;> simp [latest, List.filter_append, hp]

theorem latest_congr {p q : ι → Bool} (h : ∀ i, p i = q i) (marks : List (ι × β)) :
    latest p marks = latest q marks := by rw [funext h]

theorem latest_none {p : ι → Bool} (h : ∀ i, p i = false) (marks : List (ι × β)) :
    latest p marks = none := by simp [latest, h]

theorem latest_isSome {p : ι → Bool} {marks : List (ι × β)} {i : ι} {b : β} (hp : p i = true)
    (h : (i, b) ∈ marks) : (latest p marks).isSome := by
  have hmem : (i, b) ∈ marks.filter (fun m ↦ p m.1) := List.mem_filter.mpr ⟨h, hp⟩
  rw [latest, Option.isSome_map, List.getLast?_isSome]
  exact List.ne_nil_of_mem hmem

/-- Registers that are written through sessions: the register each session is
open on, what a register holds, and what was written through which session. -/
structure Board (ι : Type u) (κ : Type v) (β : Type w) where
  owner : ι → Option κ
  value : κ → Option β
  marks : List (ι × β)

inductive Move (ι : Type u) (κ : Type v) (β : Type w)
  | create (k : κ)
  | join (i : ι) (k : κ) (b : β)
  | write (i : ι) (b : β)
  | leave (i : ι)

variable [DecidableEq ι] [DecidableEq κ] (d : β)

/-- A new register holds `d`, and `leave` writes `d`. -/
def Board.move (B : Board ι κ β) : Move ι κ β → Board ι κ β
  | .create k => { B with value := Function.update B.value k (some d) }
  | .join i k b => ⟨Function.update B.owner i (some k), Function.update B.value k (some b),
      B.marks ++ [(i, b)]⟩
  | .write i b =>
    match B.owner i with
    | none => B
    | some k => ⟨B.owner, Function.update B.value k (some b), B.marks ++ [(i, b)]⟩
  | .leave i =>
    match B.owner i with
    | none => B
    | some k => ⟨Function.update B.owner i none, Function.update B.value k (some d), B.marks⟩

def Board.current (B : Board ι κ β) (k : κ) : β :=
  (latest (fun i ↦ decide (B.owner i = some k)) B.marks).getD d

def Board.without (B : Board ι κ β) (i : ι) (k : κ) : β :=
  (latest (fun j ↦ decide (B.owner j = some k ∧ j ≠ i)) B.marks).getD d

def Board.Follows (B : Board ι κ β) : Prop := ∀ k b, B.value k = some b → b = B.current d k

structure Board.Valid (B : Board ι κ β) : Prop where
  owned : ∀ i k, B.owner i = some k → (B.value k).isSome
  marked : ∀ i k, B.owner i = some k → ∃ b, (i, b) ∈ B.marks

def Board.Enabled (B : Board ι κ β) : Move ι κ β → Prop
  | .create k => B.value k = none
  | .join _ k _ => (B.value k).isSome
  | .write _ _ => True
  | .leave _ => True

def Board.Permits (B : Board ι κ β) : Move ι κ β → Prop
  | .create _ => True
  | .join i k _ => ∀ l, B.owner i = some l → l ≠ k → B.value l = some (B.without d i l)
  | .write _ _ => True
  | .leave i => ∀ k, B.owner i = some k → B.without d i k = d

variable {d} {B : Board ι κ β}

omit [DecidableEq ι] in
theorem Board.Follows.closed (h : B.Follows d) {k : κ} {b : β} (hk : B.value k = some b)
    (hnone : ∀ i, B.owner i ≠ some k) : b = d := by
  rw [h k b hk, Board.current, latest_none (fun i ↦ by simpa using hnone i)]
  rfl

omit [DecidableEq ι] in
theorem Board.Follows.written (h : B.Follows d) (hv : B.Valid) {i : ι} {k : κ} {b : β}
    (hk : B.value k = some b) (hi : B.owner i = some k) :
    latest (fun j ↦ decide (B.owner j = some k)) B.marks = some b := by
  obtain ⟨b', hmark⟩ := hv.marked i k hi
  have hsome := latest_isSome (p := fun j ↦ decide (B.owner j = some k)) (by simpa using hi) hmark
  obtain ⟨c, hc⟩ := Option.isSome_iff_exists.mp hsome
  rw [hc, h k b hk, Board.current, hc]
  rfl

theorem move_valid (hv : B.Valid) {m : Move ι κ β} (he : B.Enabled m) : (B.move d m).Valid := by
  have hsome : ∀ (k l : κ) (b : β), (B.value l).isSome →
      (Function.update B.value k (some b) l).isSome := by
    intro k l b hl
    by_cases h : l = k
    · subst h
      simp
    · rw [Function.update_of_ne h]
      exact hl
  have hself : ∀ (k : κ) (b : β), (Function.update B.value k (some b) k).isSome := by simp
  cases m with
  | create k => exact ⟨fun i l hi ↦ hsome k l d (hv.owned i l hi), hv.marked⟩
  | join i k b =>
    refine ⟨fun j l hj ↦ ?_, fun j l hj ↦ ?_⟩
    · by_cases h : j = i
      · subst h
        simp only [Board.move, Function.update_self, Option.some.injEq] at hj
        subst hj
        exact hself k b
      · simp only [Board.move, Function.update_of_ne h] at hj
        exact hsome k l b (hv.owned j l hj)
    · by_cases h : j = i
      · exact ⟨b, by simp [Board.move, h]⟩
      · simp only [Board.move, Function.update_of_ne h] at hj
        obtain ⟨b', hb'⟩ := hv.marked j l hj
        exact ⟨b', List.mem_append_left _ hb'⟩
  | write i b =>
    cases hi : B.owner i with
    | none =>
      simp only [Board.move, hi]
      exact hv
    | some k =>
      simp only [Board.move, hi]
      refine ⟨fun j l hj ↦ hsome k l b (hv.owned j l hj), fun j l hj ↦ ?_⟩
      obtain ⟨b', hb'⟩ := hv.marked j l hj
      exact ⟨b', List.mem_append_left _ hb'⟩
  | leave i =>
    cases hi : B.owner i with
    | none =>
      simp only [Board.move, hi]
      exact hv
    | some k =>
      simp only [Board.move, hi]
      have hback : ∀ j l, Function.update B.owner i none j = some l → B.owner j = some l := by
        intro j l hj
        by_cases h : j = i
        · rw [h, Function.update_self] at hj
          cases hj
        · rwa [Function.update_of_ne h] at hj
      exact ⟨fun j l hj ↦ hsome k l d (hv.owned j l (hback j l hj)),
        fun j l hj ↦ hv.marked j l (hback j l hj)⟩

theorem create_follows (hv : B.Valid) (hf : B.Follows d) {k : κ} (hk : B.value k = none) :
    (B.move d (.create k)).Follows d := by
  intro l b hl
  by_cases h : l = k
  · subst h
    simp only [Board.move, Function.update_self, Option.some.injEq] at hl
    rw [← hl, Board.current, latest_none]
    · rfl
    · intro i
      refine decide_eq_false (fun hi ↦ ?_)
      have hsome := hv.owned i l hi
      rw [hk] at hsome
      cases hsome
  · simp only [Board.move, Function.update_of_ne h] at hl
    exact hf l b hl

theorem write_follows (hf : B.Follows d) (i : ι) (b : β) :
    (B.move d (.write i b)).Follows d := by
  cases hi : B.owner i with
  | none =>
    simp only [Board.move, hi]
    exact hf
  | some k =>
    simp only [Board.move, hi]
    intro l c hl
    rw [Board.current, latest_concat]
    dsimp only at hl ⊢
    by_cases h : l = k
    · subst h
      simp only [Function.update_self, Option.some.injEq] at hl
      rw [if_pos (decide_eq_true hi), ← hl]
      rfl
    · rw [Function.update_of_ne h] at hl
      rw [if_neg (by simpa [hi] using Ne.symm h)]
      exact hf l c hl

/-- What a session's move to another register, or its end, leaves behind. -/
theorem current_moved {o : Option κ} {i : ι} {k : κ} (ho : o ≠ some k) :
    (latest (fun j ↦ decide (Function.update B.owner i o j = some k)) B.marks).getD d =
      if B.owner i = some k then B.without d i k else B.current d k := by
  split
  next hi =>
    refine congrArg (Option.getD · d) (latest_congr (fun j ↦ ?_) B.marks)
    by_cases h : j = i
    · subst h
      simp [ho]
    · simp [h]
  next hi =>
    refine congrArg (Option.getD · d) (latest_congr (fun j ↦ ?_) B.marks)
    by_cases h : j = i
    · subst h
      simp [ho, hi]
    · simp [h]

theorem join_follows_iff (hf : B.Follows d) (hv : B.Valid) {i : ι} {k : κ} {b : β} :
    (B.move d (.join i k b)).Follows d ↔ B.Permits d (.join i k b) := by
  have hother : ∀ l, l ≠ k → (B.move d (.join i k b)).current d l =
      if B.owner i = some l then B.without d i l else B.current d l := by
    intro l hl
    have hmoved : (some k : Option κ) ≠ some l := fun h ↦ hl (Option.some.inj h).symm
    rw [← current_moved hmoved, Board.current, Board.move, latest_concat, if_neg]
    simpa using hl.symm
  refine ⟨fun h l hi hl ↦ ?_, fun h l c hc ↦ ?_⟩
  · obtain ⟨c, hc⟩ := Option.isSome_iff_exists.mp (hv.owned i l hi)
    have hcur := h l c (by simp only [Board.move, Function.update_of_ne hl, hc])
    rw [hother l hl, if_pos hi] at hcur
    rw [hc, hcur]
  · by_cases hl : l = k
    · subst hl
      simp only [Board.move, Function.update_self, Option.some.injEq] at hc
      rw [Board.current, Board.move, latest_concat, if_pos (by simp), hc]
      rfl
    · rw [hother l hl]
      simp only [Board.move, Function.update_of_ne hl] at hc
      split
      next hi => exact Option.some.inj (hc.symm.trans (h l hi hl))
      · exact hf l c hc

theorem leave_follows_iff (hf : B.Follows d) {i : ι} :
    (B.move d (.leave i)).Follows d ↔ B.Permits d (.leave i) := by
  cases hi : B.owner i with
  | none =>
    have hmove : B.move d (.leave i) = B := by simp only [Board.move, hi]
    rw [hmove]
    refine iff_of_true hf (fun k hk ↦ ?_)
    rw [hi] at hk
    cases hk
  | some k =>
    have hcur : ∀ l, (B.move d (.leave i)).current d l =
        if B.owner i = some l then B.without d i l else B.current d l := by
      intro l
      rw [← current_moved (o := none) (by simp), Board.current]
      simp only [Board.move, hi]
    have hvalue : (B.move d (.leave i)).value = Function.update B.value k (some d) := by
      simp only [Board.move, hi]
    refine ⟨fun h l hl ↦ ?_, fun h l c hc ↦ ?_⟩
    · obtain rfl := Option.some.inj (hi.symm.trans hl)
      have hd := h k d (by rw [hvalue, Function.update_self])
      rw [hcur, if_pos hi] at hd
      exact hd.symm
    · rw [hvalue] at hc
      rw [hcur]
      by_cases hl : l = k
      · subst hl
        rw [Function.update_self] at hc
        rw [if_pos hi, h l hi, Option.some.inj hc]
      · rw [Function.update_of_ne hl] at hc
        rw [hi, if_neg (fun h' ↦ hl (Option.some.inj h').symm)]
        exact hf l c hc

/-- A move keeps every register in step exactly when it takes no session away
from a register that depends on it. -/
theorem move_follows_iff (hv : B.Valid) (hf : B.Follows d) {m : Move ι κ β} (he : B.Enabled m) :
    (B.move d m).Follows d ↔ B.Permits d m := by
  cases m with
  | create k => exact iff_of_true (create_follows hv hf he) trivial
  | join i k b => exact join_follows_iff hf hv
  | write i b => exact iff_of_true (write_follows hf i b) trivial
  | leave i => exact leave_follows_iff hf

end CChat.Library.Sessions
