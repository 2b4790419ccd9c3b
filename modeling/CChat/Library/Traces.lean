import Mathlib.Data.List.Basic

namespace CChat.Library.Traces

universe u

variable {α : Type u} {P : List α → α → Prop}

/-- Every entry of a trace stands in the given relation to what came before it. -/
def Justified (P : List α → α → Prop) (t : List α) : Prop :=
  ∀ pre e post, t = pre ++ e :: post → P pre e

theorem Justified.nil : Justified P [] := by
  intro pre e post h
  cases pre <;> cases h

theorem Justified.concat {t : List α} {e : α} (h : Justified P t) (he : P t e) :
    Justified P (t ++ [e]) := by
  intro pre d post hsplit
  rw [List.append_eq_append_iff] at hsplit
  obtain ⟨as, hpre, hpost⟩ | ⟨bs, ht, hpost⟩ := hsplit
  · cases as with
    | nil =>
      obtain ⟨rfl, rfl⟩ := List.cons.inj hpost
      rw [hpre, List.append_nil]
      exact he
    | cons a as => simp at hpost
  · cases bs with
    | nil =>
      obtain ⟨rfl, rfl⟩ := List.cons.inj hpost
      rw [List.append_nil] at ht
      exact ht ▸ he
    | cons b bs =>
      rw [List.cons_append] at hpost
      obtain ⟨rfl, _⟩ := List.cons.inj hpost
      exact h pre d bs ht

theorem Justified.of_append {t es : List α} (h : Justified P (t ++ es)) : Justified P t := by
  intro pre e post ht
  refine h pre e (post ++ es) ?_
  rw [ht, List.append_assoc, List.cons_append]

end CChat.Library.Traces
