import Mathlib.Data.List.Count
import Mathlib.Data.UInt

namespace CChat.Library.Counter

universe u

/-- What a 32-bit counter that starts at one holds after `n` draws; the value
of the next draw is the same. -/
def ticket (n : ℕ) : UInt32 := UInt32.ofNat (n + 1)

theorem ticket_succ (n : ℕ) : ticket (n + 1) = ticket n + 1 := by
  simp [ticket, UInt32.ofNat_add]

theorem ticket_inj {n m : ℕ} (hn : n + 1 < 2 ^ 32) (hm : m + 1 < 2 ^ 32)
    (h : ticket n = ticket m) : n = m := by
  have hnat := congrArg UInt32.toNat h
  simp only [ticket, UInt32.toNat_ofNat'] at hnat
  rw [Nat.mod_eq_of_lt hn, Nat.mod_eq_of_lt hm] at hnat
  omega

variable {α : Type u} {owners owners' : List α} {a b : α} {x y : UInt32}

def Drawn (owners : List α) (a : α) (x : UInt32) : Prop :=
  ∃ n, owners[n]? = some a ∧ x = ticket n

theorem Drawn.append (h : Drawn owners a x) (more : List α) : Drawn (owners ++ more) a x := by
  obtain ⟨n, hn, hx⟩ := h
  have hlt : n < owners.length := (List.getElem?_eq_some_iff.mp hn).1
  exact ⟨n, by rw [List.getElem?_append_left hlt, hn], hx⟩

theorem drawn_last (owners : List α) (a : α) :
    Drawn (owners ++ [a]) a (ticket owners.length) :=
  ⟨owners.length, List.getElem?_concat_length, rfl⟩

theorem Drawn.owner (h : Drawn owners a x) (h' : Drawn owners b x)
    (hfew : owners.length < 2 ^ 32) : a = b := by
  obtain ⟨n, hn, hx⟩ := h
  obtain ⟨m, hm, hy⟩ := h'
  have hnlt : n < owners.length := (List.getElem?_eq_some_iff.mp hn).1
  have hmlt : m < owners.length := (List.getElem?_eq_some_iff.mp hm).1
  obtain rfl := ticket_inj (by omega) (by omega) (hx.symm.trans hy)
  exact Option.some.inj (hn.symm.trans hm)

def Once (P : α → Prop) (owners : List α) : Prop :=
  ∀ (n m : ℕ) (a : α), P a → owners[n]? = some a → owners[m]? = some a → n = m

theorem Drawn.value {P : α → Prop} (h : Drawn owners a x) (h' : Drawn owners a y)
    (honce : Once P owners) (ha : P a) : x = y := by
  obtain ⟨n, hn, hx⟩ := h
  obtain ⟨m, hm, hy⟩ := h'
  rw [hx, hy, honce n m a ha hn hm]

theorem once_nil (P : α → Prop) : Once P [] := by
  intro n m a _ hn
  cases hn

theorem Once.append {P : α → Prop} (h : Once P owners) (hb : P b → b ∉ owners) :
    Once P (owners ++ [b]) := by
  have hlast : ∀ (n : ℕ) (a : α), P a → (owners ++ [b])[n]? = some a →
      owners[n]? = some a ∨ n = owners.length ∧ a = b := by
    intro n a _ hn
    rw [List.getElem?_append] at hn
    split at hn
    · exact .inl hn
    next hge =>
      obtain ⟨hlt, hval⟩ := List.getElem?_eq_some_iff.mp hn
      simp only [List.length_singleton] at hlt
      refine .inr ⟨by omega, ?_⟩
      simpa using hval.symm
  intro n m a ha hn hm
  obtain hn' | ⟨hn', heq⟩ := hlast n a ha hn
  · obtain hm' | ⟨_, heq⟩ := hlast m a ha hm
    · exact h n m a ha hn' hm'
    · subst heq
      exact absurd (List.mem_of_getElem? hn') (hb ha)
  · obtain hm' | ⟨hm', _⟩ := hlast m a ha hm
    · subst heq
      exact absurd (List.mem_of_getElem? hm') (hb ha)
    · rw [hn', hm']

end CChat.Library.Counter
