import Mathlib.Data.List.Basic
import Mathlib.Logic.Function.Basic

namespace CChat.Library.Circular

universe u

structure Buffer (α : Type u) where
  cells : ℕ → α
  head : ℕ
  tail : ℕ
  count : ℕ

variable {α : Type u} (n : ℕ)

def window (r : Buffer α) : List α :=
  (List.range r.count).map (fun k ↦ r.cells ((r.head + k) % n))

structure WellFormed (r : Buffer α) : Prop where
  head_lt : r.head < n
  count_le : r.count ≤ n
  tail_eq : r.tail = (r.head + r.count) % n

def writeTail (r : Buffer α) (x : α) : Buffer α :=
  { r with cells := Function.update r.cells r.tail x }

def advanceTail (r : Buffer α) : Buffer α :=
  { r with tail := (r.tail + 1) % n, count := r.count + 1 }

def push (r : Buffer α) (x : α) : Buffer α := advanceTail n (writeTail r x)

def writeHead (r : Buffer α) (x : α) : Buffer α :=
  { r with cells := Function.update r.cells r.head x }

def advanceHead (r : Buffer α) : Buffer α :=
  { r with head := (r.head + 1) % n, count := r.count - 1 }

def reset (r : Buffer α) : Buffer α := { r with head := 0, tail := 0, count := 0 }

variable {n} {r : Buffer α}

@[simp] theorem window_length (r : Buffer α) : (window n r).length = r.count := by
  simp [window]

@[simp] theorem window_reset (r : Buffer α) : window n (reset r) = [] := by
  simp [window, reset]

theorem zero_wellFormed (hn : 0 < n) (cells : ℕ → α) : WellFormed n ⟨cells, 0, 0, 0⟩ :=
  ⟨hn, Nat.zero_le _, by simp⟩

theorem reset_wellFormed (hn : 0 < n) (r : Buffer α) : WellFormed n (reset r) :=
  zero_wellFormed hn r.cells

theorem live_ne_tail (h : WellFormed n r) {k : ℕ} (hk : k < r.count) (hc : r.count < n) :
    (r.head + k) % n ≠ r.tail := by
  have hh := h.head_lt
  rw [h.tail_eq]
  by_cases hw : r.head + r.count < n
  · rw [Nat.mod_eq_of_lt hw, Nat.mod_eq_of_lt (by omega)]
    omega
  · have ht : (r.head + r.count) % n = r.head + r.count - n := by
      rw [Nat.mod_eq_sub_mod (by omega), Nat.mod_eq_of_lt (by omega)]
    by_cases hv : r.head + k < n
    · rw [ht, Nat.mod_eq_of_lt hv]
      omega
    · rw [ht, Nat.mod_eq_sub_mod (by omega), Nat.mod_eq_of_lt (by omega)]
      omega

theorem writeTail_window (h : WellFormed n r) (hc : r.count < n) (x : α) :
    window n (writeTail r x) = window n r := by
  refine List.map_congr_left (fun k hk ↦ ?_)
  have hne := live_ne_tail h (List.mem_range.mp hk) hc
  simp only [writeTail, Function.update_of_ne hne]

theorem writeTail_wellFormed (h : WellFormed n r) (x : α) : WellFormed n (writeTail r x) :=
  ⟨h.head_lt, h.count_le, h.tail_eq⟩

theorem push_window (h : WellFormed n r) (hc : r.count < n) (x : α) :
    window n (push n r x) = window n r ++ [x] := by
  have hold : (List.range r.count).map (fun k ↦ (writeTail r x).cells ((r.head + k) % n)) =
      window n r := writeTail_window h hc x
  have hnew : (writeTail r x).cells ((r.head + r.count) % n) = x := by
    rw [← h.tail_eq]
    simp [writeTail]
  have hsplit : window n (push n r x) =
      (List.range r.count).map (fun k ↦ (writeTail r x).cells ((r.head + k) % n)) ++
        [(writeTail r x).cells ((r.head + r.count) % n)] := by
    simp only [window, push, advanceTail, List.range_succ, List.map_append, List.map_cons,
      List.map_nil]
    rfl
  rw [hsplit, hold, hnew]

theorem push_wellFormed (h : WellFormed n r) (hc : r.count < n) (x : α) :
    WellFormed n (push n r x) := by
  refine ⟨h.head_lt, ?_, ?_⟩
  · exact hc
  · change (r.tail + 1) % n = (r.head + (r.count + 1)) % n
    rw [h.tail_eq, Nat.mod_add_mod, Nat.add_assoc]

theorem advanceHead_wellFormed (h : WellFormed n r) (hc : 0 < r.count) :
    WellFormed n (advanceHead n r) := by
  have hh := h.head_lt
  have hl := h.count_le
  refine ⟨Nat.mod_lt _ (by omega), ?_, ?_⟩
  · change r.count - 1 ≤ n
    omega
  · change r.tail = ((r.head + 1) % n + (r.count - 1)) % n
    rw [Nat.mod_add_mod, h.tail_eq]
    congr 1
    omega

theorem window_cons (h : WellFormed n r) (hc : 0 < r.count) :
    window n r = r.cells r.head :: window n (advanceHead n r) := by
  obtain ⟨c, hcount⟩ : ∃ c, r.count = c + 1 := ⟨r.count - 1, by omega⟩
  have hhead : (r.head + 0) % n = r.head := Nat.mod_eq_of_lt h.head_lt
  have htail : ∀ k, (r.head + (k + 1)) % n = ((r.head + 1) % n + k) % n := by
    intro k
    rw [Nat.mod_add_mod]
    congr 1
    omega
  have hrest : window n (advanceHead n r) =
      (List.range c).map (fun k ↦ r.cells (((r.head + 1) % n + k) % n)) := by
    rw [window, advanceHead, hcount, Nat.add_sub_cancel]
  rw [hrest, window, hcount, List.range_succ_eq_map, List.map_cons, List.map_map, hhead]
  congr 1
  refine List.map_congr_left (fun k _ ↦ ?_)
  rw [Function.comp_apply, Nat.succ_eq_add_one, htail]

theorem writeHead_advance_window (h : WellFormed n r) (hc : 0 < r.count) (x : α) :
    window n (advanceHead n (writeHead r x)) = window n (advanceHead n r) := by
  refine List.map_congr_left (fun k hk ↦ ?_)
  have hk' : k < r.count - 1 := List.mem_range.mp hk
  have hh := h.head_lt
  have hl := h.count_le
  have hne : ((r.head + 1) % n + k) % n ≠ r.head := by
    rw [Nat.mod_add_mod]
    by_cases hv : r.head + 1 + k < n
    · rw [Nat.mod_eq_of_lt hv]
      omega
    · rw [Nat.mod_eq_sub_mod (by omega), Nat.mod_eq_of_lt (by omega)]
      omega
  simp only [advanceHead, writeHead, Function.update_of_ne hne]

theorem writeHead_wellFormed (h : WellFormed n r) (x : α) : WellFormed n (writeHead r x) :=
  ⟨h.head_lt, h.count_le, h.tail_eq⟩

variable (n) in
def Occupied (r : Buffer α) (k : ℕ) : Prop := ∃ j < r.count, (r.head + j) % n = k

theorem tail_free (h : WellFormed n r) (hc : r.count < n) : ¬ Occupied n r r.tail := by
  rintro ⟨j, hj, htail⟩
  exact live_ne_tail h hj hc htail

theorem push_occupied (h : WellFormed n r) (x : α) {k : ℕ} :
    Occupied n (push n r x) k ↔ Occupied n r k ∨ k = r.tail := by
  have htail := h.tail_eq
  constructor
  · rintro ⟨j, hj, hk⟩
    obtain hj | rfl : j < r.count ∨ j = r.count := Nat.lt_succ_iff_lt_or_eq.mp hj
    · exact .inl ⟨j, hj, hk⟩
    · exact .inr (htail ▸ hk.symm)
  · rintro (⟨j, hj, hk⟩ | rfl)
    · exact ⟨j, Nat.lt_succ_of_lt hj, hk⟩
    · exact ⟨r.count, Nat.lt_succ_self _, htail.symm⟩

theorem advanceHead_occupied (h : WellFormed n r) (hc : 0 < r.count) {k : ℕ} :
    Occupied n r k ↔ k = r.head ∨ Occupied n (advanceHead n r) k := by
  have hshift : ∀ j, ((r.head + 1) % n + j) % n = (r.head + (j + 1)) % n := by
    intro j
    rw [Nat.mod_add_mod, Nat.add_assoc, Nat.add_comm 1 j]
  constructor
  · rintro ⟨j, hj, hk⟩
    cases j with
    | zero => exact .inl (hk ▸ Nat.mod_eq_of_lt h.head_lt)
    | succ j => exact .inr ⟨j, Nat.lt_sub_of_add_lt hj, (hshift j).trans hk⟩
  · rintro (rfl | ⟨j, hj, hk⟩)
    · exact ⟨0, hc, Nat.mod_eq_of_lt h.head_lt⟩
    · exact ⟨j + 1, Nat.add_lt_of_lt_sub hj, (hshift j).symm.trans hk⟩

theorem head_released (h : WellFormed n r) (hc : 0 < r.count) :
    ¬ Occupied n (advanceHead n r) r.head := by
  rintro ⟨j, hj, hk⟩
  have hh := h.head_lt
  have hl := h.count_le
  have hj' : j < r.count - 1 := hj
  have hk' : ((r.head + 1) % n + j) % n = r.head := hk
  rw [Nat.mod_add_mod] at hk'
  by_cases hv : r.head + 1 + j < n
  · rw [Nat.mod_eq_of_lt hv] at hk'
    omega
  · rw [Nat.mod_eq_sub_mod (by omega), Nat.mod_eq_of_lt (by omega)] at hk'
    omega

theorem Occupied.lt (h : WellFormed n r) {k : ℕ} (hk : Occupied n r k) : k < n := by
  obtain ⟨j, _, rfl⟩ := hk
  exact Nat.mod_lt _ (Nat.zero_lt_of_lt h.head_lt)

/-- The window is the front of the cells only when it does not start elsewhere. -/
theorem occupied_front_iff (h : WellFormed n r) :
    (∀ k, Occupied n r k → k < r.count) ↔ r.count = 0 ∨ r.head = 0 ∨ r.count = n := by
  have hhead := h.head_lt
  have hcount := h.count_le
  constructor
  · intro hfront
    by_contra hnot
    rw [not_or, not_or] at hnot
    obtain ⟨hzero, hstart, hfull⟩ := hnot
    by_cases hbehind : r.count ≤ r.head
    · have hfirst := hfront r.head ⟨0, by omega, Nat.mod_eq_of_lt hhead⟩
      omega
    · have hnext : (r.head + (r.count - r.head)) % n = r.count := by
        rw [Nat.add_sub_cancel' (by omega), Nat.mod_eq_of_lt (by omega)]
      have hlast := hfront r.count ⟨r.count - r.head, by omega, hnext⟩
      omega
  · rintro (hzero | hstart | hfull) k hk
    · obtain ⟨j, hj, _⟩ := hk
      omega
    · obtain ⟨j, hj, rfl⟩ := hk
      rw [hstart, Nat.zero_add, Nat.mod_eq_of_lt (by omega)]
      exact hj
    · rw [hfull]
      exact hk.lt h

variable (n) in
structure Filled (P Q : α → Prop) (r : Buffer α) : Prop where
  ring : WellFormed n r
  live : ∀ k, Occupied n r k → P (r.cells k)
  free : ∀ k < n, ¬ Occupied n r k → Q (r.cells k)

variable {P Q : α → Prop}

theorem zero_filled (hn : 0 < n) {x : α} (hx : Q x) : Filled n P Q ⟨fun _ ↦ x, 0, 0, 0⟩ := by
  refine ⟨zero_wellFormed hn _, ?_, fun _ _ _ ↦ hx⟩
  rintro k ⟨j, hj, _⟩
  exact absurd hj (Nat.not_lt_zero j)

theorem Filled.writeTail (h : Filled n P Q r) (hc : r.count < n) {x : α} (hx : Q x) :
    Filled n P Q (writeTail r x) := by
  have htail := tail_free h.ring hc
  refine ⟨writeTail_wellFormed h.ring x, fun k hk ↦ ?_, fun k hk hfree ↦ ?_⟩
  · have hne : k ≠ r.tail := fun he ↦ htail (he ▸ hk)
    simpa [Circular.writeTail, Function.update_of_ne hne] using h.live k hk
  · by_cases he : k = r.tail
    · simpa [Circular.writeTail, he] using hx
    · simpa [Circular.writeTail, Function.update_of_ne he] using h.free k hk hfree

theorem Filled.push (h : Filled n P Q r) (hc : r.count < n) {x : α} (hx : P x) :
    Filled n P Q (push n r x) := by
  have htail := tail_free h.ring hc
  have hcells : (Circular.push n r x).cells = Function.update r.cells r.tail x := rfl
  refine ⟨push_wellFormed h.ring hc x, fun k hk ↦ ?_, fun k hk hfree ↦ ?_⟩
  · rw [hcells]
    obtain hold | rfl := (push_occupied h.ring x).mp hk
    · have hne : k ≠ r.tail := fun he ↦ htail (he ▸ hold)
      rw [Function.update_of_ne hne]
      exact h.live k hold
    · rw [Function.update_self]
      exact hx
  · rw [push_occupied h.ring, not_or] at hfree
    rw [hcells, Function.update_of_ne hfree.2]
    exact h.free k hk hfree.1

theorem Filled.pop (h : Filled n P Q r) (hc : 0 < r.count) {x : α} (hx : Q x) :
    Filled n P Q (advanceHead n (writeHead r x)) := by
  have hring := writeHead_wellFormed h.ring x
  have hsplit : ∀ {k}, Occupied n r k ↔ k = r.head ∨ Occupied n (advanceHead n (writeHead r x)) k :=
    advanceHead_occupied h.ring hc
  have hhead : ¬ Occupied n (advanceHead n (writeHead r x)) r.head := head_released hring hc
  have hcells : (advanceHead n (writeHead r x)).cells = Function.update r.cells r.head x := rfl
  refine ⟨advanceHead_wellFormed hring hc, fun k hk ↦ ?_, fun k hk hfree ↦ ?_⟩
  · have hne : k ≠ r.head := fun he ↦ hhead (he ▸ hk)
    rw [hcells, Function.update_of_ne hne]
    exact h.live k (hsplit.mpr (.inr hk))
  · rw [hcells]
    by_cases he : k = r.head
    · rw [he, Function.update_self]
      exact hx
    · rw [Function.update_of_ne he]
      exact h.free k hk (fun hold ↦ (hsplit.mp hold).elim he hfree)

structure Pointwise (R : α → α → Prop) (r s : Buffer α) : Prop where
  head : s.head = r.head
  tail : s.tail = r.tail
  count : s.count = r.count
  cells : ∀ k, R (r.cells k) (s.cells k)

variable {R : α → α → Prop} {s : Buffer α}

theorem Pointwise.update (h : Pointwise R r s) {x y : α} (hxy : R x y) (k j : ℕ) :
    R (Function.update r.cells k x j) (Function.update s.cells k y j) := by
  by_cases hj : j = k
  · rw [hj, Function.update_self, Function.update_self]
    exact hxy
  · rw [Function.update_of_ne hj, Function.update_of_ne hj]
    exact h.cells j

theorem Pointwise.writeTail (h : Pointwise R r s) {x y : α} (hxy : R x y) :
    Pointwise R (writeTail r x) (writeTail s y) :=
  ⟨h.head, h.tail, h.count, fun j ↦ by
    simpa only [Circular.writeTail, h.tail] using h.update hxy r.tail j⟩

theorem Pointwise.push (h : Pointwise R r s) {x y : α} (hxy : R x y) :
    Pointwise R (push n r x) (push n s y) := by
  have hw := h.writeTail hxy
  refine ⟨hw.head, ?_, ?_, hw.cells⟩
  · exact congrArg (fun t ↦ (t + 1) % n) hw.tail
  · exact congrArg (fun c ↦ c + 1) hw.count

theorem Pointwise.writeHead (h : Pointwise R r s) {x y : α} (hxy : R x y) :
    Pointwise R (writeHead r x) (writeHead s y) :=
  ⟨h.head, h.tail, h.count, fun j ↦ by
    simpa only [Circular.writeHead, h.head] using h.update hxy r.head j⟩

theorem Pointwise.advanceHead (h : Pointwise R r s) :
    Pointwise R (advanceHead n r) (advanceHead n s) := by
  refine ⟨?_, h.tail, ?_, h.cells⟩
  · exact congrArg (fun t ↦ (t + 1) % n) h.head
  · exact congrArg (fun c ↦ c - 1) h.count

theorem Pointwise.reset (h : Pointwise R r s) : Pointwise R (reset r) (reset s) :=
  ⟨rfl, rfl, rfl, h.cells⟩

end CChat.Library.Circular
