import CChat.Library.Buffers

namespace CChat.Library.Access

open Buffers

variable {α β γ : Type}

inductive Fault
  | read
  | write
deriving DecidableEq

abbrev Checked (β : Type) := Except Fault β

structure Span (α : Type) where
  pointer : Option (List α)
  len : UInt32
  sized : ∀ values ∈ pointer, values.length = len.toNat

def Span.content (p : Span α) : List α := p.pointer.getD []

def load (p : Span α) (i : ℕ) : Checked α :=
  match p.pointer.bind (fun values ↦ values[i]?) with
  | some a => .ok a
  | none => .error .read

def loadRange (p : Span α) (start n : ℕ) : Checked (List α) :=
  match p.pointer with
  | none => .error .read
  | some values =>
    if start + n ≤ values.length then .ok ((values.drop start).take n) else .error .read

def storeAll (stores : List (ℕ × List α)) (cells : Cells α) : Checked (Cells α) :=
  match fill stores cells with
  | some stored => .ok stored
  | none => .error .write

/-- The first `n` values of an array after some stores to it. -/
def build (size : ℕ) (stores : List (ℕ × List α)) (n : ℕ) : Checked (List α) := do
  let cells ← storeAll stores (fresh size)
  match Buffers.read n cells with
  | some values => return values
  | none => throw .read

def readString [DecidableEq α] (nul : α) : Cells α → Checked (List α)
  | [] => .error .read
  | none :: _ => .error .read
  | some a :: rest =>
    if a = nul then .ok []
    else do
      let behind ← readString nul rest
      return a :: behind

@[simp] theorem ok_bind (b : β) (f : β → Checked γ) : ((.ok b : Checked β) >>= f) = f b := rfl

variable {p : Span α} {values : List α}

theorem Span.content_some (hp : p.pointer = some values) : p.content = values := by
  rw [Span.content, hp, Option.getD_some]

theorem load_ok (hp : p.pointer = some values) {i : ℕ} (h : i < values.length) :
    load p i = .ok values[i] := by
  rw [load, hp, Option.bind_some, List.getElem?_eq_getElem h]

theorem loadRange_ok (hp : p.pointer = some values) {start n : ℕ} (h : start + n ≤ values.length) :
    loadRange p start n = .ok ((values.drop start).take n) := by
  rw [loadRange, hp]
  exact if_pos h

/-- A load goes through at an index below the length that was handed over, and at no other. -/
theorem load_inside (p : Span α) (i : ℕ) :
    (∃ a, load p i = .ok a) ↔ p.pointer ≠ none ∧ i < p.len.toNat := by
  cases hp : p.pointer with
  | none => simp [load, hp]
  | some values =>
    rw [← p.sized values hp]
    obtain h | h := Nat.lt_or_ge i values.length
    · exact iff_of_true ⟨_, load_ok hp h⟩ ⟨Option.some_ne_none values, h⟩
    · simp [load, hp, h]

theorem loadRange_inside (p : Span α) (start n : ℕ) :
    (∃ values, loadRange p start n = .ok values) ↔ p.pointer ≠ none ∧ start + n ≤ p.len.toNat := by
  cases hp : p.pointer with
  | none => simp [loadRange, hp]
  | some values =>
    rw [← p.sized values hp]
    by_cases h : start + n ≤ values.length
    · exact iff_of_true ⟨_, loadRange_ok hp h⟩ ⟨Option.some_ne_none values, h⟩
    · simp [loadRange, hp, h]

/-- Stores go through when each of them is inside the array, and only then. -/
theorem storeAll_inside (stores : List (ℕ × List α)) (cells : Cells α) :
    (∃ stored, storeAll stores cells = .ok stored) ↔
      ∀ s ∈ stores, s.1 + s.2.length ≤ cells.length := by
  have hfill : (∃ stored, storeAll stores cells = .ok stored) ↔ (fill stores cells).isSome := by
    cases hf : fill stores cells with
    | none =>
      have herror : storeAll stores cells = .error .write := by rw [storeAll, hf]
      rw [herror]
      exact iff_of_false (by simp) (by simp)
    | some stored =>
      have hok : storeAll stores cells = .ok stored := by rw [storeAll, hf]
      exact iff_of_true ⟨stored, hok⟩ rfl
  rw [hfill]
  clear hfill
  induction stores generalizing cells with
  | nil => simp [fill]
  | cons s rest ih =>
    rw [List.forall_mem_cons, fill, store]
    by_cases hinside : s.1 + s.2.length ≤ cells.length
    · rw [if_pos hinside, Option.bind_some, and_iff_right hinside]
      have hrest := ih (cells.take s.1 ++ s.2.map some ++ cells.drop (s.1 + s.2.length))
      have hlength : (cells.take s.1 ++ s.2.map some ++ cells.drop (s.1 + s.2.length)).length =
          cells.length := by
        simp only [List.length_append, List.length_take, List.length_map, List.length_drop]
        omega
      rw [hlength] at hrest
      exact hrest
    · rw [if_neg hinside]
      exact iff_of_false Bool.false_ne_true (fun h ↦ hinside h.1)

/-- Consecutive stores that fit into an array leave what they stored at its start. -/
theorem storeAll_fresh {stores : List (ℕ × List α)} {size : ℕ} (h : Consecutive 0 stores)
    (hsize : (written stores).length ≤ size) :
    storeAll stores (fresh size) =
      .ok ((written stores).map some ++ fresh (size - (written stores).length)) := by
  have hsplit : (fresh size : Cells α) =
      fresh (written stores).length ++ fresh (size - (written stores).length) := by
    rw [fresh, fresh, fresh, List.replicate_append_replicate, Nat.add_sub_cancel' hsize]
  have hfill := fill_consecutive [] (fresh (size - (written stores).length))
    (fresh (written stores).length) rfl h List.length_replicate
  rw [List.nil_append, List.nil_append, ← hsplit] at hfill
  rw [storeAll, hfill]

theorem read_front (values : List α) (behind : Cells α) :
    Buffers.read values.length (values.map some ++ behind) = some values := by
  have hwhole := read_whole values
  have hlength : (values.map some).length = values.length := List.length_map some
  have hlong : values.length ≤ (values.map some ++ behind).length := by
    rw [List.length_append, hlength]
    exact Nat.le_add_right _ _
  rw [Buffers.read, if_pos (Nat.le_of_eq hlength.symm),
    List.take_of_length_le (Nat.le_of_eq hlength)] at hwhole
  rw [Buffers.read, if_pos hlong, List.take_left' hlength, hwhole]

theorem build_ok {stores : List (ℕ × List α)} {size n : ℕ} (h : Consecutive 0 stores)
    (hsize : (written stores).length ≤ size) (hn : n = (written stores).length) :
    build size stores n = .ok (written stores) := by
  rw [build, storeAll_fresh h hsize, ok_bind, hn, read_front]
  rfl

theorem build_copy {n : ℕ} (h : values.length = n) : build n [(0, values)] n = .ok values := by
  have hwritten : written [(0, values)] = values := by
    rw [written_cons, written_nil, List.append_nil]
  have hconsecutive : Consecutive 0 [(0, values)] := ⟨rfl, trivial⟩
  have hlength : (written [(0, values)]).length = n := by rw [hwritten, h]
  rw [build_ok hconsecutive (Nat.le_of_eq hlength) hlength.symm, hwritten]

theorem readString_ok [DecidableEq α] (nul : α) (values : List α) (behind : Cells α) :
    readString nul (values.map some ++ some nul :: behind) =
      .ok (values.takeWhile (fun a ↦ decide (a ≠ nul))) := by
  induction values with
  | nil => exact if_pos rfl
  | cons a values ih =>
    rw [List.map_cons, List.cons_append, readString, ih]
    by_cases ha : a = nul
    · rw [if_pos ha, List.takeWhile_cons_of_neg (by simpa using ha)]
    · rw [if_neg ha, List.takeWhile_cons_of_pos (by simpa using ha)]
      rfl

end CChat.Library.Access
