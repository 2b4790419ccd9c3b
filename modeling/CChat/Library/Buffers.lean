import Mathlib.Data.List.Basic

namespace CChat.Library.Buffers

variable {α : Type*}

abbrev Cells (α : Type*) := List (Option α)

def fresh (size : ℕ) : Cells α := List.replicate size none

def store (offset : ℕ) (values : List α) (cells : Cells α) : Option (Cells α) :=
  if offset + values.length ≤ cells.length then
    some (cells.take offset ++ values.map some ++ cells.drop (offset + values.length))
  else none

def fill : List (ℕ × List α) → Cells α → Option (Cells α)
  | [], cells => some cells
  | s :: rest, cells => (store s.1 s.2 cells).bind (fill rest)

/-- The first `n` values, when there are as many cells and all of them were stored in. -/
def read (n : ℕ) (cells : Cells α) : Option (List α) :=
  if n ≤ cells.length then (cells.take n).mapM id else none

def Consecutive : ℕ → List (ℕ × List α) → Prop
  | _, [] => True
  | start, s :: rest => s.1 = start ∧ Consecutive (start + s.2.length) rest

def written (stores : List (ℕ × List α)) : List α := stores.flatMap Prod.snd

@[simp] theorem written_nil : written ([] : List (ℕ × List α)) = [] := rfl

@[simp] theorem written_cons (s : ℕ × List α) (rest : List (ℕ × List α)) :
    written (s :: rest) = s.2 ++ written rest := rfl

theorem store_between (front behind : Cells α) (old : Cells α) (values : List α)
    (h : old.length = values.length) :
    store front.length values (front ++ (old ++ behind)) =
      some (front ++ (values.map some ++ behind)) := by
  have hfits : front.length + values.length ≤ (front ++ (old ++ behind)).length := by
    simp only [List.length_append]
    omega
  have hbehind : (front ++ (old ++ behind)).drop (front.length + values.length) = behind := by
    rw [← h, ← List.append_assoc, ← List.length_append, List.drop_left]
  rw [store, if_pos hfits, List.take_left, hbehind, List.append_assoc]

/-- Consecutive stores replace as many cells as they have values, and no other. -/
theorem fill_consecutive {stores : List (ℕ × List α)} {start : ℕ} (front behind old : Cells α)
    (hstart : front.length = start) (h : Consecutive start stores)
    (hold : old.length = (written stores).length) :
    fill stores (front ++ (old ++ behind)) =
      some (front ++ ((written stores).map some ++ behind)) := by
  induction stores generalizing start front old with
  | nil =>
    obtain rfl := List.eq_nil_of_length_eq_zero hold
    rfl
  | cons s rest ih =>
    obtain ⟨hfirst, hrest⟩ := h
    rw [written_cons, List.length_append] at hold
    have hsplit : old = old.take s.2.length ++ old.drop s.2.length :=
      (List.take_append_drop _ _).symm
    have htake : (old.take s.2.length).length = s.2.length := by
      rw [List.length_take]
      omega
    have hdrop : (old.drop s.2.length).length = (written rest).length := by
      rw [List.length_drop]
      omega
    have hstore := store_between front (old.drop s.2.length ++ behind) _ s.2 htake
    rw [← List.append_assoc _ _ behind, ← hsplit] at hstore
    have htail := ih (front ++ s.2.map some) (old.drop s.2.length) (by
      rw [List.length_append, List.length_map, hstart]) hrest hdrop
    rw [fill, hfirst, ← hstart, hstore]
    simpa only [Option.bind_some, List.append_assoc, written_cons, List.map_append] using htail

theorem read_whole (values : List α) : read values.length (values.map some) = some values := by
  have hall : ∀ l : List α, (l.map some).mapM id = some l := by
    intro l
    induction l with
    | nil => rfl
    | cons a l ih => simp [ih]
  have hlength : (values.map some).length = values.length := List.length_map some
  rw [read, if_pos (Nat.le_of_eq hlength.symm), List.take_of_length_le (Nat.le_of_eq hlength), hall]

/-- Consecutive stores that use up an allocation leave the values they stored. -/
theorem fill_fresh {stores : List (ℕ × List α)} {size : ℕ} (h : Consecutive 0 stores)
    (hsize : size = (written stores).length) :
    fill stores (fresh size) = some ((written stores).map some) := by
  have hfill := fill_consecutive [] [] (fresh size) rfl h (by
    rw [fresh, List.length_replicate, hsize])
  simpa only [List.nil_append, List.append_nil] using hfill

end CChat.Library.Buffers
