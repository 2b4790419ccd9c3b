import CChat.Library.BigEndian

namespace CChat.Library.Fields

universe u

variable {α : Type u} {β : Type u}

/-- A reader takes a value off the front of a byte string and leaves the rest. -/
abbrev Reader (β : Type u) := List UInt8 → Option (β × List UInt8)

def block (n : ℕ) : Reader (List UInt8) := fun bs ↦
  if n ≤ bs.length then some (bs.take n, bs.drop n) else none

def number (w : ℕ) : Reader ℕ := fun bs ↦
  (block w bs).map (fun p ↦ (BigEndian.value p.1, p.2))

/-- A block behind its length, a number of `w` bytes. -/
def counted (w : ℕ) : Reader (List UInt8) := fun bs ↦
  (number w bs).bind (fun p ↦ block p.1 p.2)

def repeated (r : Reader β) : ℕ → Reader (List β)
  | 0, bs => some ([], bs)
  | n + 1, bs => (r bs).bind (fun p ↦ (repeated r n p.2).map (fun q ↦ (p.1 :: q.1, q.2)))

def whole (r : Reader β) (bs : List UInt8) : Option β :=
  (r bs).bind (fun p ↦ if p.2 = [] then some p.1 else none)

theorem block_append (field rest : List UInt8) :
    block field.length (field ++ rest) = some (field, rest) := by
  rw [block, if_pos (by rw [List.length_append]; exact Nat.le_add_right _ _), List.take_left,
    List.drop_left]

theorem block_some {n : ℕ} {bs field rest : List UInt8} (h : block n bs = some (field, rest)) :
    field.length = n ∧ bs = field ++ rest := by
  unfold block at h
  split at h
  · cases h
    exact ⟨by rw [List.length_take]; omega, (List.take_append_drop _ _).symm⟩
  · cases h

theorem number_append {w n : ℕ} (h : n < 256 ^ w) (rest : List UInt8) :
    number w (BigEndian.bytes w n ++ rest) = some (n, rest) := by
  have hblock := block_append (BigEndian.bytes w n) rest
  rw [BigEndian.bytes_length] at hblock
  rw [number, hblock, Option.map_some, BigEndian.value_bytes_of_lt h]

theorem number_some {w n : ℕ} {bs rest : List UInt8} (h : number w bs = some (n, rest)) :
    bs = BigEndian.bytes w n ++ rest := by
  obtain ⟨⟨field, tail⟩, hblock, hvalue⟩ := Option.map_eq_some_iff.mp h
  cases hvalue
  obtain ⟨rfl, rfl⟩ := block_some hblock
  rw [BigEndian.bytes_value]

theorem counted_append {w : ℕ} {field : List UInt8} (h : field.length < 256 ^ w)
    (rest : List UInt8) :
    counted w (BigEndian.bytes w field.length ++ (field ++ rest)) = some (field, rest) := by
  rw [counted, number_append h, Option.bind_some, block_append]

theorem counted_some {w : ℕ} {bs field rest : List UInt8}
    (h : counted w bs = some (field, rest)) :
    bs = BigEndian.bytes w field.length ++ (field ++ rest) := by
  obtain ⟨⟨n, tail⟩, hnumber, hblock⟩ := Option.bind_eq_some_iff.mp h
  obtain ⟨hlength, htail⟩ := block_some hblock
  dsimp only at hlength htail
  rw [number_some hnumber, hlength, htail]

/-- A reader that takes off what a writer puts in front takes off a whole list. -/
theorem repeated_flatMap {r : Reader β} {write : α → List UInt8} {value : α → β} {xs : List α}
    (h : ∀ x ∈ xs, ∀ rest, r (write x ++ rest) = some (value x, rest)) (rest : List UInt8) :
    repeated r xs.length (xs.flatMap write ++ rest) = some (xs.map value, rest) := by
  induction xs with
  | nil => rfl
  | cons x xs ih =>
    have hfirst := h x List.mem_cons_self (xs.flatMap write ++ rest)
    have hrest := ih (fun y hy ↦ h y (List.mem_cons_of_mem _ hy))
    rw [List.flatMap_cons, List.append_assoc, List.length_cons, repeated, hfirst,
      Option.bind_some, hrest]
    rfl

theorem whole_of_append {r : Reader β} {bs : List UInt8} {b : β}
    (h : r (bs ++ []) = some (b, [])) : whole r bs = some b := by
  rw [List.append_nil] at h
  rw [whole, h]
  rfl

end CChat.Library.Fields
