import Mathlib.Data.List.Basic

namespace CChat.Library.Framing

universe u v

/-- A fixed-width header that announces a tag and the length of the payload
behind it. Lengths below `limit` survive the trip through the header. -/
structure HeaderCodec (α : Type u) (κ : Type v) where
  width : ℕ
  limit : ℕ
  write : κ → ℕ → List α
  read : List α → κ × ℕ
  width_pos : 0 < width
  write_length : ∀ k n, (write k n).length = width
  read_write : ∀ k n, n < limit → read (write k n) = (k, n)

variable {α : Type u} {κ : Type v} (C : HeaderCodec α κ)

def encode (f : κ × List α) : List α := C.write f.1 f.2.length ++ f.2

def decodeOne (s : List α) : Option ((κ × List α) × List α) :=
  if s.length < C.width then none
  else if (s.drop C.width).length < (C.read (s.take C.width)).2 then none
  else some (((C.read (s.take C.width)).1,
      (s.drop C.width).take (C.read (s.take C.width)).2),
    (s.drop C.width).drop (C.read (s.take C.width)).2)

def decodeFuel : ℕ → List α → List (κ × List α) × List α
  | 0, s => ([], s)
  | n + 1, s =>
    match decodeOne C s with
    | none => ([], s)
    | some (f, rest) => (f :: (decodeFuel n rest).1, (decodeFuel n rest).2)

/-- All whole frames of a stream, and the unfinished bytes behind the last. -/
def decode (s : List α) : List (κ × List α) × List α := decodeFuel C s.length s

theorem decodeOne_some {s rest : List α} {f : κ × List α} :
    decodeOne C s = some (f, rest) ↔
      C.width ≤ s.length ∧ (C.read (s.take C.width)).2 ≤ (s.drop C.width).length ∧
        f = ((C.read (s.take C.width)).1, (s.drop C.width).take (C.read (s.take C.width)).2) ∧
        rest = (s.drop C.width).drop (C.read (s.take C.width)).2 := by
  unfold decodeOne
  by_cases hwide : s.length < C.width
  · rw [if_pos hwide]
    exact ⟨nofun, fun h ↦ absurd hwide (Nat.not_lt.mpr h.1)⟩
  · by_cases hbody : (s.drop C.width).length < (C.read (s.take C.width)).2
    · rw [if_neg hwide, if_pos hbody]
      exact ⟨nofun, fun h ↦ absurd hbody (Nat.not_lt.mpr h.2.1)⟩
    · rw [if_neg hwide, if_neg hbody, Option.some.injEq, Prod.mk.injEq, eq_comm, @eq_comm _ _ rest]
      exact ⟨fun h ↦ ⟨Nat.le_of_not_lt hwide, Nat.le_of_not_lt hbody, h⟩, fun h ↦ h.2.2⟩

theorem decodeOne_none {s : List α} :
    decodeOne C s = none ↔
      s.length < C.width ∨ (s.drop C.width).length < (C.read (s.take C.width)).2 := by
  unfold decodeOne
  split
  next hwide => exact ⟨fun _ ↦ .inl hwide, fun _ ↦ rfl⟩
  next hwide =>
    split
    next hbody => exact ⟨fun _ ↦ .inr hbody, fun _ ↦ rfl⟩
    next hbody => exact ⟨nofun, fun h ↦ absurd h (not_or.mpr ⟨hwide, hbody⟩)⟩

theorem decodeOne_shorter {s rest : List α} {f : κ × List α}
    (h : decodeOne C s = some (f, rest)) : rest.length < s.length := by
  obtain ⟨hwide, _, _, rfl⟩ := (decodeOne_some C).mp h
  have hw := C.width_pos
  rw [List.length_drop, List.length_drop]
  omega

/-- A frame is as long as its header says, and the rest follows it. -/
theorem decodeOne_announced {s rest : List α} {f : κ × List α}
    (h : decodeOne C s = some (f, rest)) :
    f.2.length = (C.read (s.take C.width)).2 ∧ rest = s.drop (C.width + f.2.length) := by
  obtain ⟨hwide, hbody, rfl, rfl⟩ := (decodeOne_some C).mp h
  have hlen : ((s.drop C.width).take (C.read (s.take C.width)).2).length =
      (C.read (s.take C.width)).2 := by
    rw [List.length_take]
    omega
  exact ⟨hlen, by rw [hlen, List.drop_drop]⟩

theorem decodeFuel_stable (n m : ℕ) (s : List α) (hn : s.length ≤ n) (hm : s.length ≤ m) :
    decodeFuel C n s = decodeFuel C m s := by
  induction n generalizing m s with
  | zero =>
    have hs : s = [] := List.eq_nil_of_length_eq_zero (by omega)
    have hnone : decodeOne C ([] : List α) = none := by simp [decodeOne, C.width_pos]
    subst hs
    cases m with
    | zero => rfl
    | succ m => simp only [decodeFuel, hnone]
  | succ n ih =>
    cases m with
    | zero =>
      have hs : s = [] := List.eq_nil_of_length_eq_zero (by omega)
      have hnone : decodeOne C ([] : List α) = none := by simp [decodeOne, C.width_pos]
      subst hs
      simp only [decodeFuel, hnone]
    | succ m =>
      simp only [decodeFuel]
      cases h : decodeOne C s with
      | none => rfl
      | some p =>
        obtain ⟨f, rest⟩ := p
        have hlt := decodeOne_shorter C h
        simp only [ih m rest (by omega) (by omega)]

theorem decode_none {s : List α} (h : decodeOne C s = none) : decode C s = ([], s) := by
  unfold decode
  cases hs : s.length with
  | zero => rfl
  | succ n => simp only [decodeFuel, h]

theorem decode_some {s rest : List α} {f : κ × List α} (h : decodeOne C s = some (f, rest)) :
    decode C s = (f :: (decode C rest).1, (decode C rest).2) := by
  have hlt := decodeOne_shorter C h
  unfold decode
  obtain ⟨n, hn⟩ : ∃ n, s.length = n + 1 := ⟨s.length - 1, by omega⟩
  simp only [hn, decodeFuel, h, decodeFuel_stable C n rest.length rest (by omega) (Nat.le_refl _)]

@[simp] theorem decode_nil : decode C [] = ([], []) :=
  decode_none C (by simp [decodeOne, C.width_pos])

theorem encode_length (f : κ × List α) : (encode C f).length = C.width + f.2.length := by
  simp only [encode, List.length_append, C.write_length]

theorem decodeOne_encode (f : κ × List α) (hf : f.2.length < C.limit) (s : List α) :
    decodeOne C (encode C f ++ s) = some (f, s) := by
  have ht : (encode C f ++ s).take C.width = C.write f.1 f.2.length := by
    rw [encode, List.append_assoc, ← C.write_length f.1 f.2.length, List.take_left]
  have hd : (encode C f ++ s).drop C.width = f.2 ++ s := by
    rw [encode, List.append_assoc, ← C.write_length f.1 f.2.length, List.drop_left]
  have hl : ¬ (encode C f ++ s).length < C.width := by
    rw [List.length_append, encode_length]
    omega
  have hr : ¬ (f.2 ++ s).length < f.2.length := by
    rw [List.length_append]
    omega
  unfold decodeOne
  simp only [ht, hd, C.read_write _ _ hf, if_neg hl, if_neg hr, List.take_left, List.drop_left]

theorem decode_encode (f : κ × List α) (hf : f.2.length < C.limit) (s : List α) :
    decode C (encode C f ++ s) = (f :: (decode C s).1, (decode C s).2) :=
  decode_some C (decodeOne_encode C f hf s)

/-- A stream of whole frames decodes to exactly those frames, whatever follows. -/
theorem decode_stream (fs : List (κ × List α)) (hf : ∀ f ∈ fs, f.2.length < C.limit)
    (s : List α) :
    decode C (fs.flatMap (encode C) ++ s) = (fs ++ (decode C s).1, (decode C s).2) := by
  induction fs with
  | nil => rfl
  | cons f fs ih =>
    have h := ih (fun g hg ↦ hf g (List.mem_cons_of_mem _ hg))
    rw [List.flatMap_cons, List.append_assoc, decode_encode C f (hf f List.mem_cons_self), h]
    rfl

theorem decodeOne_cut (f : κ × List α) (hf : f.2.length < C.limit) {n : ℕ}
    (hn : n < (encode C f).length) : decodeOne C ((encode C f).take n) = none := by
  rw [decodeOne_none]
  by_cases hwide : n < C.width
  · left
    rw [List.length_take]
    omega
  · right
    have ht : ((encode C f).take n).take C.width = C.write f.1 f.2.length := by
      rw [List.take_take, Nat.min_eq_left (Nat.le_of_not_lt hwide), encode,
        ← C.write_length f.1 f.2.length, List.take_left]
    rw [encode_length] at hn
    rw [ht, C.read_write _ _ hf, List.length_drop, List.length_take, encode_length]
    dsimp only
    omega

end CChat.Library.Framing
