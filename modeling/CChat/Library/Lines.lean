import Mathlib.Data.List.TakeWhile

namespace CChat.Library.Lines

variable {α : Type*} [DecidableEq α] (nl : α)

def split (input : List α) : List (List α) × List α :=
  ((input.splitOn nl).dropLast, (input.splitOn nl).getLast (List.splitOn_ne_nil nl input))

def join (lines : List (List α)) (last : List α) : List α := lines.flatMap (· ++ [nl]) ++ last

/-- The first line of an input and what is behind it. Without a newline it is
there only when the input has ended, with something in it. -/
def first (closed : Bool) (input : List α) : Option (List α × List α) :=
  match (split nl input).1 with
  | [] => if closed = true ∧ input ≠ [] then some (input, []) else none
  | l :: ls => some (l, join nl ls (split nl input).2)

/-- What a read of at most `n` elements gives: the front up to a newline, which
is read with it and dropped. -/
def piece (n : ℕ) (input : List α) : List α := (input.take n).takeWhile (· ≠ nl)

def behind (n : ℕ) (input : List α) : List α :=
  if (piece nl n input).length < (input.take n).length then
    input.drop ((piece nl n input).length + 1)
  else input.drop (piece nl n input).length

/-- A read comes back: with a newline, with `n` elements, or with what is left
of an input that has ended. -/
def Readable (n : ℕ) (closed : Bool) (input : List α) : Prop :=
  (piece nl n input).length < (input.take n).length ∨ (piece nl n input).length = n ∨
    closed = true ∧ piece nl n input ≠ []

instance (n : ℕ) (closed : Bool) (input : List α) : Decidable (Readable nl n closed input) :=
  inferInstanceAs (Decidable (_ ∨ _ ∨ _))

/-- The reads of at most `n` elements, for a number of turns at most. -/
def pieces (n : ℕ) (closed : Bool) : ℕ → List α → List (List α)
  | 0, _ => []
  | k + 1, input =>
    if Readable nl n closed input then piece nl n input :: pieces n closed k (behind nl n input)
    else []

inductive Status
  | exited | ended | waiting | reading
deriving DecidableEq

structure Outcome (α : Type*) where
  lines : List (List α)
  status : Status
  rest : List α

def Outcome.after (line : List α) (o : Outcome α) : Outcome α :=
  { o with lines := line :: o.lines }

/-- Pieces are read until one is `exit` in the eyes of the reader. -/
def converse (n : ℕ) (view : List α → List α) (exit : List α) (closed : Bool) :
    ℕ → List α → Outcome α
  | 0, input => ⟨[], .reading, input⟩
  | k + 1, input =>
    if Readable nl n closed input then
      if view (piece nl n input) = exit then ⟨[], .exited, behind nl n input⟩
      else (converse n view exit closed k (behind nl n input)).after (view (piece nl n input))
    else ⟨[], if closed then .ended else .waiting, input⟩

/-- What is said in lines of any length. Behind the last newline there is a
line only when the input has ended. -/
def spoken (exit : List α) (closed : Bool) : List (List α) → List α → Outcome α
  | [], last =>
    if closed = false then ⟨[], .waiting, last⟩
    else if last = exit then ⟨[], .exited, []⟩
    else ⟨[last], .ended, []⟩
  | l :: ls, last =>
    if l = exit then ⟨[], .exited, join nl ls last⟩ else (spoken exit closed ls last).after l

/-- Each line that is not blank is one message, unless it is refused for having
more than `n` elements. -/
inductive Passes (n : ℕ) : List (List α) → List (List α) → Prop
  | nil : Passes n [] []
  | blank {lines messages : List (List α)} (h : Passes n lines messages) :
      Passes n ([] :: lines) messages
  | whole {lines messages : List (List α)} (line : List α) (hline : line ≠ [])
      (h : Passes n lines messages) : Passes n (line :: lines) (line :: messages)
  | refused {lines messages : List (List α)} (line : List α) (hline : n < line.length)
      (h : Passes n lines messages) : Passes n (line :: lines) messages

/-- No line is too long for one read, and what is not yet a line does not fill one. -/
structure Outcome.Fits (n : ℕ) (o : Outcome α) : Prop where
  lines : ∀ l ∈ o.lines, l.length ≤ n
  rest : o.status = .waiting → o.rest.length < n

def Outcome.size (exit : List α) (o : Outcome α) : ℕ :=
  o.lines.flatten.length + (if o.status = .exited then exit.length else 0) +
    (o.rest.filter (· ≠ nl)).length

def nonblank (lines : List (List α)) : List (List α) := lines.filter (· ≠ [])

structure Same (said heard : Outcome α) : Prop where
  lines : nonblank heard.lines = nonblank said.lines
  status : heard.status = said.status
  rest : heard.rest = said.rest

structure Agrees (n : ℕ) (said heard : Outcome α) : Prop where
  passes : Passes n said.lines (nonblank heard.lines)
  status : heard.status = said.status
  rest : heard.rest = said.rest

variable {nl}

omit [DecidableEq α] in
@[simp] theorem nonblank_blank (lines : List (List α)) : nonblank ([] :: lines) = nonblank lines :=
  rfl

omit [DecidableEq α] in
@[simp] theorem nonblank_cons {line : List α} (h : line ≠ []) (lines : List (List α)) :
    nonblank (line :: lines) = line :: nonblank lines :=
  List.filter_cons_of_pos (by simp [h])

omit [DecidableEq α] in
theorem nonblank_first (line : List α) (lines : List (List α)) :
    nonblank (line :: lines) = nonblank [line] ++ nonblank lines :=
  List.filter_append [line] lines

/-- An input is a line with more input behind its newline, or has no newline. -/
theorem line_induction {motive : List α → Prop} (hlast : ∀ last, nl ∉ last → motive last)
    (hline : ∀ line rest, nl ∉ line → motive rest → motive (line ++ nl :: rest))
    (input : List α) : motive input := by
  induction hlength : input.length using Nat.strong_induction_on generalizing input with
  | _ n ih =>
    by_cases hnl : nl ∈ input
    · obtain ⟨line, rest, rfl, hfront⟩ := List.eq_append_cons_of_mem hnl
      refine hline line rest hfront (ih rest.length ?_ rest rfl)
      rw [← hlength, List.length_append, List.length_cons]
      omega
    · exact hlast input hnl

theorem split_last {last : List α} (h : nl ∉ last) : split nl last = ([], last) := by
  simp [split, List.splitOn_eq_singleton h]

theorem split_line {line : List α} (h : nl ∉ line) (rest : List α) :
    split nl (line ++ nl :: rest) = (line :: (split nl rest).1, (split nl rest).2) := by
  have hrest := List.splitOn_ne_nil nl rest
  simp [split, List.splitOn_append_cons_self_of_not_mem h, List.dropLast_cons_of_ne_nil hrest,
    List.getLast_cons hrest]

theorem join_split (input : List α) : join nl (split nl input).1 (split nl input).2 = input := by
  induction input using line_induction with
  | hlast last h => rw [split_last h]; rfl
  | hline line rest h ih =>
    rw [split_line h]
    unfold join at ih ⊢
    rw [List.flatMap_cons, List.append_assoc, ih]
    simp

/-- A line that leaves room for its newline is read with it. -/
theorem read_line {n : ℕ} {line : List α} (h : nl ∉ line) (hn : line.length < n) (rest : List α) :
    piece nl n (line ++ nl :: rest) = line ∧ behind nl n (line ++ nl :: rest) = rest ∧
      ∀ closed, Readable nl n closed (line ++ nl :: rest) := by
  obtain ⟨m, rfl⟩ : ∃ m, n = line.length + (m + 1) := ⟨n - line.length - 1, by omega⟩
  have hchunk : (line ++ nl :: rest).take (line.length + (m + 1)) = line ++ nl :: rest.take m := by
    rw [List.take_length_add_append, List.take_succ_cons]
  have hpiece : piece nl (line.length + (m + 1)) (line ++ nl :: rest) = line := by
    rw [piece, hchunk, List.takeWhile_append_of_pos, List.takeWhile_cons_of_neg, List.append_nil]
    · simp
    · intro a ha
      exact decide_eq_true (fun he ↦ h (he ▸ ha))
  have hshort : (piece nl (line.length + (m + 1)) (line ++ nl :: rest)).length <
      ((line ++ nl :: rest).take (line.length + (m + 1))).length := by
    rw [hpiece, hchunk, List.length_append, List.length_cons]
    omega
  refine ⟨hpiece, ?_, fun closed ↦ .inl hshort⟩
  rw [behind, if_pos hshort, hpiece, List.drop_length_add_append]
  rfl

theorem piece_plain {n : ℕ} {input : List α} (h : nl ∉ input.take n) :
    piece nl n input = input.take n := by
  refine List.takeWhile_eq_self_iff.mpr (fun a ha ↦ decide_eq_true ?_)
  rintro rfl
  exact h ha

theorem behind_plain {n : ℕ} {input : List α} (h : nl ∉ input.take n) :
    behind nl n input = input.drop n := by
  rw [behind, piece_plain h, if_neg (Nat.lt_irrefl _), List.length_take]
  obtain hn | hn := Nat.le_total n input.length
  · rw [Nat.min_eq_left hn]
  · rw [Nat.min_eq_right hn, List.drop_length, List.drop_eq_nil_of_le hn]

/-- What a read gives and leaves is the input, but for the newline. -/
theorem piece_append_behind (n : ℕ) (input : List α) :
    (piece nl n input ++ behind nl n input).filter (· ≠ nl) = input.filter (· ≠ nl) := by
  by_cases h : nl ∈ input.take n
  · obtain ⟨line, rest, hsplit, hline⟩ := List.eq_append_cons_of_mem h
    have hinput : input = line ++ nl :: (rest ++ input.drop n) := by
      rw [← List.cons_append, ← List.append_assoc, ← hsplit, List.take_append_drop]
    have hroom : line.length < n := by
      have hlength := congrArg List.length hsplit
      rw [List.length_take, List.length_append, List.length_cons] at hlength
      omega
    obtain ⟨hpiece, hbehind, _⟩ := read_line hline hroom (rest ++ input.drop n)
    rw [← hinput] at hpiece hbehind
    have hwhole : input.filter (· ≠ nl) =
        (line ++ nl :: (rest ++ input.drop n)).filter (· ≠ nl) := congrArg _ hinput
    rw [hpiece, hbehind, hwhole]
    simp
  · rw [piece_plain h, behind_plain h, List.take_append_drop]

theorem piece_length (n : ℕ) (input : List α) : (piece nl n input).length ≤ n :=
  Nat.le_trans ((List.takeWhile_prefix _).length_le) (List.length_take_le _ _)

theorem newline_not_mem_piece (n : ℕ) (input : List α) : nl ∉ piece nl n input := by
  intro h
  simpa using List.mem_takeWhile_imp h

theorem piece_subset (n : ℕ) (input : List α) : piece nl n input ⊆ input :=
  fun _ h ↦ List.mem_of_mem_take (List.takeWhile_subset _ h)

theorem behind_subset (n : ℕ) (input : List α) : behind nl n input ⊆ input := by
  unfold behind
  split
  · exact List.drop_subset _ _
  · exact List.drop_subset _ _

theorem behind_shorter {n : ℕ} {closed : Bool} {input : List α} (hn : 0 < n)
    (h : Readable nl n closed input) : (behind nl n input).length < input.length := by
  have hchunk : (piece nl n input).length ≤ (input.take n).length :=
    (List.takeWhile_prefix _).length_le
  have hinput : (input.take n).length ≤ input.length := List.length_take_le' _ _
  unfold behind
  split
  next hshort =>
    rw [List.length_drop]
    omega
  next hshort =>
    have hsome : 0 < (piece nl n input).length := by
      obtain h | h | ⟨_, h⟩ := h
      · exact absurd h hshort
      · omega
      · exact List.length_pos_iff.mpr h
    rw [List.length_drop]
    omega

/-- An input that nothing is read from has no newline among its first `n`
elements and fewer elements than `n`, and none when it has ended. -/
theorem not_readable_iff {n : ℕ} {closed : Bool} {input : List α} :
    ¬ Readable nl n closed input ↔
      nl ∉ input ∧ input.length < n ∧ (closed = true → input = []) := by
  constructor
  · intro h
    have hfull : (input.take n).length ≤ (piece nl n input).length :=
      Nat.le_of_not_lt fun hlt ↦ h (.inl hlt)
    have hplain : piece nl n input = input.take n :=
      (List.takeWhile_prefix _).eq_of_length_le hfull
    have hshort : input.length < n := by
      refine Nat.lt_of_not_le fun hle ↦ h (.inr (.inl ?_))
      rw [hplain, List.length_take, Nat.min_eq_left hle]
    rw [List.take_of_length_le (Nat.le_of_lt hshort)] at hplain
    refine ⟨hplain ▸ newline_not_mem_piece n input, hshort, fun hclosed ↦ ?_⟩
    by_contra hsome
    exact h (.inr (.inr ⟨hclosed, by rw [hplain]; exact hsome⟩))
  · rintro ⟨hplain, hshort, hended⟩ h
    have htake : input.take n = input := List.take_of_length_le (Nat.le_of_lt hshort)
    have hpiece : piece nl n input = input := by
      rw [piece_plain (by rw [htake]; exact hplain), htake]
    rw [Readable, hpiece, htake] at h
    obtain h | h | ⟨hclosed, h⟩ := h
    · exact Nat.lt_irrefl _ h
    · omega
    · exact h (hended hclosed)

theorem readable_full {n : ℕ} {closed : Bool} {input : List α}
    (h : (piece nl n input).length = n) : Readable nl n closed input := .inr (.inl h)

/-- A line of exactly `n` elements is read without its newline, and the newline
then by itself. -/
theorem read_full_line {line : List α} (h : nl ∉ line) (rest : List α) :
    piece nl line.length (line ++ nl :: rest) = line ∧
      behind nl line.length (line ++ nl :: rest) = nl :: rest := by
  have hplain : nl ∉ (line ++ nl :: rest).take line.length := by
    rw [List.take_left]
    exact h
  exact ⟨by rw [piece_plain hplain, List.take_left], by rw [behind_plain hplain, List.drop_left]⟩

theorem read_last {n : ℕ} {last : List α} (h : nl ∉ last) (hn : last.length ≤ n) :
    piece nl n last = last ∧ behind nl n last = [] := by
  have hplain : nl ∉ last.take n := fun hmem ↦ h (List.mem_of_mem_take hmem)
  refine ⟨by rw [piece_plain hplain, List.take_of_length_le hn], ?_⟩
  rw [behind_plain hplain, List.drop_eq_nil_of_le hn]

variable {n : ℕ} {view : List α → List α} {exit : List α} {closed : Bool} {input : List α} {k : ℕ}

theorem converse_exit (h : Readable nl n closed input) (he : view (piece nl n input) = exit) :
    converse nl n view exit closed (k + 1) input = ⟨[], .exited, behind nl n input⟩ := by
  rw [converse, if_pos h, if_pos he]

theorem converse_next (h : Readable nl n closed input) (he : view (piece nl n input) ≠ exit) :
    converse nl n view exit closed (k + 1) input =
      (converse nl n view exit closed k (behind nl n input)).after (view (piece nl n input)) := by
  rw [converse, if_pos h, if_neg he]

theorem converse_end (h : ¬ Readable nl n closed input) :
    converse nl n view exit closed (k + 1) input =
      ⟨[], if closed then .ended else .waiting, input⟩ := by
  rw [converse, if_neg h]

omit [DecidableEq α] in
theorem Outcome.Fits.of_after {line : List α} {o : Outcome α} (h : (o.after line).Fits n) :
    line.length ≤ n ∧ o.Fits n :=
  ⟨h.lines line List.mem_cons_self, fun l hl ↦ h.lines l (List.mem_cons_of_mem _ hl), h.rest⟩

theorem converse_last {last : List α} (h : nl ∉ last) (hexit : exit ≠ []) (hroom : exit.length < n)
    (hk : last.length < k) (hfits : (spoken nl exit closed [] last).Fits n) :
    Same (spoken nl exit closed [] last) (converse nl n id exit closed k last) := by
  obtain ⟨k, rfl⟩ : ∃ m, k = m + 1 := ⟨k - 1, by omega⟩
  unfold spoken at hfits ⊢
  cases closed with
  | false =>
    have hshort : last.length < n := hfits.rest rfl
    rw [converse_end (not_readable_iff.mpr ⟨h, hshort, fun hc ↦ Bool.noConfusion hc⟩)]
    exact ⟨rfl, rfl, rfl⟩
  | true =>
    rw [if_neg (by decide)] at hfits ⊢
    by_cases hnil : last = []
    · subst hnil
      have hunread : ¬ Readable nl n true ([] : List α) :=
        not_readable_iff.mpr ⟨h, by rw [List.length_nil]; omega, fun _ ↦ rfl⟩
      rw [converse_end hunread, if_neg hexit.symm]
      exact ⟨rfl, rfl, rfl⟩
    · have hlong : last.length ≤ n := by
        by_cases he : last = exit
        · rw [he]
          exact Nat.le_of_lt hroom
        · rw [if_neg he] at hfits
          exact hfits.lines last List.mem_cons_self
      obtain ⟨hpiece, hbehind⟩ := read_last h hlong
      have hread : Readable nl n true last := .inr (.inr ⟨rfl, by rw [hpiece]; exact hnil⟩)
      have hview : id (piece nl n last) = last := hpiece
      by_cases he : last = exit
      · rw [converse_exit hread (hview.trans he), if_pos he, hbehind]
        exact ⟨rfl, rfl, rfl⟩
      · obtain ⟨k, rfl⟩ : ∃ m, k = m + 1 := by
          have := List.length_pos_iff.mpr hnil
          exact ⟨k - 1, by omega⟩
        have hunread : ¬ Readable nl n true ([] : List α) :=
          not_readable_iff.mpr ⟨List.not_mem_nil, by rw [List.length_nil]; omega, fun _ ↦ rfl⟩
        rw [converse_next hread (by rw [hview]; exact he), hview, hbehind, converse_end hunread,
          if_neg he]
        exact ⟨rfl, rfl, rfl⟩

omit [DecidableEq α] in
theorem Same.after {said heard : Outcome α} (h : Same said heard) (line : List α) :
    Same (said.after line) (heard.after line) := by
  refine ⟨?_, h.status, h.rest⟩
  change nonblank (line :: heard.lines) = nonblank (line :: said.lines)
  by_cases hline : line = []
  · rw [hline, nonblank_blank, nonblank_blank, h.lines]
  · rw [nonblank_cons hline, nonblank_cons hline, h.lines]

omit [DecidableEq α] in
theorem Same.blank {said heard : Outcome α} (h : Same said heard) :
    Same said (heard.after []) := ⟨h.lines, h.status, h.rest⟩

theorem converse_same (hexit : exit ≠ []) (hroom : exit.length < n) (input : List α) :
    ∀ k, input.length < k → (spoken nl exit closed (split nl input).1 (split nl input).2).Fits n →
      Same (spoken nl exit closed (split nl input).1 (split nl input).2)
        (converse nl n id exit closed k input) := by
  induction input using line_induction with
  | hlast last h =>
    intro k hk hfits
    rw [split_last h] at hfits ⊢
    exact converse_last h hexit hroom hk hfits
  | hline line rest h ih =>
    intro k hk hfits
    rw [List.length_append, List.length_cons] at hk
    obtain ⟨k, rfl⟩ : ∃ m, k = m + 1 := ⟨k - 1, by omega⟩
    rw [split_line h, spoken] at hfits ⊢
    by_cases he : line = exit
    · obtain ⟨hpiece, hbehind, hread⟩ := read_line h (by rw [he]; exact hroom) rest
      rw [if_pos he, join_split, converse_exit (hread closed) (hpiece.trans he), hbehind]
      exact ⟨rfl, rfl, rfl⟩
    · rw [if_neg he] at hfits ⊢
      obtain ⟨hlong, hfits⟩ := hfits.of_after
      obtain hshort | rfl := Nat.lt_or_eq_of_le hlong
      · obtain ⟨hpiece, hbehind, hread⟩ := read_line h hshort rest
        rw [converse_next (hread closed) (by rw [hpiece]; exact he), hpiece, hbehind]
        exact (ih k (by omega) hfits).after line
      · obtain ⟨hpiece, hbehind⟩ := read_full_line h rest
        have hpos := List.length_pos_iff.mpr hexit
        obtain ⟨k, rfl⟩ : ∃ m, k = m + 1 := ⟨k - 1, by omega⟩
        -- the newline that was left behind is read as a blank line
        obtain ⟨hblank, hrest, hread⟩ := @read_line _ _ nl line.length [] List.not_mem_nil
          (by rw [List.length_nil]; omega) rest
        rw [List.nil_append] at hblank hrest hread
        rw [converse_next (readable_full (by rw [hpiece])) (by rw [hpiece]; exact he), hpiece,
          hbehind, converse_next (hread closed) (by rw [hblank]; exact hexit.symm), hblank, hrest]
        exact (ih k (by omega) hfits).blank.after line

theorem filter_plain {line : List α} (h : nl ∉ line) : line.filter (· ≠ nl) = line :=
  List.filter_eq_self.mpr fun a ha ↦ decide_eq_true (by rintro rfl; exact h ha)

theorem piece_size (n : ℕ) (input : List α) :
    (piece nl n input).length + ((behind nl n input).filter (· ≠ nl)).length =
      (input.filter (· ≠ nl)).length := by
  rw [← piece_append_behind n input, List.filter_append, List.length_append,
    filter_plain (newline_not_mem_piece n input)]

theorem Outcome.size_after (line : List α) (o : Outcome α) :
    (o.after line).size nl exit = line.length + o.size nl exit := by
  have hlines : (o.after line).lines.flatten.length = line.length + o.lines.flatten.length := by
    rw [Outcome.after, List.flatten_cons, List.length_append]
  rw [Outcome.size, hlines, Nat.add_assoc, Nat.add_assoc, ← Nat.add_assoc _ _ (List.length _)]
  rfl

theorem converse_size (k : ℕ) (input : List α) :
    (converse nl n id exit closed k input).size nl exit = (input.filter (· ≠ nl)).length := by
  induction k generalizing input with
  | zero => simp [converse, Outcome.size]
  | succ k ih =>
    by_cases hread : Readable nl n closed input
    · have hsize := @piece_size _ _ nl n input
      by_cases he : id (piece nl n input) = exit
      · rw [converse_exit hread he]
        simpa [Outcome.size, ← he] using hsize
      · have hlater := ih (behind nl n input)
        rw [converse_next hread he]
        rw [Outcome.size_after, hlater]
        exact hsize
    · rw [converse_end hread]
      cases closed <;> simp [Outcome.size]

theorem spoken_size (input : List α) :
    (spoken nl exit closed (split nl input).1 (split nl input).2).size nl exit =
      (input.filter (· ≠ nl)).length := by
  induction input using line_induction with
  | hlast last h =>
    rw [split_last h, spoken, filter_plain h]
    split_ifs with hopen he
    · have hsize := congrArg List.length (filter_plain h)
      simpa [Outcome.size] using hsize
    · simp [Outcome.size, ← he]
    · simp [Outcome.size]
  | hline line rest h ih =>
    have hfilter : ((line ++ nl :: rest).filter (· ≠ nl)).length =
        line.length + (rest.filter (· ≠ nl)).length := by
      rw [List.filter_append, filter_plain h, List.filter_cons_of_neg (by simp), List.length_append]
    rw [split_line h, spoken, hfilter]
    split_ifs with he
    · simp [Outcome.size, join_split, he]
    · rw [Outcome.size_after, ih]

theorem converse_lines_length (k : ℕ) (input : List α) :
    ∀ l ∈ (converse nl n id exit closed k input).lines, l.length ≤ n := by
  induction k generalizing input with
  | zero => simp [converse]
  | succ k ih =>
    by_cases hread : Readable nl n closed input
    · by_cases he : id (piece nl n input) = exit
      · rw [converse_exit hread he]
        simp
      · rw [converse_next hread he]
        exact List.forall_mem_cons.mpr ⟨piece_length n input, ih _⟩
    · rw [converse_end hread]
      simp

/-- While a reader waits, less is there than a read can take. -/
theorem converse_waiting (k : ℕ) (input : List α)
    (h : (converse nl n view exit closed k input).status = .waiting) :
    (converse nl n view exit closed k input).rest.length < n := by
  induction k generalizing input with
  | zero => cases h
  | succ k ih =>
    by_cases hread : Readable nl n closed input
    · by_cases he : view (piece nl n input) = exit
      · rw [converse_exit hread he] at h
        cases h
      · rw [converse_next hread he] at h ⊢
        exact ih _ h
    · rw [converse_end hread]
      exact (not_readable_iff.mp hread).2.1

theorem converse_finishes (hn : 0 < n) (k : ℕ) (input : List α) (hk : input.length < k) :
    (converse nl n view exit closed k input).status ≠ .reading := by
  induction k generalizing input with
  | zero => cases hk
  | succ k ih =>
    by_cases hread : Readable nl n closed input
    · by_cases he : view (piece nl n input) = exit
      · rw [converse_exit hread he]
        nofun
      · rw [converse_next hread he]
        exact ih _ (by have := behind_shorter hn hread; omega)
    · rw [converse_end hread]
      cases closed <;> nofun

/-- A reader who is not sent away stops where the input does. -/
theorem converse_status (k : ℕ) (input : List α) :
    (converse nl n view exit closed k input).status = .exited ∨
      (converse nl n view exit closed k input).status = .reading ∨
      (converse nl n view exit closed k input).status = if closed then .ended else .waiting := by
  induction k generalizing input with
  | zero => exact .inr (.inl rfl)
  | succ k ih =>
    by_cases hread : Readable nl n closed input
    · by_cases he : view (piece nl n input) = exit
      · rw [converse_exit hread he]
        exact .inl rfl
      · rw [converse_next hread he]
        exact ih _
    · rw [converse_end hread]
      exact .inr (.inr rfl)

/-- A reader that sees what is there reads like one that looks at nothing. -/
theorem converse_view (hview : ∀ l, l ⊆ input → view l = l) (k : ℕ) :
    converse nl n view exit closed k input = converse nl n id exit closed k input := by
  induction k generalizing input with
  | zero => rfl
  | succ k ih =>
    have hpiece : view (piece nl n input) = id (piece nl n input) := hview _ (piece_subset n input)
    rw [converse, converse, hpiece,
      ih (fun l hl ↦ hview l (List.Subset.trans hl (behind_subset n input)))]

theorem converse_exited_iff (k : ℕ) (input : List α) :
    (converse nl n view exit closed k input).status = .exited ↔
      exit ∈ (pieces nl n closed k input).map view := by
  induction k generalizing input with
  | zero => simp [converse, pieces]
  | succ k ih =>
    by_cases hread : Readable nl n closed input
    · rw [pieces, if_pos hread, List.map_cons, List.mem_cons]
      by_cases he : view (piece nl n input) = exit
      · rw [converse_exit hread he]
        exact iff_of_true rfl (.inl he.symm)
      · rw [converse_next hread he, or_iff_right (Ne.symm he)]
        exact ih _
    · rw [converse_end hread, pieces, if_neg hread]
      cases closed <;> simp

omit [DecidableEq α] in
theorem nonblank_flatten (lines : List (List α)) : (nonblank lines).flatten = lines.flatten := by
  induction lines with
  | nil => rfl
  | cons line lines ih =>
    by_cases hline : line = []
    · simp [hline, ih]
    · simp [hline, ih]

omit [DecidableEq α] in
theorem Passes.nonblank (n : ℕ) (lines : List (List α)) : Passes n lines (nonblank lines) := by
  induction lines with
  | nil => exact .nil
  | cons line lines ih =>
    by_cases hline : line = []
    · rw [hline, nonblank_blank]
      exact .blank ih
    · rw [nonblank_cons hline]
      exact .whole line hline ih

omit [DecidableEq α] in
theorem Passes.size_le {lines messages : List (List α)} (h : Passes n lines messages) :
    messages.flatten.length ≤ lines.flatten.length := by
  induction h with
  | nil => exact Nat.le_refl _
  | blank h ih => simpa using ih
  | whole line hline h ih =>
    rw [List.flatten_cons, List.flatten_cons, List.length_append, List.length_append]
    omega
  | refused line hline h ih =>
    rw [List.flatten_cons, List.length_append]
    omega

omit [DecidableEq α] in
/-- Messages that are as long together as the lines are all of them. -/
theorem Passes.whole_of_size {lines messages : List (List α)} (h : Passes n lines messages)
    (hsize : messages.flatten.length = lines.flatten.length) :
    messages = Lines.nonblank lines := by
  induction h with
  | nil => rfl
  | blank h ih => exact ih hsize
  | whole line hline h ih =>
    rw [List.flatten_cons, List.flatten_cons, List.length_append, List.length_append] at hsize
    rw [nonblank_cons hline, ih (by omega)]
  | refused line hline h ih =>
    have hle := h.size_le
    rw [List.flatten_cons, List.length_append] at hsize
    omega

/-- A reader in pieces of `n` hears what is said exactly when the lines fit. -/
theorem agrees_iff (hexit : exit ≠ []) (hroom : exit.length < n) (hk : input.length < k) :
    Agrees n (spoken nl exit closed (split nl input).1 (split nl input).2)
        (converse nl n id exit closed k input) ↔
      (spoken nl exit closed (split nl input).1 (split nl input).2).Fits n := by
  constructor
  · rintro ⟨hpasses, hstatus, hrest⟩
    have hsize : (nonblank (converse nl n id exit closed k input).lines).flatten.length =
        (spoken nl exit closed (split nl input).1 (split nl input).2).lines.flatten.length := by
      have hheard := @converse_size _ _ nl n exit closed k input
      have hsaid := @spoken_size _ _ nl exit closed input
      rw [Outcome.size, hstatus, hrest] at hheard
      rw [Outcome.size] at hsaid
      rw [nonblank_flatten]
      omega
    have hsame := hpasses.whole_of_size hsize
    refine ⟨fun l hl ↦ ?_, fun hwaiting ↦ ?_⟩
    · by_cases hline : l = []
      · rw [hline]
        exact Nat.zero_le _
      · have hmem : l ∈ nonblank (spoken nl exit closed (split nl input).1 (split nl input).2).lines :=
          List.mem_filter.mpr ⟨hl, by simp [hline]⟩
        rw [← hsame] at hmem
        exact converse_lines_length k input l (List.mem_filter.mp hmem).1
    · rw [← hrest]
      exact converse_waiting k input (hstatus.trans hwaiting)
  · intro hfits
    obtain ⟨hlines, hstatus, hrest⟩ := converse_same hexit hroom input k hk hfits
    exact ⟨by rw [hlines]; exact Passes.nonblank n _, hstatus, hrest⟩

theorem first_line {line : List α} (h : nl ∉ line) (rest : List α) :
    first nl closed (line ++ nl :: rest) = some (line, rest) := by
  rw [first, split_line h]
  dsimp only
  rw [join_split]

theorem first_last {last : List α} (h : nl ∉ last) :
    first nl closed last = if closed = true ∧ last ≠ [] then some (last, []) else none := by
  rw [first, split_last h]

/-- A first line that fits is read, with its newline or without. -/
theorem read_first {line rest : List α} (hfirst : first nl closed input = some (line, rest))
    (hn : line.length ≤ n) (hpos : 0 < n) :
    Readable nl n closed input ∧ piece nl n input = line ∧
      (behind nl n input = rest ∨ behind nl n input = nl :: rest) := by
  by_cases hnl : nl ∈ input
  · obtain ⟨front, tail, rfl, hfront⟩ := List.eq_append_cons_of_mem hnl
    rw [first_line hfront] at hfirst
    obtain ⟨rfl, rfl⟩ := Prod.mk.inj (Option.some.inj hfirst)
    obtain hshort | rfl := Nat.lt_or_eq_of_le hn
    · obtain ⟨hpiece, hbehind, hread⟩ := read_line hfront hshort tail
      exact ⟨hread closed, hpiece, .inl hbehind⟩
    · obtain ⟨hpiece, hbehind⟩ := read_full_line hfront tail
      exact ⟨readable_full (by rw [hpiece]), hpiece, .inr hbehind⟩
  · rw [first_last hnl] at hfirst
    obtain ⟨⟨hclosed, hsome⟩, hfirst⟩ := Option.ite_none_right_eq_some.mp hfirst
    obtain ⟨rfl, rfl⟩ := Prod.mk.inj (Option.some.inj hfirst)
    obtain ⟨hpiece, hbehind⟩ := read_last hnl hn
    exact ⟨.inr (.inr ⟨hclosed, by rw [hpiece]; exact hsome⟩), hpiece, .inl hbehind⟩

theorem read_first_long {line rest : List α} (hfirst : first nl closed input = some (line, rest))
    (hn : n < line.length) : behind nl n input ≠ rest ∧ behind nl n input ≠ nl :: rest := by
  have hleft : 0 < (line.drop n).length := by
    rw [List.length_drop]
    omega
  by_cases hnl : nl ∈ input
  · obtain ⟨front, tail, rfl, hfront⟩ := List.eq_append_cons_of_mem hnl
    rw [first_line hfront] at hfirst
    obtain ⟨rfl, rfl⟩ := Prod.mk.inj (Option.some.inj hfirst)
    have hbehind : behind nl n (front ++ nl :: tail) = front.drop n ++ nl :: tail := by
      have htake : (front ++ nl :: tail).take n = front.take n :=
        List.take_append_of_le_length (Nat.le_of_lt hn)
      rw [behind_plain (by rw [htake]; exact fun h ↦ hfront (List.mem_of_mem_take h)),
        List.drop_append_of_le_length (Nat.le_of_lt hn)]
    rw [hbehind]
    refine ⟨fun he ↦ ?_, fun he ↦ ?_⟩
    · have hlength := congrArg List.length he
      rw [List.length_append, List.length_cons] at hlength
      omega
    · have hlength := congrArg List.length he
      rw [List.length_append] at hlength
      omega
  · rw [first_last hnl] at hfirst
    obtain ⟨_, hfirst⟩ := Option.ite_none_right_eq_some.mp hfirst
    obtain ⟨rfl, rfl⟩ := Prod.mk.inj (Option.some.inj hfirst)
    have hplain : nl ∉ input.take n := fun hmem ↦ hnl (List.mem_of_mem_take hmem)
    rw [behind_plain hplain]
    refine ⟨List.length_pos_iff.mp hleft, fun he ↦ ?_⟩
    exact hnl (List.mem_of_mem_drop (i := n) (by rw [he]; exact List.mem_cons_self))

/-- Without a first line nothing is read from what does not fill one read. -/
theorem readable_without_first (hfirst : first nl closed input = none) :
    Readable nl n closed input ↔ n ≤ input.length := by
  have hnl : nl ∉ input := by
    intro hmem
    obtain ⟨front, tail, rfl, hfront⟩ := List.eq_append_cons_of_mem hmem
    rw [first_line hfront] at hfirst
    cases hfirst
  rw [first_last hnl] at hfirst
  have hended : closed = true → input = [] := by
    intro hclosed
    by_contra hsome
    rw [if_pos ⟨hclosed, hsome⟩] at hfirst
    cases hfirst
  rw [← not_iff_not, not_readable_iff]
  exact ⟨fun h ↦ Nat.not_le_of_lt h.2.1, fun h ↦ ⟨hnl, Nat.lt_of_not_le h, hended⟩⟩

end CChat.Library.Lines
