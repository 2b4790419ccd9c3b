import CChat.Library.Lines

namespace CChat.Library.Words

variable {α : Type*} (space : α → Bool)

def words (text : List α) : List (List α) := Lines.nonblank (text.splitOnP space)

def nextWord (text : List α) : List α × List α :=
  ((text.dropWhile space).takeWhile (fun a ↦ !space a),
    (text.dropWhile space).dropWhile (fun a ↦ !space a))

variable {space}

theorem words_space {a : α} (ha : space a = true) (text : List α) :
    words space (a :: text) = words space text := by
  rw [words, List.splitOnP_cons_eq_if_modifyHead, if_pos ha, Lines.nonblank_blank]
  rfl

theorem words_skip (text : List α) : words space (text.dropWhile space) = words space text := by
  induction text with
  | nil => rfl
  | cons a text ih =>
    by_cases ha : space a = true
    · rw [List.dropWhile_cons_of_pos ha, ih, words_space ha]
    · rw [List.dropWhile_cons_of_neg ha]

theorem words_plain {word : List α} (h : ∀ a ∈ word, space a = false) (hword : word ≠ []) :
    words space word = [word] := by
  rw [words, List.splitOnP_eq_singleton h, Lines.nonblank_cons hword]
  rfl

theorem words_append {word : List α} (h : ∀ a ∈ word, space a = false) (hword : word ≠ []) {b : α}
    (hb : space b = true) (text : List α) :
    words space (word ++ b :: text) = word :: words space (b :: text) := by
  rw [words_space hb, words, List.splitOnP_append_cons_of_forall_mem h b hb,
    Lines.nonblank_cons hword]
  rfl

theorem words_next (text : List α) :
    words space text =
      if (nextWord space text).1 = [] then []
      else (nextWord space text).1 :: words space (nextWord space text).2 := by
  have hsplit := List.takeWhile_append_dropWhile (p := fun a ↦ !space a) (l := text.dropWhile space)
  have hword : ∀ a ∈ (nextWord space text).1, space a = false := by
    intro a ha
    simpa using List.mem_takeWhile_imp ha
  rw [← words_skip]
  change (nextWord space text).1 ++ (nextWord space text).2 = _ at hsplit
  cases hrest : (nextWord space text).2 with
  | nil =>
    rw [hrest, List.append_nil] at hsplit
    rw [← hsplit]
    split
    next hnone => rw [hnone]; rfl
    next hsome => rw [words_plain hword hsome]; rfl
  | cons b rest =>
    have hb : space b = true := by
      have hhead := List.head?_dropWhile_not (fun a ↦ !space a) (text.dropWhile space)
      rw [show (text.dropWhile space).dropWhile (fun a ↦ !space a) = b :: rest from hrest] at hhead
      simpa using hhead
    rw [hrest] at hsplit
    split
    next hnone =>
      have hhead := List.head?_dropWhile_not space text
      rw [← hsplit, hnone] at hhead
      simp [hb] at hhead
    next hsome => rw [← hsplit, words_append hword hsome hb]

theorem mem_splitOnP {text piece : List α} (h : piece ∈ text.splitOnP space) : piece ⊆ text := by
  induction text generalizing piece with
  | nil =>
    obtain rfl := List.mem_singleton.mp h
    exact List.Subset.refl _
  | cons a text ih =>
    rw [List.splitOnP_cons_eq_if_modifyHead] at h
    split at h
    · obtain rfl | h := List.mem_cons.mp h
      · exact List.nil_subset _
      · exact List.Subset.trans (ih h) (List.subset_cons_self _ _)
    · cases hpieces : text.splitOnP space with
      | nil => exact absurd hpieces (List.splitOnP_ne_nil _ _)
      | cons front pieces =>
        rw [hpieces] at h ih
        obtain rfl | h := List.mem_cons.mp h
        · exact List.cons_subset_cons a (ih List.mem_cons_self)
        · exact List.Subset.trans (ih (List.mem_cons_of_mem _ h)) (List.subset_cons_self _ _)

theorem mem_words {text word : List α} (h : word ∈ words space text) : word ⊆ text ∧ word ≠ [] := by
  obtain ⟨hpiece, hsome⟩ := List.mem_filter.mp h
  exact ⟨mem_splitOnP hpiece, of_decide_eq_true hsome⟩

end CChat.Library.Words
