import CChat.Library.Interleaving

namespace CChat.Library.Boxes

open Runs

universe u v

variable {δ : Type u} {μ : Type v} [DecidableEq δ]

/-- What is done to boxes of messages: one comes in behind the others, the
first one is taken out, or a box is emptied. -/
inductive Act (δ : Type u) (μ : Type v)
  | put (d : δ) (m : μ)
  | take (d : δ) (m : μ)
  | clear (d : δ)

def act (b : δ → List μ) : Act δ μ → δ → List μ
  | .put d m => Function.update b d (b d ++ [m])
  | .take d _ => Function.update b d (b d).tail
  | .clear d => Function.update b d []

/-- What is taken out is the first message of its box. -/
def Fits (b : δ → List μ) : Act δ μ → Prop
  | .take d m => (b d).head? = some m
  | _ => True

/-- Where a message goes that is put into a box. -/
def Act.arrival : Act δ μ → Option (δ × μ)
  | .put d m => some (d, m)
  | _ => none

def Act.departure : Act δ μ → Option (δ × μ)
  | .take d m => some (d, m)
  | _ => none

def share (d : δ) (moves : List (δ × μ)) : List μ :=
  (moves.filter (fun p ↦ p.1 = d)).map Prod.snd

theorem share_merges (moves : List (δ × μ)) :
    Interleaving.Merges (fun d ↦ share d moves) (moves.map Prod.snd) :=
  ⟨moves, rfl, fun _ ↦ rfl⟩

def handed (fates : List (μ × Bool)) : List μ := (fates.filter Prod.snd).map Prod.fst

@[simp] theorem share_cons (d d' : δ) (m : μ) (moves : List (δ × μ)) :
    share d ((d', m) :: moves) = if d' = d then m :: share d moves else share d moves := by
  by_cases h : d' = d <;> simp [share, h]

/-- What is in a box and is put into it leaves it in this order, each once, or
is still in it; nothing is lost from a box that is not emptied. -/
theorem fates (b : δ → List μ) {acts : List (Act δ μ)} (h : Along act Fits b acts) (d : δ) :
    ∃ fates, b d ++ share d (acts.filterMap Act.arrival) =
        fates.map Prod.fst ++ run act b acts d ∧
      share d (acts.filterMap Act.departure) = handed fates ∧
      (.clear d ∉ acts → ∀ f ∈ fates, f.2 = true) := by
  induction acts generalizing b with
  | nil => exact ⟨[], List.append_nil _, rfl, fun _ f hf ↦ absurd hf List.not_mem_nil⟩
  | cons a acts ih =>
    obtain ⟨ha, hrest⟩ := h
    obtain ⟨fates, hsplit, htaken, hclear⟩ := ih (act b a) hrest
    have hlater : .clear d ∉ a :: acts → ∀ f ∈ fates, f.2 = true :=
      fun hno ↦ hclear (fun hmem ↦ hno (List.mem_cons_of_mem a hmem))
    cases a with
    | put d' m =>
      refine ⟨fates, ?_, ?_, hlater⟩
      · by_cases heq : d' = d
        · subst heq
          simpa [act, Act.arrival, List.filterMap_cons] using hsplit
        · simpa [act, Act.arrival, List.filterMap_cons, heq, Function.update_of_ne (Ne.symm heq)]
            using hsplit
      · simpa [Act.departure, List.filterMap_cons] using htaken
    | take d' m =>
      by_cases heq : d' = d
      · subst heq
        obtain ⟨tail, hbox⟩ : ∃ tail, b d' = m :: tail := List.head?_eq_some_iff.mp ha
        refine ⟨(m, true) :: fates, ?_, ?_, fun hno f hf ↦ ?_⟩
        · simpa [act, Act.arrival, List.filterMap_cons, hbox] using hsplit
        · simpa [Act.departure, List.filterMap_cons, handed] using htaken
        · obtain rfl | hf := List.mem_cons.mp hf
          · rfl
          · exact hlater hno f hf
      · refine ⟨fates, ?_, ?_, hlater⟩
        · simpa [act, Act.arrival, List.filterMap_cons, Function.update_of_ne (Ne.symm heq)]
            using hsplit
        · simpa [Act.departure, List.filterMap_cons, heq] using htaken
    | clear d' =>
      by_cases heq : d' = d
      · subst heq
        refine ⟨(b d').map (fun m ↦ (m, false)) ++ fates, ?_, ?_, fun hno ↦ ?_⟩
        · simpa [act, Act.arrival, List.filterMap_cons, Function.comp_def] using hsplit
        · simpa [Act.departure, List.filterMap_cons, handed, List.filter_map, Function.comp_def]
            using htaken
        · exact absurd List.mem_cons_self hno
      · refine ⟨fates, ?_, ?_, hlater⟩
        · simpa [act, Act.arrival, List.filterMap_cons, Function.update_of_ne (Ne.symm heq)]
            using hsplit
        · simpa [Act.departure, List.filterMap_cons] using htaken

end CChat.Library.Boxes
