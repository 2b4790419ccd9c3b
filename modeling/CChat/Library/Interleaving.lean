import Mathlib.Data.Fintype.Basic
import Mathlib.Data.List.Basic
import CChat.Library.Runs

namespace CChat.Library.Interleaving

universe u v w

variable {ι : Type u} [DecidableEq ι] {α : Type v} {β : Type w}

/-- A sequence that consists of several parts, each in its own order. -/
def Merges (parts : ι → List α) (whole : List α) : Prop :=
  ∃ order : List (ι × α), order.map Prod.snd = whole ∧
    ∀ t, (order.filter (fun p ↦ p.1 = t)).map Prod.snd = parts t

theorem merges_nil : Merges (fun _ : ι ↦ ([] : List α)) [] := ⟨[], rfl, fun _ ↦ rfl⟩

theorem Merges.snoc {parts parts' : ι → List α} {whole : List α} (h : Merges parts whole) {t : ι}
    {a : α} (ht : parts' t = parts t ++ [a]) (hother : ∀ u, u ≠ t → parts' u = parts u) :
    Merges parts' (whole ++ [a]) := by
  obtain ⟨order, hwhole, hparts⟩ := h
  refine ⟨order ++ [(t, a)], by rw [List.map_append, hwhole]; rfl, fun u ↦ ?_⟩
  by_cases hu : u = t
  · subst hu
    rw [List.filter_append, List.map_append, hparts, ht]
    simp
  · rw [List.filter_append, List.map_append, hparts, hother u hu]
    simp [Ne.symm hu]

theorem Merges.congr {parts parts' : ι → List α} {whole : List α} (h : Merges parts whole)
    (hparts : ∀ t, parts' t = parts t) : Merges parts' whole := by
  obtain ⟨order, hwhole, horder⟩ := h
  exact ⟨order, hwhole, fun t ↦ (horder t).trans (hparts t).symm⟩

theorem Merges.map {parts : ι → List α} {whole : List α} (h : Merges parts whole) (f : α → β) :
    Merges (fun t ↦ (parts t).map f) (whole.map f) := by
  obtain ⟨order, rfl, horder⟩ := h
  refine ⟨order.map (Prod.map id f), by simp, fun t ↦ ?_⟩
  dsimp only
  rw [← horder t, List.filter_map, List.map_map, List.map_map]
  rfl

theorem Merges.mem {parts : ι → List α} {whole : List α} (h : Merges parts whole) {a : α}
    (ha : a ∈ whole) : ∃ t, a ∈ parts t := by
  obtain ⟨order, rfl, horder⟩ := h
  obtain ⟨⟨t, b⟩, hmem, rfl⟩ := List.mem_map.mp ha
  refine ⟨t, ?_⟩
  rw [← horder t]
  exact List.mem_map_of_mem (List.mem_filter.mpr ⟨hmem, by simp⟩)

/-- A sender of items that go out in chunks: the items it is done with, the one
it is in the middle of with the chunks still to go, and the ones to come. -/
structure Sender (α : Type v) (β : Type w) where
  done : List α
  current : Option (α × List (List β))
  todo : List α

structure Line (ι : Type u) (α : Type v) (β : Type w) where
  senders : ι → Sender α β
  stream : List β

def Line.start (items : ι → List α) : Line ι α β := ⟨fun t ↦ ⟨[], none, items t⟩, []⟩

def Sender.plan (s : Sender α β) : List α := s.done ++ ((s.current.map Prod.fst).toList ++ s.todo)

variable (chunks : α → List (List β))

def Sender.next (s : Sender α β) : Option (α × List (List β) × List α) :=
  match s.current, s.todo with
  | some (a, cs), todo => some (a, cs, todo)
  | none, a :: todo => some (a, chunks a, todo)
  | none, [] => none

def Sender.send (s : Sender α β) : List β × Sender α β :=
  match s.next chunks with
  | none => ([], s)
  | some (a, cs, todo) =>
    (cs.headD [],
      if cs.tail = [] then ⟨s.done ++ [a], none, todo⟩ else ⟨s.done, some (a, cs.tail), todo⟩)

def step (l : Line ι α β) (t : ι) : Line ι α β :=
  ⟨Function.update l.senders t ((l.senders t).send chunks).2,
    l.stream ++ ((l.senders t).send chunks).1⟩

def Alone (l : Line ι α β) (t : ι) : Prop := ∀ u, u ≠ t → (l.senders u).current = none

/-- What is sent next does not fall between two chunks of another sender's item. -/
def Orderly (l : Line ι α β) (t : ι) : Prop := (l.senders t).next chunks = none ∨ Alone l t

instance [Fintype ι] (l : Line ι α β) (t : ι) : Decidable (Orderly chunks l t) :=
  have : ∀ o : Option (α × List (List β)), Decidable (o = none) := fun o ↦
    decidable_of_iff (o.isNone = true) Option.isNone_iff_eq_none
  have : ∀ o : Option (α × List (List β) × List α), Decidable (o = none) := fun o ↦
    decidable_of_iff (o.isNone = true) Option.isNone_iff_eq_none
  inferInstanceAs (Decidable ((l.senders t).next chunks = none ∨
    ∀ u, u ≠ t → (l.senders u).current = none))

/-- The line carried the finished items whole, and then the chunks of at most
one more. -/
structure Whole (l : Line ι α β) (items : List α) (sent : List (List β)) : Prop where
  merges : Merges (fun t ↦ (l.senders t).done) items
  stream : l.stream = items.flatMap (fun a ↦ (chunks a).flatten) ++ sent.flatten
  current : (∀ t, (l.senders t).current = none) ∧ sent = [] ∨
    ∃ t a cs, (l.senders t).current = some (a, cs) ∧ Alone l t ∧ chunks a = sent ++ cs ∧ cs ≠ []

theorem start_whole (items : ι → List α) : Whole chunks (Line.start items) [] [] :=
  ⟨merges_nil, rfl, .inl ⟨fun _ ↦ rfl, rfl⟩⟩

theorem Sender.next_plan {s : Sender α β} {a : α} {cs : List (List β)} {todo : List α}
    (h : s.next chunks = some (a, cs, todo)) : s.plan = s.done ++ a :: todo := by
  unfold Sender.next at h
  unfold Sender.plan
  split at h
  next hcurrent =>
    cases h
    rw [hcurrent]
    rfl
  next hcurrent htodo =>
    cases h
    rw [hcurrent, htodo]
    rfl
  · cases h

theorem Sender.send_plan (s : Sender α β) : (s.send chunks).2.plan = s.plan := by
  unfold Sender.send
  split
  · rfl
  next a cs todo h =>
    rw [Sender.next_plan chunks h]
    dsimp only
    split
    · simp [Sender.plan]
    · simp [Sender.plan]

theorem step_self (l : Line ι α β) (t : ι) :
    (step chunks l t).senders t = ((l.senders t).send chunks).2 := Function.update_self ..

theorem step_other (l : Line ι α β) {t u : ι} (hu : u ≠ t) :
    (step chunks l t).senders u = l.senders u := Function.update_of_ne hu ..

theorem step_plan (l : Line ι α β) (t u : ι) :
    ((step chunks l t).senders u).plan = (l.senders u).plan := by
  by_cases hu : u = t
  · subst hu
    rw [step_self, Sender.send_plan]
  · rw [step_other chunks l hu]

theorem Whole.next {l : Line ι α β} {t : ι} {items : List α} {sent : List (List β)}
    (h : Whole chunks l items sent) (ht : Alone l t) {a : α} {cs : List (List β)} {todo : List α}
    (hnext : (l.senders t).next chunks = some (a, cs, todo)) : chunks a = sent ++ cs := by
  obtain ⟨hnone, rfl⟩ | ⟨u, b, ds, hcurrent, _, hchunks, _⟩ := h.current
  · unfold Sender.next at hnext
    rw [hnone t] at hnext
    split at hnext
    next hsome => cases hsome
    · cases hnext
      rfl
    · cases hnext
  · obtain rfl : u = t := by
      by_contra hu
      rw [ht u hu] at hcurrent
      cases hcurrent
    unfold Sender.next at hnext
    rw [hcurrent] at hnext
    cases hnext
    exact hchunks

theorem step_idle {l : Line ι α β} {t : ι} (h : (l.senders t).next chunks = none) :
    step chunks l t = l := by
  unfold step Sender.send
  rw [h, Function.update_eq_self, List.append_nil]

/-- A chunk that falls into no other sender's item keeps the line whole. -/
theorem step_whole {l : Line ι α β} {t : ι} {items : List α} {sent : List (List β)}
    (h : Whole chunks l items sent) (ht : Orderly chunks l t) :
    ∃ items' sent', Whole chunks (step chunks l t) items' sent' := by
  cases hnext : (l.senders t).next chunks with
  | none => exact ⟨items, sent, (step_idle chunks hnext).symm ▸ h⟩
  | some next =>
    replace ht : Alone l t := ht.resolve_left (by rw [hnext]; exact Option.some_ne_none _)
    obtain ⟨a, cs, todo⟩ := next
    have hchunks := h.next chunks ht hnext
    have hothers : Alone (step chunks l t) t := by
      intro u hu
      rw [step_other chunks l hu]
      exact ht u hu
    have hdone : ∀ u, u ≠ t → ((step chunks l t).senders u).done = (l.senders u).done := by
      intro u hu
      rw [step_other chunks l hu]
    have hself := step_self chunks l t
    have hstream : (step chunks l t).stream = l.stream ++ ((l.senders t).send chunks).1 := rfl
    rw [Sender.send, hnext] at hself hstream
    dsimp only at hself hstream
    by_cases hlast : cs.tail = []
    · rw [if_pos hlast] at hself
      have hend : sent.flatten ++ cs.headD [] = (chunks a).flatten := by
        rw [hchunks, List.flatten_append]
        cases cs with
        | nil => rfl
        | cons c cs =>
          obtain rfl : cs = [] := hlast
          simp
      refine ⟨items ++ [a], [], h.merges.snoc (by rw [hself]) hdone, ?_, .inl ⟨fun u ↦ ?_, rfl⟩⟩
      · rw [hstream, h.stream, List.append_assoc, hend, List.flatMap_append, List.flatMap_singleton,
          List.flatten_nil, List.append_nil]
      · by_cases hu : u = t
        · rw [hu, hself]
        · exact hothers u hu
    · rw [if_neg hlast] at hself
      obtain ⟨c, cs, rfl⟩ := List.exists_cons_of_ne_nil (fun hnil ↦ hlast (hnil ▸ List.tail_nil))
      have hsame : ∀ u, ((step chunks l t).senders u).done = (l.senders u).done := by
        intro u
        by_cases hu : u = t
        · rw [hu, hself]
        · exact hdone u hu
      refine ⟨items, sent ++ [c], h.merges.congr hsame, ?_,
        .inr ⟨t, a, cs, by rw [hself]; rfl, hothers, ?_, hlast⟩⟩
      · rw [hstream, h.stream, List.append_assoc, List.flatten_append]
        simp
      · rw [hchunks, List.append_assoc, List.singleton_append]

/-- Along a run in which no item is cut by another the line stays whole. -/
theorem always_whole (items : ι → List α) {ts : List ι}
    (h : Runs.Along (step chunks) (Orderly chunks) (Line.start items) ts) :
    Runs.Always (step chunks) (fun l ↦ (∃ finished sent, Whole chunks l finished sent) ∧
      ∀ t, (l.senders t).plan = items t) (Line.start items) ts := by
  refine Runs.Along.always ?_ ⟨⟨[], [], start_whole chunks items⟩, fun _ ↦ rfl⟩ h
  rintro l t ⟨⟨finished, sent, hwhole⟩, hplan⟩ ht
  refine ⟨step_whole chunks hwhole ht, fun u ↦ ?_⟩
  rw [step_plan, hplan]

end CChat.Library.Interleaving
