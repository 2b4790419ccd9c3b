import Mathlib.Data.List.Infix
import Mathlib.Data.Set.Insert
import Mathlib.Logic.Function.Basic
import CChat.Library.Boxes

namespace CChat.Library.Offices

open Runs

universe u v w x

variable {ν : Type u} {κ : Type v} {δ : Type w} {μ : Type x}

/-- A message office: the names it knows with their keys, the name under which
each desk is signed in, the messages that wait at it, and the desks that are
given up for good. -/
@[ext]
structure Office (ν : Type u) (κ : Type v) (δ : Type w) (μ : Type x) where
  key : ν → Option κ
  session : δ → Option ν
  box : δ → List μ
  left : Set δ

def Office.empty : Office ν κ δ μ := ⟨fun _ ↦ none, fun _ ↦ none, fun _ ↦ [], ∅⟩

inductive Act (ν : Type u) (κ : Type v) (δ : Type w) (μ : Type x)
  | enroll (name : ν) (k : κ)
  | join (d : δ) (name : ν)
  | pass (s d : δ) (m : μ)
  | post (s d : δ) (m : μ)
  | hand (d : δ) (m : μ)
  | leave (d : δ)

structure Rules (ν : Type u) (μ : Type x) where
  author : μ → ν
  addressee : μ → ν
  room : ℕ

variable [DecidableEq ν] [DecidableEq δ]

def Office.act (o : Office ν κ δ μ) : Act ν κ δ μ → Office ν κ δ μ
  | .enroll name k => { o with key := Function.update o.key name (some k) }
  | .join d name => { o with session := Function.update o.session d (some name) }
  | .pass _ _ _ => o
  | .post _ d m => { o with box := Function.update o.box d (o.box d ++ [m]) }
  | .hand d _ => { o with box := Function.update o.box d (o.box d).tail }
  | .leave d =>
    ⟨o.key, Function.update o.session d none, Function.update o.box d [], insert d o.left⟩

structure Office.Carries (r : Rules ν μ) (o : Office ν κ δ μ) (s d : δ) (m : μ) : Prop where
  author : o.session s = some (r.author m)
  addressee : o.session d = some (r.addressee m)

def Office.Admits (r : Rules ν μ) (o : Office ν κ δ μ) : Act ν κ δ μ → Prop
  | .enroll name _ => o.key name = none
  | .join d name => (o.key name).isSome ∧ d ∉ o.left
  | .pass s d m => o.Carries r s d m
  | .post s d m => o.Carries r s d m ∧ (o.box d).length < r.room
  | .hand d m => (o.box d).head? = some m
  | .leave d => d ∉ o.left

structure Office.Valid (r : Rules ν μ) (o : Office ν κ δ μ) : Prop where
  known : ∀ d name, o.session d = some name → (o.key name).isSome
  room : ∀ d, (o.box d).length ≤ r.room
  gone : ∀ d ∈ o.left, o.session d = none ∧ o.box d = []
  held : ∀ d, o.box d ≠ [] → (o.session d).isSome

variable {r : Rules ν μ} {o : Office ν κ δ μ}

omit [DecidableEq ν] [DecidableEq δ] in
theorem empty_valid : (Office.empty : Office ν κ δ μ).Valid r := by
  refine ⟨?_, ?_, ?_, ?_⟩
  · intro d name h
    cases h
  · intro d
    exact Nat.zero_le _
  · intro d h
    cases h
  · intro d h
    exact absurd rfl h

theorem act_valid (h : o.Valid r) {a : Act ν κ δ μ} (ha : o.Admits r a) : (o.act a).Valid r := by
  cases a with
  | enroll name k =>
    refine ⟨?_, h.room, h.gone, h.held⟩
    intro d name' hd
    have hold := h.known d name' hd
    by_cases heq : name' = name
    · simp [Office.act, heq]
    · simpa [Office.act, Function.update_of_ne heq] using hold
  | join d name =>
    obtain ⟨hknown, hopen⟩ := ha
    refine ⟨?_, h.room, ?_, ?_⟩
    · refine (Function.forall_update_iff o.session
        (p := fun _ s ↦ ∀ name, s = some name → (o.key name).isSome)).mpr ⟨?_, ?_⟩
      · intro name' heq
        exact Option.some.inj heq ▸ hknown
      · intro d' _
        exact h.known d'
    · intro d' hd
      have hne : d' ≠ d := fun heq ↦ hopen (heq ▸ hd)
      simpa [Office.act, Function.update_of_ne hne] using h.gone d' hd
    · exact (Function.forall_update_iff o.session
        (p := fun d s ↦ o.box d ≠ [] → s.isSome)).mpr ⟨fun _ ↦ rfl, fun d' _ ↦ h.held d'⟩
  | pass s d m => exact h
  | post s d m =>
    obtain ⟨hcarries, hroom⟩ := ha
    refine ⟨h.known, ?_, ?_, ?_⟩
    · refine (Function.forall_update_iff o.box (p := fun _ b ↦ b.length ≤ r.room)).mpr
        ⟨?_, fun d' _ ↦ h.room d'⟩
      rw [List.length_append]
      exact hroom
    · intro d' hd
      have hne : d' ≠ d := by
        rintro rfl
        have hnone := (h.gone d' hd).1
        rw [hcarries.addressee] at hnone
        cases hnone
      simpa [Office.act, Function.update_of_ne hne] using h.gone d' hd
    · refine (Function.forall_update_iff o.box
        (p := fun d b ↦ b ≠ [] → (o.session d).isSome)).mpr ⟨fun _ ↦ ?_, fun d' _ ↦ h.held d'⟩
      rw [hcarries.addressee]
      rfl
  | hand d m =>
    have hsome : (o.session d).isSome := h.held d (fun hnil ↦ by simp [Office.Admits, hnil] at ha)
    refine ⟨h.known, ?_, ?_, ?_⟩
    · refine (Function.forall_update_iff o.box (p := fun _ b ↦ b.length ≤ r.room)).mpr
        ⟨?_, fun d' _ ↦ h.room d'⟩
      rw [List.length_tail]
      exact (Nat.sub_le _ _).trans (h.room d)
    · intro d' hd
      have hne : d' ≠ d := by
        rintro rfl
        rw [(h.gone d' hd).1] at hsome
        cases hsome
      simpa [Office.act, Function.update_of_ne hne] using h.gone d' hd
    · exact (Function.forall_update_iff o.box
        (p := fun d b ↦ b ≠ [] → (o.session d).isSome)).mpr ⟨fun _ ↦ hsome, fun d' _ ↦ h.held d'⟩
  | leave d =>
    refine ⟨?_, ?_, ?_, ?_⟩
    · exact (Function.forall_update_iff o.session
        (p := fun _ s ↦ ∀ name, s = some name → (o.key name).isSome)).mpr
          ⟨by simp, fun d' _ ↦ h.known d'⟩
    · exact (Function.forall_update_iff o.box (p := fun _ b ↦ b.length ≤ r.room)).mpr
        ⟨Nat.zero_le _, fun d' _ ↦ h.room d'⟩
    · intro d' hd
      by_cases heq : d' = d
      · simp [Office.act, heq]
      · have hold : d' ∈ o.left := by simpa [Office.act, heq] using hd
        simpa [Office.act, Function.update_of_ne heq] using h.gone d' hold
    · intro d' hd
      have hne : d' ≠ d := by
        rintro rfl
        simp [Office.act] at hd
      simp only [Office.act, Function.update_of_ne hne] at hd ⊢
      exact h.held d' hd

theorem acts_valid (h : o.Valid r) {acts : List (Act ν κ δ μ)}
    (ha : Along Office.act (Office.Admits r) o acts) : (run Office.act o acts).Valid r :=
  (Along.always (Q := Office.Valid r) (fun _ _ ho hact ↦ act_valid ho hact) h ha).last

def Act.boxed : Act ν κ δ μ → Option (Boxes.Act δ μ)
  | .post _ d m => some (.put d m)
  | .hand d m => some (.take d m)
  | .leave d => some (.clear d)
  | _ => none

theorem acts_boxed {acts : List (Act ν κ δ μ)}
    (ha : Along Office.act (Office.Admits r) o acts) :
    Along Boxes.act Boxes.Fits o.box (acts.filterMap Act.boxed) ∧
      (run Office.act o acts).box = run Boxes.act o.box (acts.filterMap Act.boxed) := by
  induction acts generalizing o with
  | nil => exact ⟨trivial, rfl⟩
  | cons a acts ih =>
    obtain ⟨hact, hrest⟩ := ha
    obtain ⟨hfits, hrun⟩ := ih hrest
    cases a with
    | post s d m => exact ⟨⟨trivial, hfits⟩, hrun⟩
    | hand d m => exact ⟨⟨hact, hfits⟩, hrun⟩
    | leave d => exact ⟨⟨trivial, hfits⟩, hrun⟩
    | _ => exact ⟨hfits, hrun⟩

theorem left_of_clear {d : δ} {acts : List (Act ν κ δ μ)}
    (h : d ∈ o.left ∨ .clear d ∈ acts.filterMap Act.boxed) : d ∈ (run Office.act o acts).left := by
  induction acts generalizing o with
  | nil => exact h.resolve_right List.not_mem_nil
  | cons a acts ih =>
    refine ih ?_
    cases a with
    | leave d' =>
      obtain hleft | hclear := h
      · exact .inl (Set.mem_insert_of_mem d' hleft)
      · obtain heq | hlater := List.mem_cons.mp hclear
        · injection heq with heq
          exact .inl (heq ▸ Set.mem_insert d o.left)
        · exact .inr hlater
    | post s d' m => exact h.imp_right (fun hclear ↦ (List.mem_cons.mp hclear).resolve_left (by simp))
    | hand d' m => exact h.imp_right (fun hclear ↦ (List.mem_cons.mp hclear).resolve_left (by simp))
    | _ => exact h

end CChat.Library.Offices
