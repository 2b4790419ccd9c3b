import Mathlib.Data.List.Count
import Mathlib.Data.List.Induction
import Mathlib.Data.Set.Insert
import Mathlib.Logic.Function.Basic
import CChat.Library.Runs

namespace CChat.Library.Custody

universe u

/-- A routine as far as what it holds goes: what it acquires, uses and releases on
the way to its result. What it gives to a store that others share is no longer its
own. It branches where anything else decides. -/
inductive Code (S α : Type)
  | ret (a : α)
  | acquire (next : Option ℕ → Code S α)
  | use (h : ℕ) (next : Code S α)
  | release (h : ℕ) (next : Code S α)
  | give (q : S) (h : ℕ) (next : Code S α)
  | decide (next : Bool → Code S α)
  | index (next : ℕ → Code S α)

variable {S α β : Type}

def Code.bind : Code S α → (α → Code S β) → Code S β
  | .ret a, f => f a
  | .acquire next, f => .acquire (fun h ↦ (next h).bind f)
  | .use h next, f => .use h (next.bind f)
  | .release h next, f => .release h (next.bind f)
  | .give q h next, f => .give q h (next.bind f)
  | .decide next, f => .decide (fun b ↦ (next b).bind f)
  | .index next, f => .index (fun n ↦ (next n).bind f)

instance : Monad (Code S) where
  pure := .ret
  bind := Code.bind

def acquire : Code S (Option ℕ) := .acquire .ret

def use (h : ℕ) : Code S Unit := .use h (.ret ())

def release (h : ℕ) : Code S Unit := .release h (.ret ())

def give (q : S) (h : ℕ) : Code S Unit := .give q h (.ret ())

def either : Code S Bool := .decide .ret

def someIndex : Code S ℕ := .index .ret

def useAny : Option ℕ → Code S Unit
  | none => pure ()
  | some h => use h

def each (body : ℕ → Code S Unit) : ℕ → Code S Unit
  | 0 => pure ()
  | n + 1 => do
    each body n
    body n

/-- From a set of what is held, all that is used, released or given away is held,
whatever was acquired is new, and the result and what is held at the end are as
wanted. -/
def Safe : Code S α → Set ℕ → (α → Set ℕ → Prop) → Prop
  | .ret a, held, post => post a held
  | .acquire next, held, post =>
    Safe (next none) held post ∧ ∀ h ∉ held, Safe (next (some h)) (insert h held) post
  | .use h next, held, post => h ∈ held ∧ Safe next held post
  | .release h next, held, post => h ∈ held ∧ Safe next (held \ {h}) post
  | .give _ h next, held, post => h ∈ held ∧ Safe next (held \ {h}) post
  | .decide next, held, post => ∀ b, Safe (next b) held post
  | .index next, held, post => ∀ n, Safe (next n) held post

/-- Called with some handles of its own and others lent to it, the routine is safe,
keeps what was lent, and has turned its own into what it returns. -/
def Turns (own lent : List ℕ) (got : α → List ℕ) (c : Code S α) : Prop :=
  ∀ held : Set ℕ, (∀ h ∈ own, h ∉ held) → (∀ h ∈ lent, h ∈ held) →
    Safe c {h | h ∈ own ∨ h ∈ held} fun a after ↦
      (∀ h ∈ got a, h ∉ held) ∧ after = {h | h ∈ got a ∨ h ∈ held}

def Spends (own lent : List ℕ) (c : Code S α) : Prop := Turns own lent (fun _ ↦ []) c

def Keeps (lent : List ℕ) (c : Code S α) : Prop := Spends [] lent c

theorem Safe.mono {c : Code S α} {held : Set ℕ} {post post' : α → Set ℕ → Prop}
    (hc : Safe c held post) (hpost : ∀ a after, post a after → post' a after) :
    Safe c held post' := by
  induction c generalizing held with
  | ret a => exact hpost a held hc
  | acquire next ih => exact ⟨ih none hc.1, fun h hh ↦ ih (some h) (hc.2 h hh)⟩
  | use h next ih => exact ⟨hc.1, ih hc.2⟩
  | release h next ih => exact ⟨hc.1, ih hc.2⟩
  | give q h next ih => exact ⟨hc.1, ih hc.2⟩
  | decide next ih => exact fun b ↦ ih b (hc b)
  | index next ih => exact fun n ↦ ih n (hc n)

theorem Safe.bind {c : Code S α} {f : α → Code S β} {held : Set ℕ} {post : β → Set ℕ → Prop}
    (hc : Safe c held (fun a after ↦ Safe (f a) after post)) : Safe (c >>= f) held post := by
  induction c generalizing held with
  | ret a => exact hc
  | acquire next ih => exact ⟨ih none hc.1, fun h hh ↦ ih (some h) (hc.2 h hh)⟩
  | use h next ih => exact ⟨hc.1, ih hc.2⟩
  | release h next ih => exact ⟨hc.1, ih hc.2⟩
  | give q h next ih => exact ⟨hc.1, ih hc.2⟩
  | decide next ih => exact fun b ↦ ih b (hc b)
  | index next ih => exact fun n ↦ ih n (hc n)

variable {own lent : List ℕ} {got : α → List ℕ} {got' : β → List ℕ} {c c' : Code S α}
  {f : α → Code S β}

theorem Turns.pure (a : α) : Turns (got a) lent got (pure a : Code S α) :=
  fun _ hown _ ↦ ⟨hown, rfl⟩

/-- One routine after another, with handles that the first does not touch unless to
use them. -/
theorem Turns.bind {own₁ own₂ : List ℕ} (hapart : ∀ h ∈ own₁, h ∉ own₂)
    (hc : Turns own₁ (own₂ ++ lent) got c)
    (hf : ∀ a, (∀ h ∈ got a, h ∉ own₂ ∧ h ∉ lent) → Turns (got a ++ own₂) lent got' (f a)) :
    Turns (own₁ ++ own₂) lent got' (c >>= f) := by
  intro held hown hlent
  have hrest : ∀ h ∈ own₁, h ∉ {h | h ∈ own₂ ∨ h ∈ held} := by
    rintro h hh (hmine | hheld)
    · exact hapart h hh hmine
    · exact hown h (List.mem_append_left _ hh) hheld
  have hlend : ∀ h ∈ own₂ ++ lent, h ∈ {h | h ∈ own₂ ∨ h ∈ held} := by
    intro h hh
    exact (List.mem_append.mp hh).imp_right (hlent h)
  have hrun := hc {h | h ∈ own₂ ∨ h ∈ held} hrest hlend
  have hall : {h | h ∈ own₁ ++ own₂ ∨ h ∈ held} =
      {h | h ∈ own₁ ∨ h ∈ {h | h ∈ own₂ ∨ h ∈ held}} := by
    ext h
    exact (or_congr_left List.mem_append).trans or_assoc
  rw [hall]
  refine Safe.bind (hrun.mono ?_)
  rintro a _ ⟨hnew, rfl⟩
  have hnext := hf a (fun h hh ↦ ⟨fun hmine ↦ hnew h hh (.inl hmine),
    fun hl ↦ hnew h hh (.inr (hlent h hl))⟩) held ?_ hlent
  · have hsame : {h | h ∈ got a ++ own₂ ∨ h ∈ held} =
        {h | h ∈ got a ∨ h ∈ {h | h ∈ own₂ ∨ h ∈ held}} := by
      ext h
      exact (or_congr_left List.mem_append).trans or_assoc
    rw [← hsame]
    exact hnext
  · intro h hh hheld
    obtain hg | hmine := List.mem_append.mp hh
    · exact hnew h hg (.inr hheld)
    · exact hown h (List.mem_append_right _ hmine) hheld

theorem Turns.keep (hc : Keeps (own ++ lent) c) (hf : ∀ a, Turns own lent got' (f a)) :
    Turns own lent got' (c >>= f) :=
  @Turns.bind S α β lent (fun _ ↦ []) got' c f [] own nofun hc (fun a _ ↦ hf a)

theorem Turns.receive (hc : Turns [] (own ++ lent) got c)
    (hf : ∀ a, (∀ h ∈ got a, h ∉ own ∧ h ∉ lent) → Turns (got a ++ own) lent got' (f a)) :
    Turns own lent got' (c >>= f) :=
  @Turns.bind S α β lent got got' c f [] own nofun hc hf

theorem Turns.spend (hc : Spends own lent c) (hf : ∀ a, Turns [] lent got' (f a)) :
    Turns own lent got' (c >>= f) := by
  have hapart : ∀ h ∈ own, h ∉ ([] : List ℕ) := fun _ _ ↦ List.not_mem_nil
  have hrun := @Turns.bind S α β lent (fun _ ↦ []) got' c f own [] hapart hc (fun a _ ↦ hf a)
  rwa [List.append_nil] at hrun

theorem Turns.branch (hc : Turns own lent got c) (hc' : Turns own lent got c') :
    Turns own lent got (do if ← Custody.either then c else c') := by
  intro held hown hlent b
  cases b with
  | false => exact hc' held hown hlent
  | true => exact hc held hown hlent

theorem Turns.index {f : ℕ → Code S β} (hf : ∀ n, Turns own lent got' (f n)) :
    Turns own lent got' (someIndex >>= f) := fun held hown hlent n ↦ hf n held hown hlent

theorem Turns.use {h : ℕ} (hh : h ∈ own ∨ h ∈ lent) (hc : Turns own lent got c) :
    Turns own lent got (do use h; c) :=
  fun held hown hlent ↦ ⟨hh.imp_right (hlent h), hc held hown hlent⟩

/-- Without the first of its own handles a routine has the others, and what is held. -/
theorem without_first {h : ℕ} {held : Set ℕ} (hnew : h ∉ own) (hheld : h ∉ held) :
    {x | x ∈ h :: own ∨ x ∈ held} \ {h} = {x | x ∈ own ∨ x ∈ held} := by
  ext x
  constructor
  · rintro ⟨hx, hne⟩
    exact hx.imp_left (fun hmem ↦ (List.mem_cons.mp hmem).resolve_left hne)
  · intro hx
    refine ⟨hx.imp_left (List.mem_cons_of_mem h), ?_⟩
    rintro rfl
    exact hx.elim hnew hheld

theorem Turns.release {h : ℕ} (hnew : h ∉ own) (hc : Turns own lent got c) :
    Turns (h :: own) lent got (do release h; c) := by
  intro held hown hlent
  obtain ⟨hheld, hrest⟩ := List.forall_mem_cons.mp hown
  refine ⟨.inl List.mem_cons_self, ?_⟩
  rw [without_first hnew hheld]
  exact hc held hrest hlent

theorem Turns.give {q : S} {h : ℕ} (hnew : h ∉ own) (hc : Turns own lent got c) :
    Turns (h :: own) lent got (do give q h; c) := by
  intro held hown hlent
  obtain ⟨hheld, hrest⟩ := List.forall_mem_cons.mp hown
  refine ⟨.inl List.mem_cons_self, ?_⟩
  rw [without_first hnew hheld]
  exact hc held hrest hlent

theorem acquire_turns (lent : List ℕ) :
    Turns [] lent Option.toList (acquire : Code S (Option ℕ)) := by
  intro held _ _
  have hheld : {h | h ∈ ([] : List ℕ) ∨ h ∈ held} = held := by simp
  rw [hheld]
  refine ⟨⟨nofun, by simp⟩, fun h hh ↦ ⟨?_, ?_⟩⟩
  · simpa using hh
  · ext x
    simp

theorem Turns.acquired {f : Option ℕ → Code S β} (hnone : Turns own lent got' (f none))
    (hsome : ∀ h, h ∉ own → h ∉ lent → Turns (h :: own) lent got' (f (some h))) :
    Turns own lent got' (acquire >>= f) := by
  refine Turns.receive (acquire_turns _) (fun h hnew ↦ ?_)
  cases h with
  | none => exact hnone
  | some h =>
    obtain ⟨hown, hlent⟩ := hnew h (by simp)
    exact hsome h hown hlent

theorem pure_keeps (a : α) : Keeps lent (pure a : Code S α) :=
  @Turns.pure S α lent (fun _ ↦ []) a

theorem either_keeps : Keeps lent (either : Code S Bool) :=
  fun held hown hlent b ↦ pure_keeps b held hown hlent

theorem useAny_keeps {h : Option ℕ} (hlent : ∀ x ∈ h, x ∈ lent) :
    Keeps lent (useAny h : Code S Unit) := by
  cases h with
  | none => exact pure_keeps ()
  | some h => exact Turns.use (.inr (hlent h rfl)) (pure_keeps ())

def arrived {ε : Type} : Except ε (Option ℕ) → List ℕ
  | .error _ => []
  | .ok h => h.toList

theorem Turns.mono {lent' : List ℕ} (hc : Turns own lent got c) (hsub : lent ⊆ lent') :
    Turns own lent' got c := fun held hown hlent ↦ hc held hown (fun h hh ↦ hlent h (hsub hh))

theorem Keeps.discard (hc : Keeps lent c) : Keeps lent (discard c) :=
  Turns.keep hc (fun _ ↦ pure_keeps _)

theorem Keeps.each {body : ℕ → Code S Unit} (hbody : ∀ k, Keeps lent (body k)) (turns : ℕ) :
    Keeps lent (each body turns) := by
  induction turns with
  | zero => exact pure_keeps ()
  | succ turns ih => exact Turns.keep ih (fun _ ↦ hbody turns)

inductive Place (S : Type) (ι : Type u)
  | free
  | stored (q : S)
  | held (t : ι)
deriving DecidableEq

inductive Event
  | acquired (h : ℕ)
  | used (h : ℕ)
  | released (h : ℕ)
deriving DecidableEq

def Event.handle : Event → ℕ
  | .acquired h | .used h | .released h => h

/-- Threads at work: where each handle is, what each has still to do, and what was
done so far. -/
structure Crew (S : Type) (ι : Type u) where
  place : ℕ → Place S ι
  code : ι → Code S Unit
  log : List Event

def Live (log : List Event) (h : ℕ) : Prop :=
  log.count (.acquired h) = log.count (.released h) + 1

def Dead (log : List Event) (h : ℕ) : Prop :=
  log.count (.acquired h) = log.count (.released h)

/-- What may come behind a log: a handle is acquired when it is dead, and used and
released when it is live. -/
def Proper (log : List Event) : Event → Prop
  | .acquired h => Dead log h
  | .used h => Live log h
  | .released h => Live log h

theorem count_snoc {log : List Event} {e : Event} {h : ℕ} (hother : h ≠ e.handle) :
    (log ++ [e]).count (.acquired h) = log.count (.acquired h) ∧
      (log ++ [e]).count (.released h) = log.count (.released h) := by
  have hacquired : Event.acquired h ≠ e := fun heq ↦ hother (congrArg Event.handle heq)
  have hreleased : Event.released h ≠ e := fun heq ↦ hother (congrArg Event.handle heq)
  simp [List.count_append, hacquired.symm, hreleased.symm]

theorem live_snoc {log : List Event} {e : Event} {h : ℕ} (hother : h ≠ e.handle) :
    Live (log ++ [e]) h ↔ Live log h := by
  obtain ⟨hacquired, hreleased⟩ := @count_snoc log e h hother
  rw [Live, hacquired, hreleased, Live]

theorem dead_snoc {log : List Event} {e : Event} {h : ℕ} (hother : h ≠ e.handle) :
    Dead (log ++ [e]) h ↔ Dead log h := by
  obtain ⟨hacquired, hreleased⟩ := @count_snoc log e h hother
  rw [Dead, hacquired, hreleased, Dead]

def Orderly (log : List Event) : Prop :=
  ∀ before e after, log = before ++ e :: after → Proper before e

theorem Orderly.snoc {log : List Event} {e : Event} (hlog : Orderly log) (he : Proper log e) :
    Orderly (log ++ [e]) := by
  intro before e' after heq
  induction after using List.reverseRecOn with
  | nil =>
    obtain ⟨rfl, hsame⟩ := List.append_inj' heq rfl
    cases hsame
    exact he
  | append_singleton after last _ =>
    have hcut : log ++ [e] = (before ++ e' :: after) ++ [last] := by
      rw [heq, List.append_assoc]
      rfl
    exact hlog before e' after (List.append_inj' hcut rfl).1

section Crews

variable {ι : Type u} {place place' : ℕ → Place S ι} {code : ι → Code S Unit} {log : List Event}
  {s : Crew S ι}

def start (code : ι → Code S Unit) : Crew S ι := ⟨fun _ ↦ .free, code, []⟩

def Returned (s : Crew S ι) (t : ι) : Prop := s.code t = .ret ()

/-- The log is as it should be, and has the handles that are with somebody live and
the others dead. -/
structure Booked (place : ℕ → Place S ι) (log : List Event) : Prop where
  orderly : Orderly log
  live : ∀ h, place h ≠ .free → Live log h
  dead : ∀ h, place h = .free → Dead log h

def Sound (place : ℕ → Place S ι) (code : ι → Code S Unit) : Prop :=
  ∀ t, Safe (code t) {h | place h = .held t} (fun _ after ↦ after = ∅)

structure Disciplined (s : Crew S ι) : Prop where
  sound : Sound s.place s.code
  booked : Booked s.place s.log

theorem start_disciplined (hcode : ∀ t, Keeps [] (code t)) : Disciplined (start code) := by
  have hempty : Orderly [] := fun before e after heq ↦
    absurd (congrArg List.length heq) (by simp)
  refine ⟨fun t ↦ ?_, hempty, fun h hh ↦ absurd rfl hh, fun _ _ ↦ rfl⟩
  have hsafe := hcode t ∅ nofun nofun
  have hnone : {h | h ∈ ([] : List ℕ) ∨ h ∈ (∅ : Set ℕ)} = ∅ := by simp
  rw [hnone] at hsafe
  have hstart : {h | (start code).place h = .held t} = ∅ :=
    Set.eq_empty_of_forall_notMem (fun _ hh ↦ by cases hh)
  rw [hstart]
  exact hsafe.mono (fun _ _ hafter ↦ hafter.2.trans hnone)

theorem Booked.update (hbooked : Booked place log) {e : Event} {p : Place S ι}
    (hproper : Proper log e) (hlive : p ≠ .free → Live (log ++ [e]) e.handle)
    (hdead : p = .free → Dead (log ++ [e]) e.handle) :
    Booked (Function.update place e.handle p) (log ++ [e]) := by
  refine ⟨hbooked.orderly.snoc hproper, fun x hx ↦ ?_, fun x hx ↦ ?_⟩
  · by_cases hxh : x = e.handle
    · subst hxh
      rw [Function.update_self] at hx
      exact hlive hx
    · rw [Function.update_of_ne hxh] at hx
      exact (live_snoc hxh).mpr (hbooked.live x hx)
  · by_cases hxh : x = e.handle
    · subst hxh
      rw [Function.update_self] at hx
      exact hdead hx
    · rw [Function.update_of_ne hxh] at hx
      exact (dead_snoc hxh).mpr (hbooked.dead x hx)

theorem Booked.acquired (hbooked : Booked place log) {h : ℕ} (hfree : place h = .free)
    {p : Place S ι} (hp : p ≠ .free) :
    Booked (Function.update place h p) (log ++ [.acquired h]) := by
  have hproper : Proper log (.acquired h) := hbooked.dead h hfree
  have hlive : Live (log ++ [.acquired h]) h := by
    have hcount : log.count (.acquired h) = log.count (.released h) := hproper
    simpa [Live, List.count_append] using hcount
  exact hbooked.update hproper (fun _ ↦ hlive) (fun hgone ↦ absurd hgone hp)

theorem Booked.used (hbooked : Booked place log) {h : ℕ} (hheld : place h ≠ .free) :
    Booked place (log ++ [.used h]) := by
  have hproper : Proper log (.used h) := hbooked.live h hheld
  have hlive : Live (log ++ [.used h]) h := by
    have hcount : log.count (.acquired h) = log.count (.released h) + 1 := hproper
    simpa [Live, List.count_append] using hcount
  have hbooked' := hbooked.update hproper (fun _ ↦ hlive) (fun hgone ↦ absurd hgone hheld)
  rwa [Event.handle, Function.update_eq_self] at hbooked'

theorem Booked.released (hbooked : Booked place log) {h : ℕ} (hheld : place h ≠ .free) :
    Booked (Function.update place h .free) (log ++ [.released h]) := by
  have hproper : Proper log (.released h) := hbooked.live h hheld
  have hdead : Dead (log ++ [.released h]) h := by
    have hcount : log.count (.acquired h) = log.count (.released h) + 1 := hproper
    simpa [Dead, List.count_append] using hcount
  exact hbooked.update hproper (fun hgone ↦ absurd rfl hgone) (fun _ ↦ hdead)

theorem Booked.moved (hbooked : Booked place log) {h : ℕ} (hheld : place h ≠ .free)
    {p : Place S ι} (hp : p ≠ .free) : Booked (Function.update place h p) log := by
  refine ⟨hbooked.orderly, fun x hx ↦ ?_, fun x hx ↦ ?_⟩
  · by_cases hxh : x = h
    · exact hxh ▸ hbooked.live h hheld
    · rw [Function.update_of_ne hxh] at hx
      exact hbooked.live x hx
  · by_cases hxh : x = h
    · subst hxh
      rw [Function.update_self] at hx
      exact absurd hx hp
    · rw [Function.update_of_ne hxh] at hx
      exact hbooked.dead x hx

theorem held_insert (place : ℕ → Place S ι) (h : ℕ) (t : ι) :
    {x | Function.update place h (.held t) x = .held t} = insert h {x | place x = .held t} := by
  ext x
  by_cases hx : x = h
  · simp [hx]
  · simp [hx]

theorem held_remove (place : ℕ → Place S ι) (h : ℕ) (t : ι) {p : Place S ι} (hp : p ≠ .held t) :
    {x | Function.update place h p x = .held t} = {x | place x = .held t} \ {h} := by
  ext x
  by_cases hx : x = h
  · simp [hx, hp]
  · simp [hx]

variable [DecidableEq ι]

/-- A thread's move is sound when what comes next is, and it touched no handle of another. -/
theorem Sound.update (hsound : Sound place code) {t : ι} {next : Code S Unit}
    (hplace : ∀ u, u ≠ t → ∀ h, place' h = .held u ↔ place h = .held u)
    (hnext : Safe next {h | place' h = .held t} (fun _ after ↦ after = ∅)) :
    Sound place' (Function.update code t next) := by
  intro u
  by_cases hu : u = t
  · subst hu
    rw [Function.update_self]
    exact hnext
  · rw [Function.update_of_ne hu, Set.ext (hplace u hu)]
    exact hsound u

/-- The move of a handle that was no other thread's, and is not now. -/
theorem Sound.moved (hsound : Sound place code) {h : ℕ} {p : Place S ι} {t : ι} {next : Code S Unit}
    (hbefore : ∀ u, place h = .held u → u = t) (hafter : ∀ u, p = .held u → u = t)
    (hnext : Safe next {x | Function.update place h p x = .held t} (fun _ after ↦ after = ∅)) :
    Sound (Function.update place h p) (Function.update code t next) := by
  refine hsound.update (fun u hu x ↦ ?_) hnext
  by_cases hx : x = h
  · subst hx
    rw [Function.update_self]
    exact iff_of_false (fun heq ↦ hu (hafter u heq)) (fun heq ↦ hu (hbefore u heq))
  · rw [Function.update_of_ne hx]

variable [DecidableEq S]

/-- A thread does one thing; `n` settles where it branches and which handle it gets.
None is acquired that is with somebody or in a store. -/
def step (s : Crew S ι) (move : ι × ℕ) : Crew S ι :=
  let goOn (next : Code S Unit) := Function.update s.code move.1 next
  match s.code move.1 with
  | .ret _ => s
  | .acquire next =>
    match move.2 with
    | 0 => { s with code := goOn (next none) }
    | h + 1 =>
      if s.place h = .free then
        ⟨Function.update s.place h (.held move.1), goOn (next (some h)), s.log ++ [.acquired h]⟩
      else s
  | .use h next => { s with code := goOn next, log := s.log ++ [.used h] }
  | .release h next =>
    ⟨Function.update s.place h .free, goOn next, s.log ++ [.released h]⟩
  | .give q h next => { s with place := Function.update s.place h (.stored q), code := goOn next }
  | .decide next => { s with code := goOn (next (move.2 ≠ 0)) }
  | .index next => { s with code := goOn (next move.2) }

theorem step_disciplined (hs : Disciplined s) (move : ι × ℕ) : Disciplined (step s move) := by
  obtain ⟨t, n⟩ := move
  obtain ⟨hsound, hbooked⟩ := hs
  have ht := hsound t
  have hsame : ∀ u : ι, u ≠ t → ∀ h, s.place h = .held u ↔ s.place h = .held u :=
    fun _ _ _ ↦ Iff.rfl
  have hmine : ∀ u, (Place.held t : Place S ι) = .held u → u = t := fun u hu ↦ (Place.held.inj hu).symm
  unfold step
  dsimp only
  cases hcode : s.code t with
  | ret a => exact ⟨hsound, hbooked⟩
  | acquire next =>
    rw [hcode] at ht
    cases n with
    | zero => exact ⟨hsound.update hsame ht.1, hbooked⟩
    | succ h =>
      dsimp only
      split
      next hfree =>
        have hnew : h ∉ {x | s.place x = .held t} := fun hh ↦ by cases hfree.symm.trans hh
        refine ⟨hsound.moved (fun u hu ↦ ?_) hmine ?_, hbooked.acquired hfree nofun⟩
        · cases hfree.symm.trans hu
        · rw [held_insert]
          exact ht.2 h hnew
      · exact ⟨hsound, hbooked⟩
  | use h next =>
    rw [hcode] at ht
    have hheld : s.place h = .held t := ht.1
    exact ⟨hsound.update hsame ht.2, hbooked.used (by rw [hheld]; exact nofun)⟩
  | release h next =>
    rw [hcode] at ht
    have hheld : s.place h = .held t := ht.1
    refine ⟨hsound.moved (fun u hu ↦ hmine u (hheld.symm.trans hu)) nofun ?_,
      hbooked.released (by rw [hheld]; exact nofun)⟩
    have hgone : (Place.free : Place S ι) ≠ .held t := nofun
    rw [held_remove _ _ _ hgone]
    exact ht.2
  | give q h next =>
    rw [hcode] at ht
    have hheld : s.place h = .held t := ht.1
    refine ⟨hsound.moved (fun u hu ↦ hmine u (hheld.symm.trans hu)) nofun ?_,
      hbooked.moved (by rw [hheld]; exact nofun) nofun⟩
    have hgone : (Place.stored q : Place S ι) ≠ .held t := nofun
    rw [held_remove _ _ _ hgone]
    exact ht.2
  | decide next =>
    rw [hcode] at ht
    exact ⟨hsound.update hsame (ht _), hbooked⟩
  | index next =>
    rw [hcode] at ht
    exact ⟨hsound.update hsame (ht _), hbooked⟩

theorem run_disciplined (hcode : ∀ t, Keeps [] (code t)) (moves : List (ι × ℕ)) :
    Disciplined (Runs.run step (start code) moves) :=
  Runs.run_invariant (Q := Disciplined) (fun _ move hs ↦ step_disciplined hs move)
    (start_disciplined hcode) moves

omit [DecidableEq ι] [DecidableEq S] in
theorem Disciplined.returned (hs : Disciplined s) {t : ι} (ht : Returned s t) (h : ℕ) :
    s.place h ≠ .held t := by
  intro hh
  have hsafe := hs.sound t
  rw [show s.code t = .ret () from ht] at hsafe
  have hempty : {x | s.place x = .held t} = ∅ := hsafe
  exact Set.notMem_empty h (hempty ▸ hh)

omit [DecidableEq ι] [DecidableEq S] in
/-- When all have returned, what is in a store is all that is live. -/
theorem Disciplined.settled (hs : Disciplined s) (hall : ∀ t, Returned s t) (h : ℕ) :
    Live s.log h ↔ ∃ q, s.place h = .stored q := by
  constructor
  · intro hlive
    cases hplace : s.place h with
    | free =>
      have hdead := hs.booked.dead h hplace
      unfold Live at hlive
      unfold Dead at hdead
      omega
    | stored q => exact ⟨q, rfl⟩
    | held t => exact absurd hplace (hs.returned (hall t) h)
  · rintro ⟨q, hstored⟩
    exact hs.booked.live h (by rw [hstored]; exact nofun)

end Crews

end CChat.Library.Custody
