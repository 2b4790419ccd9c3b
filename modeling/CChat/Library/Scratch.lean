import Mathlib.Data.Vector.Basic
import Mathlib.Logic.Function.Basic

namespace CChat.Library.Scratch

variable {α ι ρ ρ' σ : Type} {Call : Type → Type} {n : ℕ}

structure Cell (α : Type) (n : ℕ) where
  content : List.Vector α n
  secret : Bool

def Cell.AllZero (z : α) (c : Cell α n) : Prop := ∀ a ∈ c.content.toList, a = z

def Cell.Wiped (z : α) (c : Cell α n) : Prop := c.secret = true → c.AllZero z

def Cell.store (c : Cell α n) (secret : Bool) (values : List α) : Cell α n :=
  ⟨⟨(values ++ c.content.toList.drop values.length).take n, by
    simp only [List.length_take, List.length_append, List.length_drop, List.Vector.toList_length]
    omega⟩, c.secret || secret⟩

def Cell.wipe (z : α) (c : Cell α n) : Cell α n := ⟨.replicate n z, c.secret⟩

/-- A function with local arrays. What the functions it calls come to is left
open; `loop` does not return. -/
inductive Prog (Call : Type → Type) (α ι ρ : Type) : Type 1
  | done (r : ρ)
  | loop
  | call {β : Type} (c : Call β) (next : β → Prog Call α ι ρ)
  | read (b : ι) (next : List α → Prog Call α ι ρ)
  | store (b : ι) (secret : Bool) (values : List α) (next : Prog Call α ι ρ)
  | wipe (b : ι) (next : Prog Call α ι ρ)

def Prog.bind : Prog Call α ι ρ → (ρ → Prog Call α ι ρ') → Prog Call α ι ρ'
  | .done r, f => f r
  | .loop, _ => .loop
  | .call c next, f => .call c (fun x ↦ (next x).bind f)
  | .read b next, f => .read b (fun values ↦ (next values).bind f)
  | .store b secret values next, f => .store b secret values (next.bind f)
  | .wipe b next, f => .wipe b (next.bind f)

instance : Monad (Prog Call α ι) where
  pure := .done
  bind := .bind

def invoke {β : Type} (c : Call β) : Prog Call α ι β := .call c .done

def get (b : ι) : Prog Call α ι (List α) := .read b .done

def put (b : ι) (values : List α) : Prog Call α ι Unit := .store b false values (.done ())

def putSecret (b : ι) (values : List α) : Prog Call α ι Unit := .store b true values (.done ())

def zero (b : ι) : Prog Call α ι Unit := .wipe b (.done ())

inductive Status
  | untouched
  | exposed
  | wiped
deriving DecidableEq

def Status.afterStore (secret : Bool) : Status → Status
  | .untouched => if secret then .exposed else .untouched
  | _ => .exposed

def Status.afterWipe : Status → Status
  | .untouched => .untouched
  | _ => .wiped

theorem afterStore_true (status : Status) : status.afterStore true = .exposed := by
  cases status <;> rfl

theorem afterWipe_ne_exposed (status : Status) : status.afterWipe ≠ .exposed := by
  cases status <;> exact nofun

def Exposes (bs : List ι) (t : ι → Status) : Prop := ∀ b, t b = .exposed → b ∈ bs

theorem Exposes.mono {bs bs' : List ι} {t : ι → Status} (h : Exposes bs t) (hsub : bs ⊆ bs') :
    Exposes bs' t :=
  fun b hb ↦ hsub (h b hb)

theorem exposes_untouched (bs : List ι) : Exposes bs (fun _ : ι ↦ Status.untouched) := nofun

section Paths

variable [DecidableEq ι]

/-- On every path, whatever the called functions come to and the arrays hold,
the function ends in a result and statuses with `Q`. -/
def Prog.Leaves (Q : ρ → (ι → Status) → Prop) : (ι → Status) → Prog Call α ι ρ → Prop
  | t, .done r => Q r t
  | _, .loop => True
  | t, .call _ next => ∀ x, (next x).Leaves Q t
  | t, .read _ next => ∀ values, (next values).Leaves Q t
  | t, .store b secret _ next => next.Leaves Q (Function.update t b ((t b).afterStore secret))
  | t, .wipe b next => next.Leaves Q (Function.update t b (t b).afterWipe)

variable {Q Q' : ρ → (ι → Status) → Prop} {t : ι → Status}

theorem Prog.Leaves.mono {p : Prog Call α ι ρ} (hp : p.Leaves Q t) (h : ∀ r t', Q r t' → Q' r t') :
    p.Leaves Q' t := by
  induction p generalizing t with
  | done r => exact h r t hp
  | loop => exact trivial
  | call c next ih => exact fun x ↦ ih x (hp x)
  | read b next ih => exact fun values ↦ ih values (hp values)
  | store b secret values next ih => exact ih hp
  | wipe b next ih => exact ih hp

theorem leaves_bind {p : Prog Call α ι ρ'} {f : ρ' → Prog Call α ι ρ}
    (h : p.Leaves (fun r t' ↦ (f r).Leaves Q t') t) : (p >>= f).Leaves Q t := by
  show (p.bind f).Leaves Q t
  induction p generalizing t with
  | done r => exact h
  | loop => exact trivial
  | call c next ih => exact fun x ↦ ih x (h x)
  | read b next ih => exact fun values ↦ ih values (h values)
  | store b secret values next ih => exact ih h
  | wipe b next ih => exact ih h

theorem Exposes.store {bs : List ι} (h : Exposes bs t) (b : ι) (status : Status) :
    Exposes (b :: bs) (Function.update t b status) := by
  intro b' hb'
  by_cases hb : b' = b
  · exact hb ▸ List.mem_cons_self
  · rw [Function.update_of_ne hb] at hb'
    exact List.mem_cons_of_mem b (h b' hb')

theorem Exposes.wipe {bs : List ι} {b : ι} (h : Exposes (b :: bs) t) :
    Exposes bs (Function.update t b (t b).afterWipe) := by
  intro b' hb'
  by_cases hb : b' = b
  · subst hb
    rw [Function.update_self] at hb'
    exact absurd hb' (afterWipe_ne_exposed _)
  · rw [Function.update_of_ne hb] at hb'
    exact List.mem_of_ne_of_mem hb (h b' hb')

theorem Exposes.wipeAny {bs : List ι} (h : Exposes bs t) (b : ι) :
    Exposes bs (Function.update t b (t b).afterWipe) :=
  (h.mono (List.subset_cons_self b bs)).wipe

/-- What is stored without a secret in an array that no secret was written to is
not followed. -/
theorem update_afterStore_false {b : ι} (h : t b = .untouched) :
    Function.update t b ((t b).afterStore false) = t := by
  have hstore : (t b).afterStore false = t b := by
    rw [h]
    rfl
  rw [hstore, Function.update_eq_self]

theorem leaves_call {β : Type} {c : Call β} {f : β → Prog Call α ι ρ}
    (h : ∀ x, (f x).Leaves Q t) : (invoke c >>= f).Leaves Q t := h

theorem leaves_get {b : ι} {f : List α → Prog Call α ι ρ} (h : ∀ values, (f values).Leaves Q t) :
    (get b >>= f).Leaves Q t := h

theorem leaves_put {b : ι} {values : List α} {f : Unit → Prog Call α ι ρ} (hb : t b = .untouched)
    (h : (f ()).Leaves Q t) : (put b values >>= f).Leaves Q t := by
  show (f ()).Leaves Q (Function.update t b ((t b).afterStore false))
  rw [update_afterStore_false hb]
  exact h

theorem leaves_putSecret {b : ι} {values : List α} {f : Unit → Prog Call α ι ρ}
    (h : (f ()).Leaves Q (Function.update t b .exposed)) :
    (putSecret b values >>= f).Leaves Q t := by
  show (f ()).Leaves Q (Function.update t b ((t b).afterStore true))
  rw [afterStore_true]
  exact h

theorem leaves_zero {b : ι} {f : Unit → Prog Call α ι ρ}
    (h : (f ()).Leaves Q (Function.update t b (t b).afterWipe)) : (zero b >>= f).Leaves Q t := h

end Paths

section Running

variable [DecidableEq ι] {size : ι → ℕ} (z : α)

structure Ending (ρ σ : Type) (α : Type) (size : ι → ℕ) where
  result : ρ
  state : σ
  memory : ∀ b, Cell α (size b)

/-- A run, with the functions it calls as `handle` has them: each may also not
return, and then the run does not end. -/
def Prog.run (handle : ∀ β, Call β → σ → Option (β × σ)) :
    Prog Call α ι ρ → σ → (∀ b, Cell α (size b)) → Option (Ending ρ σ α size)
  | .done r, s, m => some ⟨r, s, m⟩
  | .loop, _, _ => none
  | .call c next, s, m => (handle _ c s).bind fun out ↦ (next out.1).run handle out.2 m
  | .read b next, s, m => (next (m b).content.toList).run handle s m
  | .store b secret values next, s, m =>
    next.run handle s (Function.update m b ((m b).store secret values))
  | .wipe b next, s, m => next.run handle s (Function.update m b ((m b).wipe z))

section Equations

variable {handle : ∀ β, Call β → σ → Option (β × σ)} {s : σ} {m : ∀ b, Cell α (size b)} {b : ι}

theorem run_call {β : Type} (c : Call β) (f : β → Prog Call α ι ρ) :
    (invoke c >>= f).run z handle s m =
      (handle β c s).bind fun out ↦ (f out.1).run z handle out.2 m := rfl

theorem run_get (f : List α → Prog Call α ι ρ) :
    (get b >>= f).run z handle s m = (f (m b).content.toList).run z handle s m := rfl

theorem run_put (values : List α) (f : Unit → Prog Call α ι ρ) :
    (put b values >>= f).run z handle s m =
      (f ()).run z handle s (Function.update m b ((m b).store false values)) := rfl

theorem run_putSecret (values : List α) (f : Unit → Prog Call α ι ρ) :
    (putSecret b values >>= f).run z handle s m =
      (f ()).run z handle s (Function.update m b ((m b).store true values)) := rfl

theorem run_zero (f : Unit → Prog Call α ι ρ) :
    (zero b >>= f).run z handle s m =
      (f ()).run z handle s (Function.update m b ((m b).wipe z)) := rfl

theorem run_bind (p : Prog Call α ι ρ') (f : ρ' → Prog Call α ι ρ) :
    (p >>= f).run z handle s m =
      (p.run z handle s m).bind fun e ↦ (f e.result).run z handle e.state e.memory := by
  show (p.bind f).run z handle s m = _
  induction p generalizing s m with
  | done r => rfl
  | loop => rfl
  | call c next ih =>
    show (handle _ c s).bind (fun out ↦ ((next out.1).bind f).run z handle out.2 m) =
      ((handle _ c s).bind _).bind _
    rw [Option.bind_assoc]
    exact congrArg _ (funext fun out ↦ ih out.1)
  | read b next ih => exact ih _
  | store b secret values next ih => exact ih
  | wipe b next ih => exact ih

theorem store_content {c : Cell α n} (secret : Bool) {values : List α} (h : values.length = n) :
    (c.store secret values).content.toList = values := by
  show (values ++ _).take n = values
  rw [List.take_left' h]

end Equations

def Status.Describes : Status → Cell α n → Prop
  | .untouched, c => c.secret = false
  | .exposed, _ => True
  | .wiped, c => c.AllZero z

variable {Q Q' : ρ → (ι → Status) → Prop} {t : ι → Status} {m : ∀ b, Cell α (size b)} {b : ι}
  {handle : ∀ β, Call β → σ → Option (β × σ)} {s : σ}

theorem store_describes {status : Status} {c : Cell α n} (h : status.Describes z c) (secret : Bool)
    (values : List α) : (status.afterStore secret).Describes z (c.store secret values) := by
  cases status with
  | untouched =>
    cases secret with
    | false => exact (Bool.or_false _).trans h
    | true => exact trivial
  | exposed => exact trivial
  | wiped => exact trivial

theorem wipe_allZero (c : Cell α n) : (c.wipe z).AllZero z := by
  intro a ha
  have hreplicate : a ∈ List.replicate n z := ha
  exact List.eq_of_mem_replicate hreplicate

theorem wipe_describes {status : Status} {c : Cell α n} (h : status.Describes z c) :
    status.afterWipe.Describes z (c.wipe z) := by
  cases status with
  | untouched => exact h
  | exposed => exact wipe_allZero z c
  | wiped => exact wipe_allZero z c

def Agree (t : ι → Status) (m : ∀ b, Cell α (size b)) : Prop :=
  ∀ b, (t b).Describes z (m b)

theorem Agree.update (h : Agree z t m) {status : Status} {c : Cell α (size b)}
    (hc : status.Describes z c) :
    Agree z (Function.update t b status) (Function.update m b c) := by
  intro b'
  by_cases hb : b' = b
  · subst hb
    rw [Function.update_self, Function.update_self]
    exact hc
  · rw [Function.update_of_ne hb, Function.update_of_ne hb]
    exact h b'

theorem run_leaves {p : Prog Call α ι ρ} (hp : p.Leaves Q t) (h : Agree z t m)
    {e : Ending ρ σ α size} (he : p.run z handle s m = some e) :
    ∃ t', Q e.result t' ∧ Agree z t' e.memory := by
  induction p generalizing t s m with
  | done r =>
    obtain rfl := Option.some.inj he
    exact ⟨t, hp, h⟩
  | loop => cases he
  | call c next ih =>
    obtain ⟨out, _, he⟩ := Option.bind_eq_some_iff.mp he
    exact ih out.1 (hp out.1) h he
  | read b next ih => exact ih _ (hp _) h he
  | store b secret values next ih =>
    exact ih hp (h.update z (store_describes z (h b) secret values)) he
  | wipe b next ih => exact ih hp (h.update z (wipe_describes z (h b))) he

def Prog.Wipes (p : Prog Call α ι ρ) (size : ι → ℕ) (b : ι) : Prop :=
  ∀ (σ : Type) (handle : ∀ β, Call β → σ → Option (β × σ)) (s : σ) (m : ∀ b, Cell α (size b))
    (e : Ending ρ σ α size), (∀ b, (m b).secret = false) → p.run z handle s m = some e →
      (e.memory b).Wiped z

theorem wiped_of_describes {status : Status} {c : Cell α n} (h : status.Describes z c)
    (hne : status ≠ .exposed) : c.Wiped z := by
  cases status with
  | untouched => exact fun hsecret ↦ Bool.noConfusion (h.symm.trans hsecret)
  | exposed => exact absurd rfl hne
  | wiped => exact fun _ ↦ h

theorem wipes_of_leaves {p : Prog Call α ι ρ} {bs : List ι} {b : ι} (hb : b ∉ bs)
    (hp : p.Leaves (fun _ t ↦ Exposes bs t) (fun _ ↦ .untouched)) (size : ι → ℕ) :
    p.Wipes z size b := by
  intro σ handle s m e hm he
  obtain ⟨t, hexposes, hagree⟩ := run_leaves z hp hm he
  exact wiped_of_describes z (hagree b) (fun hexposed ↦ hb (hexposes b hexposed))

end Running

end CChat.Library.Scratch
