import Mathlib.Data.List.TakeWhile

namespace CChat.Library.Getopt

variable {β : Type*} [DecidableEq β]

structure LongOption (β : Type*) where
  name : List β
  takesArgument : Bool
  code : β
deriving DecidableEq

/-- The options of a program: the two characters of the syntax, the short
options with whether they take an argument, and the long ones. -/
structure Table (β : Type*) where
  dash : β
  equals : β
  short : List (β × Bool)
  long : List (LongOption β)

/-- What one call of `getopt_long` reports. -/
inductive Event (β : Type*)
  | option (code : β) (argument : Option (List β))
  | unknown
deriving DecidableEq

inductive Element (β : Type*)
  | operand
  | stop
  | options (events : List (Event β)) (wants : Option β)
deriving DecidableEq

variable (t : Table β)

def Table.shortOption (c : β) : Option Bool := (t.short.find? (fun o ↦ o.1 = c)).map Prod.snd

def Table.longOption (name : List β) : Option (LongOption β) :=
  match t.long.find? (fun o ↦ o.name = name) with
  | some o => some o
  | none =>
    match t.long.filter (fun o ↦ name.isPrefixOf o.name) with
    | [] => none
    | o :: others =>
      if ∀ o' ∈ others, o'.takesArgument = o.takesArgument ∧ o'.code = o.code then some o else none

def Table.cluster : List β → List (Event β) × Option β
  | [] => ([], none)
  | c :: cs =>
    match t.shortOption c with
    | none => (.unknown :: (cluster cs).1, (cluster cs).2)
    | some false => (.option c none :: (cluster cs).1, (cluster cs).2)
    | some true => if cs = [] then ([], some c) else ([.option c (some cs)], none)

def Table.named (body : List β) : List (Event β) × Option β :=
  let name := body.takeWhile (· ≠ t.equals)
  match t.longOption name with
  | none => ([.unknown], none)
  | some o =>
    match body.drop name.length with
    | [] => if o.takesArgument then ([], some o.code) else ([.option o.code none], none)
    | _ :: value =>
      if o.takesArgument then ([.option o.code (some value)], none) else ([.unknown], none)

def Table.element (a : List β) : Element β :=
  match a with
  | [] => .operand
  | [_] => .operand
  | c :: c' :: cs =>
    if c ≠ t.dash then .operand
    else if c' ≠ t.dash then .options (t.cluster (c' :: cs)).1 (t.cluster (c' :: cs)).2
    else if cs = [] then .stop
    else .options (t.named cs).1 (t.named cs).2

/-- The calls of `getopt_long` up to the one that returns `-1`, for the elements
behind the program's name. Operands are passed over, unless the program is to
stop at them; an option that wants an argument has the next element for it,
whatever it looks like. -/
def Table.events (strict : Bool) : Option β → List (List β) → List (Event β)
  | some _, [] => [.unknown]
  | some c, a :: rest => .option c (some a) :: events strict none rest
  | none, [] => []
  | none, a :: rest =>
    match t.element a with
    | .operand => if strict then [] else events strict none rest
    | .stop => []
    | .options es wants => es ++ events strict wants rest

def Table.Consistent : Prop := ∀ o ∈ t.long, t.shortOption o.code = some o.takesArgument

instance : Decidable t.Consistent := inferInstanceAs (Decidable (∀ o ∈ t.long, _ = _))

def Table.Formed : Event β → Prop
  | .option code argument => t.shortOption code = some argument.isSome
  | .unknown => True

def Event.argument : Event β → Option (List β)
  | .option _ argument => argument
  | .unknown => none

variable {t}

theorem longOption_mem {name : List β} {o : LongOption β} (h : t.longOption name = some o) :
    o ∈ t.long := by
  unfold Table.longOption at h
  split at h
  next hfind =>
    cases h
    exact List.mem_of_find?_eq_some hfind
  · split at h
    · cases h
    next hfilter =>
      obtain ⟨_, ho⟩ := Option.ite_none_right_eq_some.mp h
      obtain rfl := Option.some.inj ho
      exact (List.mem_filter.mp (hfilter ▸ List.mem_cons_self)).1

theorem cluster_formed (cs : List β) :
    (∀ e ∈ (t.cluster cs).1, t.Formed e) ∧ ∀ c ∈ (t.cluster cs).2, t.shortOption c = some true := by
  induction cs with
  | nil => simp [Table.cluster]
  | cons c cs ih =>
    rw [Table.cluster]
    split
    · exact ⟨List.forall_mem_cons.mpr ⟨trivial, ih.1⟩, ih.2⟩
    next hshort => exact ⟨List.forall_mem_cons.mpr ⟨hshort, ih.1⟩, ih.2⟩
    next hshort =>
      split
      · exact ⟨nofun, by rintro _ ⟨⟩; exact hshort⟩
      · exact ⟨List.forall_mem_singleton.mpr hshort, nofun⟩

theorem named_formed (ht : t.Consistent) (body : List β) :
    (∀ e ∈ (t.named body).1, t.Formed e) ∧ ∀ c ∈ (t.named body).2, t.shortOption c = some true := by
  unfold Table.named
  dsimp only
  split
  · exact ⟨List.forall_mem_singleton.mpr trivial, nofun⟩
  next o hlong =>
    have hshort := ht o (longOption_mem hlong)
    cases htakes : o.takesArgument with
    | true =>
      rw [htakes] at hshort
      split
      · exact ⟨nofun, by rintro _ ⟨⟩; exact hshort⟩
      · exact ⟨List.forall_mem_singleton.mpr hshort, nofun⟩
    | false =>
      rw [htakes] at hshort
      split
      · exact ⟨List.forall_mem_singleton.mpr hshort, nofun⟩
      · exact ⟨List.forall_mem_singleton.mpr trivial, nofun⟩

theorem element_formed (ht : t.Consistent) {a : List β} {es : List (Event β)} {wants : Option β}
    (h : t.element a = .options es wants) :
    (∀ e ∈ es, t.Formed e) ∧ ∀ c ∈ wants, t.shortOption c = some true := by
  unfold Table.element at h
  split at h
  · cases h
  · cases h
  next c c' cs =>
    split_ifs at h
    · cases h
      exact cluster_formed (c' :: cs)
    · cases h
      exact named_formed ht cs

theorem events_formed (ht : t.Consistent) (strict : Bool) {wants : Option β}
    (hwants : ∀ c ∈ wants, t.shortOption c = some true) (args : List (List β)) :
    ∀ e ∈ t.events strict wants args, t.Formed e := by
  induction args generalizing wants with
  | nil =>
    cases wants with
    | none => exact nofun
    | some c => exact List.forall_mem_singleton.mpr trivial
  | cons a rest ih =>
    cases wants with
    | some c =>
      rw [Table.events]
      exact List.forall_mem_cons.mpr ⟨hwants c rfl, ih nofun⟩
    | none =>
      rw [Table.events]
      split
      · split
        · exact nofun
        · exact ih nofun
      · exact nofun
      next es wants helement =>
        obtain ⟨hes, hwants'⟩ := element_formed ht helement
        exact List.forall_mem_append.mpr ⟨hes, ih hwants'⟩

omit [DecidableEq β] in
def Event.From (a : List β) (e : Event β) : Prop := ∀ v ∈ e.argument, v <:+ a

theorem cluster_from (cs : List β) : ∀ e ∈ (t.cluster cs).1, e.From cs := by
  induction cs with
  | nil => simp [Table.cluster]
  | cons c cs ih =>
    have hlater : ∀ e ∈ (t.cluster cs).1, e.From (c :: cs) :=
      fun e he v hv ↦ (ih e he v hv).trans (List.suffix_cons c cs)
    rw [Table.cluster]
    split
    · exact List.forall_mem_cons.mpr ⟨nofun, hlater⟩
    · exact List.forall_mem_cons.mpr ⟨nofun, hlater⟩
    · split
      · exact nofun
      · refine List.forall_mem_singleton.mpr ?_
        rintro v ⟨⟩
        exact List.suffix_cons c cs

theorem named_from (body : List β) : ∀ e ∈ (t.named body).1, e.From body := by
  unfold Table.named
  dsimp only
  split
  · exact List.forall_mem_singleton.mpr nofun
  · split
    · split
      · exact nofun
      · exact List.forall_mem_singleton.mpr nofun
    next b value hdrop =>
      split
      · refine List.forall_mem_singleton.mpr ?_
        rintro v ⟨⟩
        exact (List.suffix_cons b _).trans (hdrop ▸ List.drop_suffix _ _)
      · exact List.forall_mem_singleton.mpr nofun

theorem element_from {a : List β} {es : List (Event β)} {wants : Option β}
    (h : t.element a = .options es wants) : ∀ e ∈ es, e.From a := by
  unfold Table.element at h
  split at h
  · cases h
  · cases h
  next c c' cs =>
    have hbehind : cs <:+ c :: c' :: cs := (List.suffix_cons c' cs).trans (List.suffix_cons c _)
    split_ifs at h
    · cases h
      exact fun e he v hv ↦ (cluster_from (c' :: cs) e he v hv).trans (List.suffix_cons c _)
    · cases h
      exact fun e he v hv ↦ (named_from cs e he v hv).trans hbehind

theorem events_from (strict : Bool) (wants : Option β) (args : List (List β)) :
    ∀ e ∈ t.events strict wants args, ∀ v ∈ e.argument, ∃ a ∈ args, v <:+ a := by
  induction args generalizing wants with
  | nil =>
    cases wants with
    | none => exact nofun
    | some c => exact List.forall_mem_singleton.mpr nofun
  | cons a rest ih =>
    have hlater : ∀ wants, ∀ e ∈ t.events strict wants rest, ∀ v ∈ e.argument,
        ∃ b ∈ a :: rest, v <:+ b := by
      intro wants e he v hv
      obtain ⟨b, hb, hsuffix⟩ := ih wants e he v hv
      exact ⟨b, List.mem_cons_of_mem a hb, hsuffix⟩
    cases wants with
    | some c =>
      rw [Table.events]
      refine List.forall_mem_cons.mpr ⟨?_, hlater none⟩
      rintro v ⟨⟩
      exact ⟨a, List.mem_cons_self, List.suffix_rfl⟩
    | none =>
      rw [Table.events]
      split
      · split
        · exact nofun
        · exact hlater none
      · exact nofun
      next es wants helement =>
        refine List.forall_mem_append.mpr ⟨fun e he v hv ↦ ?_, hlater wants⟩
        exact ⟨a, List.mem_cons_self, element_from helement e he v hv⟩

end CChat.Library.Getopt
