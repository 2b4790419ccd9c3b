import CChat.Library.Getopt
import CChat.Client.Registration

namespace CChat.Client.CommandLine

open CChat.Library.Getopt CChat.Protocol.Types Network Crypto Registration

structure Argument where
  bytes : Bytes
  no_nul : 0 ∉ bytes

def options : Table UInt8 where
  dash := 0x2D
  equals := 0x3D
  short := [(0x72, true), (0x6C, true), (0x75, false), (0x68, false), (0x76, false)]
  long := [⟨text "register", true, 0x72⟩, ⟨text "login", true, 0x6C⟩,
    ⟨text "list-users", false, 0x75⟩, ⟨text "help", false, 0x68⟩, ⟨text "version", false, 0x76⟩]

/-- `safe_strncpy` into an array for a username; without a source nothing is copied. -/
def safeStrncpy (dest : Username) (src : Option Bytes) : Username := src.elim dest Username.ofBytes

structure Modes where
  username : Username
  registerMode : Bool
  loginMode : Bool
  listMode : Bool

def Modes.initial : Modes := ⟨Username.empty, false, false, false⟩

inductive Parsed
  | returns (result : CchatError)
  | go (m : Modes)

def optionCase (m : Modes) : Event UInt8 → Parsed
  | .option opt optarg =>
    if opt = 0x72 then
      .go { m with registerMode := true, username := safeStrncpy m.username optarg }
    else if opt = 0x6C then
      .go { m with loginMode := true, username := safeStrncpy m.username optarg }
    else if opt = 0x75 then .go { m with listMode := true }
    else if opt = 0x68 then .returns .success
    else if opt = 0x76 then .returns .success
    else .returns .invalidArgs
  | .unknown => .returns .invalidArgs

def parseOptions (m : Modes) : List (Event UInt8) → Parsed
  | [] => .go m
  | e :: rest =>
    match optionCase m e with
    | .returns result => .returns result
    | .go m' => parseOptions m' rest

/-- What `main` goes on to, or what it returns before. -/
inductive Command
  | returns (result : CchatError)
  | registerUser (username : Bytes)
  | loginUser (username : Bytes)
  | listUsers
deriving DecidableEq

def execute (m : Modes) : Command :=
  if m.registerMode then
    if validateUsername m.username.bytes ≠ .success then .returns .invalidArgs
    else .registerUser m.username.bytes
  else if m.loginMode then
    if validateUsername m.username.bytes ≠ .success then .returns .invalidArgs
    else .loginUser m.username.bytes
  else if m.listMode then .listUsers
  else .returns .invalidArgs

/-- The reports of `getopt_long`; the flag is whether `POSIXLY_CORRECT` is set. -/
def reports (posixlyCorrect : Bool) (argv : List Argument) : List (Event UInt8) :=
  options.events posixlyCorrect none ((argv.drop 1).map Argument.bytes)

def main (sodium : Sodium) (posixlyCorrect : Bool) (argv : List Argument) : Command :=
  let ready := initCryptoLibrary sodium false
  if ready.1 ≠ .success then .returns ready.1
  else
    match parseOptions Modes.initial (reports posixlyCorrect argv) with
    | .returns result => .returns result
    | .go m => execute m

def nameFor (opts : List UInt8) : Event UInt8 → Option Bytes
  | .option opt optarg => if opt ∈ opts then optarg else none
  | .unknown => none

def given (opts : List UInt8) (es : List (Event UInt8)) : List Bytes := es.filterMap (nameFor opts)

def lastName (es : List (Event UInt8)) : Option Bytes := (given [0x72, 0x6C] es).getLast?

/-- The command is carried out for a name that was given for it, and not when
the name in force is not valid. -/
structure ActsOnName (es : List (Event UInt8)) (command : Command) : Prop where
  registers : ∀ username, command = .registerUser username → username ∈ given [0x72] es
  logsIn : ∀ username, command = .loginUser username → username ∈ given [0x6C] es
  rejects : ∀ name ∈ lastName es, validateUsername name ≠ .success →
    ∀ username, command ≠ .registerUser username ∧ command ≠ .loginUser username

def GoesOn (e : Event UInt8) : Prop :=
  match e with
  | .option opt _ => opt = 0x72 ∨ opt = 0x6C ∨ opt = 0x75
  | .unknown => False

def Proceeds (sodium : Sodium) (es : List (Event UInt8)) : Prop :=
  (initCryptoLibrary sodium false).1 = .success ∧ ∀ e ∈ es, GoesOn e

/-- The name in force is not cut, or to one that is not valid, and where
anything is to be registered it is what is to be. -/
def NameKept (es : List (Event UInt8)) : Prop :=
  ∀ name ∈ lastName es, validateUsername (name.take (maxUsernameLen - 1)) = .success →
    name.length < maxUsernameLen ∧ (given [0x72] es ≠ [] → name ∈ given [0x72] es)

variable {sodium : Sodium} {posixlyCorrect : Bool} {argv : List Argument}
  {es : List (Event UInt8)} {m : Modes}

theorem options_consistent : options.Consistent := by decide

theorem reports_formed (posixlyCorrect : Bool) (argv : List Argument) :
    ∀ e ∈ reports posixlyCorrect argv, options.Formed e :=
  events_formed options_consistent posixlyCorrect (by simp) _

theorem reports_no_nul {e : Event UInt8} (he : e ∈ reports posixlyCorrect argv) :
    ∀ name ∈ e.argument, 0 ∉ name := by
  intro name hname hnul
  obtain ⟨a, ha, hsuffix⟩ := events_from posixlyCorrect none _ e he name hname
  obtain ⟨b, _, rfl⟩ := List.mem_map.mp ha
  exact b.no_nul (hsuffix.subset hnul)

theorem mem_given {opts : List UInt8} {name : Bytes} :
    name ∈ given opts es ↔ ∃ opt ∈ opts, .option opt (some name) ∈ es := by
  unfold given
  rw [List.mem_filterMap]
  constructor
  · rintro ⟨e, he, hname⟩
    cases e with
    | unknown => cases hname
    | option opt optarg =>
      obtain ⟨hopt, rfl⟩ := Option.ite_none_right_eq_some.mp hname
      exact ⟨opt, hopt, he⟩
  · rintro ⟨opt, hopt, he⟩
    exact ⟨_, he, if_pos hopt⟩

theorem given_both {name : Bytes} :
    name ∈ given [0x72, 0x6C] es ↔ name ∈ given [0x72] es ∨ name ∈ given [0x6C] es := by
  simp only [mem_given, List.mem_cons, List.not_mem_nil, or_false, exists_eq_or_imp, exists_eq_left]

theorem given_cons (opts : List UInt8) (e : Event UInt8) (es : List (Event UInt8)) :
    given opts (e :: es) = (nameFor opts e).toList ++ given opts es := by
  unfold given
  cases hname : nameFor opts e with
  | none => rw [List.filterMap_cons_none hname]; rfl
  | some name => rw [List.filterMap_cons_some hname]; rfl

/-- What the options leave for `main`. -/
structure Sets (m : Modes) (es : List (Event UInt8)) (m' : Modes) : Prop where
  username : m'.username = (lastName es).elim m.username Username.ofBytes
  registerMode : m'.registerMode = true ↔ m.registerMode = true ∨ given [0x72] es ≠ []
  loginMode : m'.loginMode = true ↔ m.loginMode = true ∨ given [0x6C] es ≠ []

theorem getLast_elim {α γ : Type*} (names : List α) (name : α) (d : γ) (f : α → γ) :
    (name :: names).getLast?.elim d f = names.getLast?.elim (f name) f := by
  rw [List.getLast?_cons]
  cases names.getLast? <;> rfl

/-- A case of the `switch` that goes on notes the option and its name. -/
theorem optionCase_goes {e : Event UInt8} (hformed : options.Formed e) (hgoes : GoesOn e) :
    ∃ m', optionCase m e = .go m' ∧
      m'.username = (nameFor [0x72, 0x6C] e).elim m.username Username.ofBytes ∧
      (m'.registerMode = true ↔ m.registerMode = true ∨ nameFor [0x72] e ≠ none) ∧
      (m'.loginMode = true ↔ m.loginMode = true ∨ nameFor [0x6C] e ≠ none) := by
  cases e with
  | unknown => exact hgoes.elim
  | option opt optarg =>
    obtain rfl | rfl | rfl := hgoes
    · cases optarg with
      | none => cases hformed
      | some name => exact ⟨_, rfl, rfl, by simp [nameFor], by simp [nameFor]⟩
    · cases optarg with
      | none => cases hformed
      | some name => exact ⟨_, rfl, rfl, by simp [nameFor], by simp [nameFor]⟩
    · exact ⟨_, rfl, rfl, by simp [nameFor], by simp [nameFor]⟩

theorem given_cons_ne_nil (opts : List UInt8) (e : Event UInt8) (es : List (Event UInt8)) :
    given opts (e :: es) ≠ [] ↔ nameFor opts e ≠ none ∨ given opts es ≠ [] := by
  rw [given_cons]
  cases nameFor opts e <;> simp

theorem parseOptions_goes (hformed : ∀ e ∈ es, options.Formed e) (hgoes : ∀ e ∈ es, GoesOn e) :
    ∃ m', parseOptions m es = .go m' ∧ Sets m es m' := by
  induction es generalizing m with
  | nil => exact ⟨m, rfl, rfl, by simp [given], by simp [given]⟩
  | cons e es ih =>
    obtain ⟨he, hformed⟩ := List.forall_mem_cons.mp hformed
    obtain ⟨hgo, hgoes⟩ := List.forall_mem_cons.mp hgoes
    obtain ⟨m₁, hcase, hname, hregister, hlogin⟩ := optionCase_goes (m := m) he hgo
    obtain ⟨m', hparse, husername', hregister', hlogin'⟩ := ih (m := m₁) hformed hgoes
    refine ⟨m', by rw [parseOptions, hcase]; exact hparse, ?_, ?_, ?_⟩
    · rw [husername', hname, lastName, lastName, given_cons]
      cases nameFor [0x72, 0x6C] e with
      | none => rfl
      | some name => exact (getLast_elim _ name m.username Username.ofBytes).symm
    · rw [hregister', hregister, given_cons_ne_nil, or_assoc]
    · rw [hlogin', hlogin, given_cons_ne_nil, or_assoc]

theorem parseOptions_returns (h : ¬ ∀ e ∈ es, GoesOn e) :
    ∃ result, parseOptions m es = .returns result := by
  induction es generalizing m with
  | nil => exact absurd nofun h
  | cons e es ih =>
    rw [parseOptions]
    cases hcase : optionCase m e with
    | returns result => exact ⟨result, rfl⟩
    | go m' =>
      refine ih fun hes ↦ h (List.forall_mem_cons.mpr ⟨?_, hes⟩)
      cases e with
      | unknown => cases hcase
      | option opt optarg =>
        by_contra hstop
        unfold GoesOn at hstop
        rw [not_or, not_or] at hstop
        rw [optionCase, if_neg hstop.1, if_neg hstop.2.1, if_neg hstop.2.2] at hcase
        split_ifs at hcase

theorem validateUsername_short {username : Bytes} (h : validateUsername username = .success) :
    username.length < maxUsernameLen := by
  unfold validateUsername at h
  split at h
  · cases h
  next hlength => exact Nat.lt_of_not_le fun hlong ↦ hlength (.inr hlong)

/-- `safe_strncpy` cuts a name to what the array can hold. -/
theorem ofBytes_cut {name : Bytes} (h : 0 ∉ name) :
    (Username.ofBytes name).bytes = name.take (maxUsernameLen - 1) := by
  have hplain : name.takeWhile (· ≠ 0) = name :=
    List.takeWhile_eq_self_iff.mpr fun b hb ↦ decide_eq_true (by rintro rfl; exact h hb)
  change (name.takeWhile (· ≠ 0)).take (maxUsernameLen - 1) = _
  rw [hplain]

theorem execute_invalid (h : validateUsername m.username.bytes ≠ .success) (username : Bytes) :
    execute m ≠ .registerUser username ∧ execute m ≠ .loginUser username := by
  unfold execute
  rw [if_pos h, if_pos h]
  split_ifs <;> exact ⟨nofun, nofun⟩

theorem ActsOnName.of_none {command : Command}
    (h : ∀ username, command ≠ .registerUser username ∧ command ≠ .loginUser username) :
    ActsOnName es command :=
  ⟨fun username hc ↦ absurd hc (h username).1, fun username hc ↦ absurd hc (h username).2,
    fun _ _ _ ↦ h⟩

/-- Without a name there is nothing to register and no one to log in. -/
theorem execute_nameless (hsets : Sets Modes.initial es m) (hlast : lastName es = none)
    (username : Bytes) : execute m ≠ .registerUser username ∧ execute m ≠ .loginUser username := by
  have hnone : given [0x72, 0x6C] es = [] := List.getLast?_eq_none_iff.mp hlast
  have hgiven : ∀ name, name ∉ given [0x72] es ∧ name ∉ given [0x6C] es := by
    intro name
    rw [← not_or, ← given_both, hnone]
    exact List.not_mem_nil
  have hregister : ¬ m.registerMode = true := by
    rw [hsets.registerMode, List.eq_nil_iff_forall_not_mem.mpr fun name ↦ (hgiven name).1]
    simp [Modes.initial]
  have hlogin : ¬ m.loginMode = true := by
    rw [hsets.loginMode, List.eq_nil_iff_forall_not_mem.mpr fun name ↦ (hgiven name).2]
    simp [Modes.initial]
  unfold execute
  rw [if_neg hregister, if_neg hlogin]
  split_ifs <;> exact ⟨nofun, nofun⟩

variable {name : Bytes}

theorem take_short (h : name.length < maxUsernameLen) : name.take (maxUsernameLen - 1) = name :=
  List.take_of_length_le (Nat.le_pred_of_lt h)

/-- What is valid when it is cut was valid before just if there was nothing to cut. -/
theorem uncut_iff (hvalid : validateUsername (name.take (maxUsernameLen - 1)) = .success) :
    validateUsername name = .success ↔ name.length < maxUsernameLen := by
  refine ⟨validateUsername_short, fun hshort ↦ ?_⟩
  rwa [take_short hshort] at hvalid

theorem acts_on_register (hlast : lastName es = some name)
    (hvalid : validateUsername (name.take (maxUsernameLen - 1)) = .success) :
    ActsOnName es (.registerUser (name.take (maxUsernameLen - 1))) ↔
      name.length < maxUsernameLen ∧ name ∈ given [0x72] es := by
  constructor
  · intro hacts
    have hshort : name.length < maxUsernameLen := by
      rw [← uncut_iff hvalid]
      by_contra hinvalid
      exact (hacts.rejects name hlast hinvalid _).1 rfl
    have hmem := hacts.registers _ rfl
    rw [take_short hshort] at hmem
    exact ⟨hshort, hmem⟩
  · rintro ⟨hshort, hmem⟩
    rw [← uncut_iff hvalid] at hshort
    refine ⟨?_, nofun, ?_⟩
    · rintro _ ⟨⟩
      rwa [take_short (validateUsername_short hshort)]
    · intro name' hname' hinvalid
      obtain rfl := Option.some.inj (hlast.symm.trans hname')
      exact absurd hshort hinvalid

theorem acts_on_login (hlast : lastName es = some name)
    (hvalid : validateUsername (name.take (maxUsernameLen - 1)) = .success)
    (hmem : name ∈ given [0x6C] es) :
    ActsOnName es (.loginUser (name.take (maxUsernameLen - 1))) ↔ name.length < maxUsernameLen := by
  rw [← uncut_iff hvalid]
  constructor
  · intro hacts
    by_contra hinvalid
    exact (hacts.rejects name hlast hinvalid _).2 rfl
  · intro hwhole
    refine ⟨nofun, ?_, ?_⟩
    · rintro _ ⟨⟩
      rwa [take_short (validateUsername_short hwhole)]
    · intro name' hname' hinvalid
      obtain rfl := Option.some.inj (hlast.symm.trans hname')
      exact absurd hwhole hinvalid

theorem acts_on_name_execute (hsets : Sets Modes.initial es m) (hlast : lastName es = some name)
    (hnul : 0 ∉ name) : ActsOnName es (execute m) ↔ NameKept es := by
  have hbytes : m.username.bytes = name.take (maxUsernameLen - 1) := by
    rw [hsets.username, hlast]
    exact ofBytes_cut hnul
  have hkept : NameKept es ↔ (validateUsername (name.take (maxUsernameLen - 1)) = .success →
      name.length < maxUsernameLen ∧ (given [0x72] es ≠ [] → name ∈ given [0x72] es)) := by
    unfold NameKept
    rw [hlast]
    simp
  rw [hkept]
  by_cases hvalid : validateUsername (name.take (maxUsernameLen - 1)) = .success
  · rw [forall_prop_of_true hvalid]
    unfold execute
    rw [hbytes, if_neg (not_not.mpr hvalid), if_neg (not_not.mpr hvalid)]
    by_cases hregister : m.registerMode = true
    · have hgiven : given [0x72] es ≠ [] :=
        (hsets.registerMode.mp hregister).resolve_left (by decide)
      rw [if_pos hregister, acts_on_register hlast hvalid, forall_prop_of_true hgiven]
    · have hnotgiven : ¬ given [0x72] es ≠ [] :=
        fun hgiven ↦ hregister (hsets.registerMode.mpr (.inr hgiven))
      have hmem : name ∈ given [0x6C] es := by
        refine (given_both.mp (List.mem_of_getLast? hlast)).resolve_left ?_
        exact fun hmem ↦ hnotgiven (List.ne_nil_of_mem hmem)
      have hlogin : m.loginMode = true := hsets.loginMode.mpr (.inr (List.ne_nil_of_mem hmem))
      rw [if_neg hregister, if_pos hlogin, acts_on_login hlast hvalid hmem]
      exact ⟨fun hshort ↦ ⟨hshort, fun hgiven ↦ absurd hgiven hnotgiven⟩, And.left⟩
  · rw [← hbytes] at hvalid ⊢
    exact iff_of_true (.of_none (execute_invalid hvalid)) (fun h ↦ absurd h hvalid)

/-- `main` registers and logs in under the name it was given exactly when the
name in force is kept. -/
theorem acts_on_name_iff (sodium : Sodium) (posixlyCorrect : Bool) (argv : List Argument) :
    ActsOnName (reports posixlyCorrect argv) (main sodium posixlyCorrect argv) ↔
      (Proceeds sodium (reports posixlyCorrect argv) → NameKept (reports posixlyCorrect argv)) := by
  have hreturns : ∀ result, ActsOnName (reports posixlyCorrect argv) (.returns result) :=
    fun result ↦ .of_none fun _ ↦ ⟨nofun, nofun⟩
  unfold main Proceeds
  dsimp only
  by_cases hready : (initCryptoLibrary sodium false).1 = .success
  · rw [if_neg (not_not.mpr hready)]
    by_cases hgoes : ∀ e ∈ reports posixlyCorrect argv, GoesOn e
    · obtain ⟨m, hparse, hsets⟩ := parseOptions_goes (m := Modes.initial)
        (reports_formed posixlyCorrect argv) hgoes
      rw [hparse]
      dsimp only
      have himp : ((initCryptoLibrary sodium false).1 = .success ∧
          (∀ e ∈ reports posixlyCorrect argv, GoesOn e) →
            NameKept (reports posixlyCorrect argv)) ↔ NameKept (reports posixlyCorrect argv) :=
        ⟨fun h ↦ h ⟨hready, hgoes⟩, fun h _ ↦ h⟩
      rw [himp]
      cases hlast : lastName (reports posixlyCorrect argv) with
      | none =>
        refine iff_of_true (.of_none (execute_nameless hsets hlast)) ?_
        unfold NameKept
        rw [hlast]
        exact nofun
      | some name =>
        obtain ⟨opt, _, hmem⟩ := mem_given.mp (List.mem_of_getLast? hlast)
        exact acts_on_name_execute hsets hlast (reports_no_nul hmem name rfl)
    · obtain ⟨result, hparse⟩ := parseOptions_returns (m := Modes.initial) hgoes
      rw [hparse]
      exact iff_of_true (hreturns result) (fun h ↦ absurd h.2 hgoes)
  · rw [if_pos hready]
    exact iff_of_true (hreturns _) (fun h ↦ absurd h.1 hready)

def overlong : List Argument :=
  [⟨text "c-chat", by decide⟩, ⟨text "-r", by decide⟩, ⟨List.replicate 40 0x61, by decide⟩]

def twoNames : List Argument :=
  [⟨text "c-chat", by decide⟩, ⟨text "-r", by decide⟩, ⟨text "carol", by decide⟩,
    ⟨text "-l", by decide⟩, ⟨text "dave", by decide⟩]

/-- A long name is cut to a valid one, and a name to log in with is registered. -/
theorem other_name_registered :
    main plainSodium false overlong = .registerUser (List.replicate 31 0x61) ∧
      main plainSodium false twoNames = .registerUser (text "dave") ∧
      ¬ ActsOnName (reports false overlong) (main plainSodium false overlong) ∧
      ¬ ActsOnName (reports false twoNames) (main plainSodium false twoNames) := by
  have hlong : main plainSodium false overlong = .registerUser (List.replicate 31 0x61) := by
    decide +kernel
  have htwo : main plainSodium false twoNames = .registerUser (text "dave") := by decide +kernel
  have hnotlong : List.replicate 31 0x61 ∉ given [0x72] (reports false overlong) := by
    decide +kernel
  have hnottwo : text "dave" ∉ given [0x72] (reports false twoNames) := by decide +kernel
  exact ⟨hlong, htwo, fun h ↦ hnotlong (h.registers _ hlong), fun h ↦ hnottwo (h.registers _ htwo)⟩

end CChat.Client.CommandLine
