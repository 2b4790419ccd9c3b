import CChat.Server.UserLists
import CChat.Threads.Sections

namespace CChat.Threads.Enrolment

open CChat.Library CChat.Protocol.Types CChat.Protocol.Wire CChat.Server.State CChat.Server.Users
  CChat.Server.Handlers CChat.Server.Registry CChat.Server.Steps Machine Sections
open CChat.Server.Invariants hiding Turn step_turn
open CChat.Server.Loop hiding Input step reach

variable {verify : Signature → Challenge → Key → Bool} {m m' : Pool} {w w' : World} {i : ℕ}
  {c : Control} {x : Input}

theorem Section.enrolled (h : Section verify w i c w') (hw : Enrolled w.server) :
    Enrolled w'.server ∧ Extends w.server w'.server := by
  have hsame : ∀ {s}, SameRecords w.server s → Enrolled s ∧ Extends w.server s :=
    fun h ↦ ⟨h.enrolled hw, h.extends⟩
  cases h with
  | still h => exact hsame (.of_users h.users h.userCount)
  | added username key _ h => exact ⟨h.enrolled hw, h.extends⟩
  | login _ _ _ _ _ hs => exact hsame (.of_users (by rw [hs]; rfl) (by rw [hs]; rfl))
  | status k status _ h =>
    rw [h]
    exact hsame (@SameRecords.status w.server _ k status rfl rfl)
  | hangUp _ h =>
    rw [h]
    exact hsame (.of_users rfl rfl)
  | shut _ hs => exact hsame (.of_users (by rw [hs]; rfl) (by rw [hs]; rfl))

/-- No step takes a record out of the table or changes its name or its key. -/
theorem Turn.enrolled (h : Turn verify m x m') (hm : Enrolled m.world.server) :
    Enrolled m'.world.server ∧ Extends m.world.server m'.world.server := by
  have hsame : ∀ {s}, SameRecords m.world.server s → Enrolled s ∧ Extends m.world.server s :=
    fun h ↦ ⟨h.enrolled hm, h.extends⟩
  cases h with
  | idle h =>
    rw [h]
    exact ⟨hm, .refl _⟩
  | accept challenge created _ _ h =>
    rw [h, acceptHandler_world]
    cases acceptClient_accepted m.world challenge created with
    | full hs =>
      rw [hs]
      exact ⟨hm, .refl _⟩
    | slot _ _ _ _ _ _ _ _ husers => exact hsame (.of_users husers.1 husers.2.1)
  | receive h stream i _ _ h =>
    have husers := (takeRequest_admitted m.world i stream).users
    rw [h, Pool.put, receiveRequest_world]
    exact hsame (.of_users husers.1 husers.2)
  | go h i c _ _ _ h =>
    rw [h]
    exact Section.enrolled (proceed_section m.world i c) hm
  | environment env _ h =>
    rw [h]
    exact ⟨hm, .refl _⟩

def Looked (s : ServerState) : Control → Prop
  | .copyingKey k username => findUser s username = some k
  | _ => True

theorem Looked.extends {s s' : ServerState} (hs : Extends s s') (h : Looked s c) : Looked s' c := by
  cases c with
  | copyingKey k username => exact hs.find h
  | _ => trivial

theorem route_looked (s : ServerState) (authenticated : Bool) (type : UInt8) (payload : Bytes) :
    Looked s (route authenticated type payload) :=
  route_of (P := Looked s) _ _ _ (fun _ ↦ trivial) (fun _ _ ↦ trivial) (fun _ _ ↦ trivial)
    (fun _ ↦ trivial) (fun _ _ ↦ trivial) trivial (fun _ ↦ trivial) (fun _ ↦ trivial) trivial

theorem After.looked (s : ServerState) (after : After) : Looked s after.control := by
  cases after <;> trivial

theorem proceed_looked (w : World) (i : ℕ) (c : Control) :
    Looked (proceed verify w i c).1.server (proceed verify w i c).2 := by
  cases c with
  | seekingKey username =>
    simp only [proceed]
    split
    · trivial
    next k hk => exact hk
  | announcing username status after =>
    simp only [proceed]
    split
    · exact After.looked _ after
    · trivial
  | sweeping username status j after =>
    simp only [proceed]
    split
    · split <;> trivial
    · exact After.looked _ after
  | _ =>
    simp only [proceed]
    repeat' split
    all_goals trivial

def Looking (m : Pool) : Prop :=
  ∀ h handler, m.handlers h = some handler → Looked m.world.server handler.control

theorem Turn.looking (h : Turn verify m x m') (he : Enrolled m.world.server) (hm : Looking m) :
    Looking m' := by
  have hext := (Turn.enrolled h he).2
  refine Sections.Turn.handlers h (P := fun _ handler ↦ Looked m.world.server handler.control)
    (fun _ _ _ hl ↦ hl.extends hext) (fun _ _ _ _ hl ↦ hl.extends hext) (fun _ _ ↦ trivial)
    (fun h i stream _ _ _ _ ↦ ?_) (fun h i c _ _ hw _ ↦ ?_) hm
  · unfold receiveRequest
    dsimp only
    split
    · trivial
    · exact route_looked _ _ _ _
  · rw [hw]
    exact proceed_looked m.world i c

def Registers (m : Pool) (h : Fd) (username : Username) (key : Key) : Prop :=
  ∃ i, m.handlers h = some ⟨i, .registering username key⟩ ∧
    m.blocked i (.registering username key) = false ∧ (addUser m.world username key).1 = 0

/-- A lookup of a name finds its one record and answers with its one key, and
nobody can register the name. -/
structure Remembers (verify : Signature → Challenge → Key → Bool) (m : Pool) (username : Username)
    (key : Key) : Prop where
  found : ∃ k, findUser m.world.server username = some k ∧
    (m.world.server.users k).publicKey = key
  sought : ∀ i, ∃ k, (proceed verify m.world i (.seekingKey username)).2 = .copyingKey k username
  copied : ∀ h i k, m.handlers h = some ⟨i, .copyingKey k username⟩ →
    (proceed verify m.world i (.copyingKey k username)).2 =
      .replying .publicKeyResponse (1 :: key.toList)
  taken : ∀ h key', ¬ Registers m h username key'

/-- What a step keeps: the table in order, and a name with its key. -/
structure Kept (m : Pool) (username : Username) (key : Key) : Prop where
  enrolled : Enrolled m.world.server
  looking : Looking m
  found : ∃ k, findUser m.world.server username = some k ∧
    (m.world.server.users k).publicKey = key

theorem Turn.kept {username : Username} {key : Key} (h : Turn verify m x m')
    (hm : Kept m username key) : Kept m' username key := by
  obtain ⟨he, hext⟩ := Turn.enrolled h hm.enrolled
  obtain ⟨k, hk, hkey⟩ := hm.found
  refine ⟨he, Turn.looking h hm.enrolled hm.looking, k, hext.find hk, ?_⟩
  rw [hext.publicKey k (findUser_some hk).1, hkey]

theorem Kept.remembers {username : Username} {key : Key} (hm : Kept m username key) :
    Remembers verify m username key := by
  obtain ⟨k, hk, hkey⟩ := hm.found
  refine ⟨⟨k, hk, hkey⟩, fun i ↦ ⟨k, ?_⟩, fun h i l hh ↦ ?_, ?_⟩
  · simp only [proceed, hk]
  · have hl : findUser m.world.server username = some l := hm.looking h _ hh
    obtain rfl := Option.some.inj (hk.symm.trans hl)
    simp only [proceed, hkey]
  · rintro h key' ⟨i, _, _, hzero⟩
    rw [(addUser_zero hzero).fresh] at hk
    cases hk

theorem registers_kept {h : Fd} {username : Username} {key : Key} (he : Enrolled m.world.server)
    (hl : Looking m) (hr : Registers m h username key) :
    Kept (step verify m (.go h)) username key := by
  obtain ⟨i, hh, hfree, hzero⟩ := hr
  have hadded := addUser_zero hzero
  have hturn := @step_turn verify m (.go h)
  have hworld : (step verify m (.go h)).world = (addUser m.world username key).2 := by
    simp only [step, hh, hfree]
    rfl
  refine ⟨(Turn.enrolled hturn he).1, Turn.looking hturn he hl, m.world.server.userCount, ?_, ?_⟩
  · rw [hworld]
    exact hadded.find he
  · rw [hworld, hadded.new]

theorem reach_enrolled (xs : List Input) :
    Enrolled (reach verify xs).world.server ∧ Looking (reach verify xs) := by
  have hinitial : Enrolled Pool.initial.world.server ∧ Looking Pool.initial := by
    refine ⟨enrolled_initial, fun h handler hh ↦ ?_⟩
    cases hh
  refine Runs.run_invariant (Q := fun m ↦ Enrolled m.world.server ∧ Looking m) (fun m x hm ↦ ?_)
    hinitial xs
  have hturn := @step_turn verify m x
  exact ⟨(Turn.enrolled hturn hm.1).1, Turn.looking hturn hm.1 hm.2⟩

/-- Whatever the handlers do, the user list gives the table as it is. -/
theorem reach_lists (xs : List Input) : CChat.Server.UserLists.Lists (reach verify xs).world.server :=
  CChat.Server.UserLists.Enrolled.lists (reach_enrolled xs).1

/-- Whatever the handlers do in whatever order: the table holds the registered
users under distinct names of the allowed form, records are only added to it,
and a name that was registered keeps its one key for ever. -/
theorem registry_append_only (verify : Signature → Challenge → Key → Bool) (xs : List Input) :
    Enrolled (reach verify xs).world.server ∧
      (∀ x, Extends (reach verify xs).world.server
        (step verify (reach verify xs) x).world.server) ∧
      ∀ h username key, Registers (reach verify xs) h username key → ∀ ys,
        Remembers verify (Runs.run (step verify) (step verify (reach verify xs) (.go h)) ys)
          username key := by
  obtain ⟨he, hl⟩ := @reach_enrolled verify xs
  refine ⟨he, fun x ↦ (Turn.enrolled (step_turn _ x) he).2, fun h username key hr ys ↦ ?_⟩
  have hkept : Kept (Runs.run (step verify) (step verify (reach verify xs) (.go h)) ys)
      username key :=
    Runs.run_invariant (Q := fun m ↦ Kept m username key)
      (fun m x hm ↦ Turn.kept (step_turn m x) hm) (registers_kept he hl hr) ys
  exact hkept.remembers

def bothAsk : List Input :=
  [.accept (Block.zero _) true, .accept (Block.zero _) true, .go 0, .go 1,
    .receive 0 (registerPacket (text "alice") (List.replicate 32 1)),
    .receive 1 (registerPacket (text "alice") (List.replicate 32 2))]

theorem registry_append_only_alice :
    Remembers (fun _ _ _ ↦ true) (Runs.run (step (fun _ _ _ ↦ true))
      (step (fun _ _ _ ↦ true) (reach (fun _ _ _ ↦ true) bothAsk) (.go 1)) [.go 0])
      (Username.ofBytes (text "alice")) (Block.read publicKeySize (List.replicate 32 2)) :=
  (registry_append_only (fun _ _ _ ↦ true) bothAsk).2.2 1 _ _
    ⟨1, by decide +kernel, by decide +kernel, by decide +kernel⟩ [.go 0]

end CChat.Threads.Enrolment
