import CChat.Server.History
import CChat.Server.Names

namespace CChat.Server.Registry

open CChat.Library CChat.Protocol.Types State Network Users Effects Views Steps Invariants History
  Names

/-- The user table: its first records are the registered ones, under distinct
names of the allowed form. -/
structure Enrolled (s : ServerState) : Prop where
  count_le : s.userCount ≤ maxClients
  registered : ∀ k, (s.users k).isRegistered = true ↔ k < s.userCount
  named : ∀ k < s.userCount, ValidName (s.users k).username.bytes
  distinct : ∀ k l, k < s.userCount → l < s.userCount →
    (s.users k).username = (s.users l).username → k = l

/-- Records are only added, and none changes its name or its key. -/
structure Extends (s s' : ServerState) : Prop where
  count_le : s.userCount ≤ s'.userCount
  username : ∀ k < s.userCount, (s'.users k).username = (s.users k).username
  publicKey : ∀ k < s.userCount, (s'.users k).publicKey = (s.users k).publicKey
  isRegistered : ∀ k < s.userCount, (s'.users k).isRegistered = (s.users k).isRegistered

variable {s s' s'' : ServerState} {name : Username} {k : ℕ}

theorem enrolled_initial : Enrolled ServerState.initial := by
  refine ⟨by decide, fun k ↦ ⟨fun h ↦ ?_, fun h ↦ ?_⟩, fun k hk ↦ ?_, fun k l hk ↦ ?_⟩
  · cases h
  · exact absurd h (Nat.not_lt_zero k)
  · exact absurd hk (Nat.not_lt_zero k)
  · exact absurd hk (Nat.not_lt_zero k)

theorem Extends.refl (s : ServerState) : Extends s s :=
  ⟨Nat.le_refl _, fun _ _ ↦ rfl, fun _ _ ↦ rfl, fun _ _ ↦ rfl⟩

theorem Extends.trans (h : Extends s s') (h' : Extends s' s'') : Extends s s'' := by
  have hlt : ∀ k < s.userCount, k < s'.userCount := fun k hk ↦ Nat.lt_of_lt_of_le hk h.count_le
  refine ⟨Nat.le_trans h.count_le h'.count_le, fun k hk ↦ ?_, fun k hk ↦ ?_, fun k hk ↦ ?_⟩
  · rw [h'.username k (hlt k hk), h.username k hk]
  · rw [h'.publicKey k (hlt k hk), h.publicKey k hk]
  · rw [h'.isRegistered k (hlt k hk), h.isRegistered k hk]

theorem Extends.find (h : Extends s s') (hk : findUser s name = some k) :
    findUser s' name = some k :=
  findUser_longer h.count_le (fun l hl ↦ ⟨h.username l hl, h.isRegistered l hl⟩) hk

theorem Enrolled.find (hs : Enrolled s) (hk : k < s.userCount) :
    findUser s (s.users k).username = some k := by
  cases h : findUser s (s.users k).username with
  | none =>
    have hnone := List.find?_eq_none.mp h k (List.mem_range.mpr hk)
    simp [(hs.registered k).mpr hk] at hnone
  | some l =>
    obtain ⟨hl, _, hname⟩ := findUser_some h
    rw [hs.distinct l k hl hk hname]

theorem Enrolled.find_iff (hs : Enrolled s) :
    findUser s name = some k ↔ k < s.userCount ∧ (s.users k).username = name := by
  refine ⟨fun h ↦ ⟨(findUser_some h).1, (findUser_some h).2.2⟩, ?_⟩
  rintro ⟨hk, rfl⟩
  exact hs.find hk

theorem Enrolled.fresh (hs : Enrolled s) (h : findUser s name = none) (hk : k < s.userCount) :
    (s.users k).username ≠ name := by
  intro hname
  have hfound := hs.find hk
  rw [hname, h] at hfound
  cases hfound

structure SameRecords (s s' : ServerState) : Prop where
  userCount : s'.userCount = s.userCount
  username : ∀ k, (s'.users k).username = (s.users k).username
  publicKey : ∀ k, (s'.users k).publicKey = (s.users k).publicKey
  isRegistered : ∀ k, (s'.users k).isRegistered = (s.users k).isRegistered

theorem SameRecords.of_users (hu : s'.users = s.users) (hc : s'.userCount = s.userCount) :
    SameRecords s s' := ⟨hc, fun _ ↦ by rw [hu], fun _ ↦ by rw [hu], fun _ ↦ by rw [hu]⟩

theorem SameRecords.status {status : UserStatus}
    (hu : s'.users = Function.update s.users k { s.users k with status := status })
    (hc : s'.userCount = s.userCount) : SameRecords s s' := by
  have hrecord : ∀ l, s'.users l = s.users l ∨ s'.users l = { s.users l with status := status } := by
    intro l
    rw [hu]
    by_cases hl : l = k
    · subst hl
      exact .inr (Function.update_self ..)
    · exact .inl (Function.update_of_ne hl ..)
  refine ⟨hc, fun l ↦ ?_, fun l ↦ ?_, fun l ↦ ?_⟩
  · obtain h | h := hrecord l <;> rw [h]
  · obtain h | h := hrecord l <;> rw [h]
  · obtain h | h := hrecord l <;> rw [h]

theorem SameRecords.extends (h : SameRecords s s') : Extends s s' :=
  ⟨Nat.le_of_eq h.userCount.symm, fun k _ ↦ h.username k, fun k _ ↦ h.publicKey k,
    fun k _ ↦ h.isRegistered k⟩

theorem SameRecords.enrolled (h : SameRecords s s') (hs : Enrolled s) : Enrolled s' := by
  refine ⟨h.userCount ▸ hs.count_le, fun k ↦ ?_, fun k hk ↦ ?_, fun k l hk hl hname ↦ ?_⟩
  · rw [h.isRegistered, h.userCount]
    exact hs.registered k
  · rw [h.userCount] at hk
    rw [h.username]
    exact hs.named k hk
  · rw [h.userCount] at hk hl
    rw [h.username, h.username] at hname
    exact hs.distinct k l hk hl hname

theorem SameRecords.find (h : SameRecords s s') (hs : Enrolled s)
    (name : Username) : findUser s' name = findUser s name := by
  refine Option.ext (fun k ↦ ?_)
  rw [(h.enrolled hs).find_iff, hs.find_iff, h.userCount, h.username]

structure Added (s : ServerState) (name : Username) (key : Key) (s' : ServerState) : Prop where
  valid : ¬ validateUsernameServer name.bytes < 0
  room : s.userCount < maxClients
  fresh : findUser s name = none
  users : s'.users = Function.update s.users s.userCount ⟨name, key, .offline, true⟩
  userCount : s'.userCount = s.userCount + 1

theorem Added.new {key : Key} (h : Added s name key s') :
    s'.users s.userCount = ⟨name, key, .offline, true⟩ := by
  rw [h.users, Function.update_self]

theorem Added.old {key : Key} (h : Added s name key s') (hk : k ≠ s.userCount) :
    s'.users k = s.users k := by
  rw [h.users, Function.update_of_ne hk]

theorem Added.extends {key : Key} (h : Added s name key s') : Extends s s' := by
  have hold : ∀ k < s.userCount, s'.users k = s.users k := fun k hk ↦ h.old (Nat.ne_of_lt hk)
  refine ⟨by rw [h.userCount]; exact Nat.le_succ _, fun k hk ↦ ?_, fun k hk ↦ ?_, fun k hk ↦ ?_⟩
  · rw [hold k hk]
  · rw [hold k hk]
  · rw [hold k hk]

theorem Added.enrolled {key : Key} (h : Added s name key s') (hs : Enrolled s) : Enrolled s' := by
  have hlt : ∀ k, k < s'.userCount → k = s.userCount ∨ k ≠ s.userCount ∧ k < s.userCount := by
    intro k hk
    rw [h.userCount] at hk
    omega
  refine ⟨by rw [h.userCount]; exact h.room, fun k ↦ ?_, fun k hk ↦ ?_, fun k l hk hl hname ↦ ?_⟩
  · rw [h.userCount]
    by_cases hk : k = s.userCount
    · rw [hk, h.new]
      exact iff_of_true rfl (Nat.lt_succ_self _)
    · rw [h.old hk, hs.registered k]
      omega
  · obtain rfl | ⟨hne, hk⟩ := hlt k hk
    · rw [h.new]
      exact (validateUsernameServer_iff _).mp h.valid
    · rw [h.old hne]
      exact hs.named k hk
  · obtain rfl | ⟨hnek, hk⟩ := hlt k hk
    · obtain rfl | ⟨hnel, hl⟩ := hlt l hl
      · rfl
      · rw [h.new, h.old hnel] at hname
        exact absurd hname.symm (hs.fresh h.fresh hl)
    · obtain rfl | ⟨hnel, hl⟩ := hlt l hl
      · rw [h.new, h.old hnek] at hname
        exact absurd hname (hs.fresh h.fresh hk)
      · rw [h.old hnek, h.old hnel] at hname
        exact hs.distinct k l hk hl hname

theorem Added.find {key : Key} (h : Added s name key s') (hs : Enrolled s) :
    findUser s' name = some s.userCount := by
  rw [(h.enrolled hs).find_iff, h.new, h.userCount]
  exact ⟨Nat.lt_succ_self _, rfl⟩

theorem addUser_zero {w : World} {key : Key} (h : (addUser w name key).1 = 0) :
    Added w.server name key (addUser w name key).2.server := by
  unfold addUser at h ⊢
  split at h
  · simp at h
  next hvalid =>
    split at h
    · simp at h
    next hroom =>
      split at h
      · simp at h
      next hfresh =>
        rw [if_neg hvalid, if_neg hroom, if_neg hfresh]
        exact ⟨hvalid, Nat.lt_of_not_le hroom, by simpa using hfresh, rfl, rfl⟩

section Runs

variable {verify : Signature → Challenge → Key → Bool} {g : Guards} {i : ℕ} {w w' : World}

theorem Effect.records (h : Effect verify g i w w') :
    SameRecords w.server w'.server ∨ ∃ name key, Added w.server name key w'.server := by
  cases Effect.users h with
  | same hu hc => exact .inl (SameRecords.of_users hu hc)
  | status k status _ _ hu hc => exact .inl (SameRecords.status hu hc)
  | register name key _ _ hu hc =>
    cases h with
    | register name key _ hname hroom hnew hserver =>
      exact .inr ⟨name, key, hname, hroom, hnew, by rw [hserver], by rw [hserver]⟩
    | silent h => exact .inl (SameRecords.of_users (by rw [h.server]) (by rw [h.server]))
    | _ =>
      rename_i hserver _ _
      have hsame := (congrArg ServerState.userCount hserver).trans rfl
      exact absurd (hc.symm.trans hsame) (Nat.succ_ne_self _)

theorem Effect.enrolled (h : Effect verify g i w w') (hs : Enrolled w.server) :
    Enrolled w'.server := by
  obtain hsame | ⟨_, _, hadded⟩ := Effect.records h
  · exact hsame.enrolled hs
  · exact hadded.enrolled hs

theorem Effect.extends (h : Effect verify g i w w') : Extends w.server w'.server := by
  obtain hsame | ⟨_, _, hadded⟩ := Effect.records h
  · exact hsame.extends
  · exact hadded.extends

theorem Accepted.records {challenge : Challenge} {created : Bool}
    (h : Accepted w challenge created w') : SameRecords w.server w'.server := by
  cases h with
  | full hsame => exact SameRecords.of_users (by rw [hsame]) (by rw [hsame])
  | slot _ _ _ _ _ _ _ _ husers => exact SameRecords.of_users husers.1 husers.2.1

theorem Turn.enrolled {x : Loop.Input} (h : Turn verify w x w') (hs : Enrolled w.server) :
    Enrolled w'.server := by
  cases h with
  | accept _ _ _ h => exact (Accepted.records h).enrolled hs
  | idle _ _ _ _ _ h => exact h ▸ hs
  | handled _ _ _ _ _ _ _ hchain _ =>
    exact Chain.invariant (P := fun v ↦ Enrolled v.server) (fun _ _ ↦ Effect.enrolled) hchain hs

theorem Turn.extends {x : Loop.Input} (h : Turn verify w x w') : Extends w.server w'.server := by
  cases h with
  | accept _ _ _ h => exact (Accepted.records h).extends
  | idle _ _ _ _ _ h => exact h ▸ .refl _
  | handled _ _ _ _ _ _ _ hchain _ =>
    exact Chain.invariant (P := fun v ↦ Extends w.server v.server)
      (fun _ _ heff hv ↦ hv.trans (Effect.extends heff)) hchain (.refl _)

/-- No run takes a record out of the table or changes its name or its key. -/
theorem run_extends (hw : Steady w) (xs : List Loop.Input) :
    Extends w.server (Runs.run (Loop.step verify) w xs).server := by
  have h : Steady (Runs.run (Loop.step verify) w xs) ∧
      Extends w.server (Runs.run (Loop.step verify) w xs).server := by
    refine Runs.run_invariant (Q := fun v ↦ Steady v ∧ Extends w.server v.server)
      (fun v x hv ↦ ?_) ⟨hw, .refl _⟩ xs
    exact ⟨step_steady hv.1 x, hv.2.trans (Turn.extends (step_turn hv.1.sound x))⟩
  exact h.2

theorem reach_enrolled (xs : List Loop.Input) : Enrolled (Loop.reach verify xs).server :=
  reach_invariant (P := fun w ↦ Enrolled w.server) enrolled_initial
    (fun _ _ _ _ hturn ↦ Turn.enrolled hturn) xs

end Runs

end CChat.Server.Registry
