import CChat.Server.Handlers

namespace CChat.Server.Names

open CChat.Library CChat.Protocol.Types CChat.Protocol.Wire State Network Users Handlers

def ValidName (name : Bytes) : Prop :=
  0 < name.length ∧ name.length < maxUsernameLen ∧ ∀ b ∈ name, isNameByte b = true

instance (name : Bytes) : Decidable (ValidName name) :=
  inferInstanceAs (Decidable (0 < name.length ∧ name.length < maxUsernameLen ∧
    ∀ b ∈ name, isNameByte b = true))

theorem ValidName.no_nul {name : Bytes} (h : ValidName name) : 0 ∉ name := by
  intro hmem
  have hzero := h.2.2 0 hmem
  exact absurd hzero (by decide)

theorem validateUsernameServer_iff (name : Bytes) :
    ¬ validateUsernameServer name < 0 ↔ ValidName name := by
  unfold validateUsernameServer ValidName
  split
  next hlen =>
    refine ⟨fun h ↦ absurd (by decide) h, fun h ↦ ?_⟩
    omega
  next hlen =>
    split
    next hall => exact ⟨fun _ ↦ ⟨by omega, by omega, List.all_eq_true.mp hall⟩, fun _ ↦ by decide⟩
    next hall =>
      exact ⟨fun h ↦ absurd (by decide) h, fun h ↦ absurd (List.all_eq_true.mpr h.2.2) hall⟩

theorem ofBytes_bytes {bs : Bytes} (h : bs.length < maxUsernameLen) :
    (Username.ofBytes bs).bytes = bs.takeWhile (· ≠ 0) := by
  refine List.take_of_length_le (Nat.le_trans (List.takeWhile_sublist _).length_le ?_)
  omega

theorem ofBytes_exact {bs : Bytes} (h : bs.length < maxUsernameLen) :
    (Username.ofBytes bs).bytes = bs ↔ 0 ∉ bs := by
  rw [ofBytes_bytes h, List.takeWhile_eq_self_iff]
  refine ⟨fun hall hmem ↦ ?_, fun hnul b hb ↦ ?_⟩
  · have hzero := hall 0 hmem
    exact absurd hzero (by decide)
  · refine decide_eq_true (fun hb0 ↦ ?_)
    rw [hb0] at hb
    exact hnul hb

def wireName (payload : Bytes) : Bytes := (payload.drop 1).take (payload.headD 0).toNat

variable {least extra : ℕ} {tooShort badLength : String} {payload : Bytes}

structure ReadFrom (payload : Bytes) (u : Username) : Prop where
  cut : u = Username.ofBytes (wireName payload)
  nonempty : 0 < (wireName payload).length
  short : (wireName payload).length < maxUsernameLen

theorem readName_ok {u : Username} {rest : Bytes}
    (h : readName least extra tooShort badLength payload = .ok (u, rest)) : ReadFrom payload u := by
  unfold readName at h
  dsimp only at h
  split at h
  · cases h
  · split at h
    · cases h
    next hlen =>
      cases h
      refine ⟨rfl, ?_, ?_⟩
      · rw [wireName, List.length_take, List.length_drop]
        omega
      · rw [wireName, List.length_take]
        omega

theorem ReadFrom.exact_iff {u : Username} (h : ReadFrom payload u) :
    u.bytes = wireName payload ↔ 0 ∉ wireName payload := by
  rw [h.cut]
  exact ofBytes_exact h.short

/-- A name that was put behind its length is read back with what follows it. -/
theorem readName_nameField {name rest : Bytes} (hpos : 0 < name.length)
    (hshort : name.length < maxUsernameLen) (hleast : least ≤ 1 + name.length + rest.length)
    (hextra : extra ≤ rest.length) :
    readName least extra tooShort badLength (nameField name ++ rest) =
      .ok (Username.ofBytes name, rest) := by
  have hhead : ((nameField name ++ rest).headD 0).toNat = name.length :=
    UInt8.toNat_ofNat_of_lt (hshort.trans (by decide))
  have hlen : (nameField name ++ rest).length = 1 + name.length + rest.length := by
    simp only [nameField, List.cons_append, List.length_cons, List.length_append]
    omega
  have htake : ((nameField name ++ rest).drop 1).take name.length = name := List.take_left
  have hdrop : (nameField name ++ rest).drop (1 + name.length) = rest := by
    rw [← List.drop_drop]
    exact List.drop_left
  unfold readName
  dsimp only
  rw [hhead, hlen, if_neg (by omega), if_neg (by omega), htake, hdrop]

inductive NamedRequest
  | registerUser | loginUser | getPublicKey | sendMessage
deriving DecidableEq

/-- The name a handler registers, authenticates, looks up or delivers to, once
the payload has passed its format checks. -/
def usedName : NamedRequest → Bytes → Option Username
  | .registerUser, payload => (parseRegister payload).toOption.map Prod.fst
  | .loginUser, payload => (parseLogin payload).toOption.map Prod.fst
  | .getPublicKey, payload => (parseGetPublicKey payload).toOption
  | .sendMessage, payload => (parseSendMessage payload).toOption.map Prod.fst

theorem parseRegister_ok {u : Username} {key : Key} (h : parseRegister payload = .ok (u, key)) :
    ReadFrom payload u ∧ ValidName u.bytes := by
  unfold parseRegister at h
  split at h
  · cases h
  next hname =>
    split at h
    · cases h
    next hvalid =>
      cases h
      exact ⟨readName_ok hname, (validateUsernameServer_iff _).mp hvalid⟩

theorem parseLogin_ok {u : Username} {signature : Signature}
    (h : parseLogin payload = .ok (u, signature)) : ReadFrom payload u := by
  unfold parseLogin at h
  split at h
  · cases h
  next hname =>
    cases h
    exact readName_ok hname

theorem parseGetPublicKey_ok {u : Username} (h : parseGetPublicKey payload = .ok u) :
    ReadFrom payload u := by
  unfold parseGetPublicKey at h
  split at h
  · cases h
  next hname =>
    cases h
    exact readName_ok hname

theorem parseSendMessage_ok {u : Username} {data : Bytes}
    (h : parseSendMessage payload = .ok (u, data)) : ReadFrom payload u := by
  unfold parseSendMessage at h
  split at h
  · cases h
  next hname =>
    dsimp only at h
    split at h
    · cases h
    · cases h
      exact readName_ok hname

theorem Except.toOption_some {ε α : Type} {e : Except ε α} {a : α} (h : e.toOption = some a) :
    e = .ok a := by
  cases e with
  | error => cases h
  | ok b => exact congrArg _ (Option.some.inj h)

theorem usedName_readFrom {r : NamedRequest} {u : Username} (h : usedName r payload = some u) :
    ReadFrom payload u ∧ (r = .registerUser → ValidName u.bytes) := by
  cases r with
  | registerUser =>
    obtain ⟨⟨name, key⟩, hparse, rfl⟩ := Option.map_eq_some_iff.mp h
    have hok := parseRegister_ok (Except.toOption_some hparse)
    exact ⟨hok.1, fun _ ↦ hok.2⟩
  | loginUser =>
    obtain ⟨⟨name, signature⟩, hparse, rfl⟩ := Option.map_eq_some_iff.mp h
    exact ⟨parseLogin_ok (Except.toOption_some hparse), fun hr ↦ by cases hr⟩
  | getPublicKey =>
    exact ⟨parseGetPublicKey_ok (Except.toOption_some h), fun hr ↦ by cases hr⟩
  | sendMessage =>
    obtain ⟨⟨name, data⟩, hparse, rfl⟩ := Option.map_eq_some_iff.mp h
    exact ⟨parseSendMessage_ok (Except.toOption_some hparse), fun hr ↦ by cases hr⟩

def Registers (w : World) (i : ℕ) (payload : Bytes) : Prop :=
  (handleRegisterUser w i payload).2.server.userCount ≠ w.server.userCount

theorem reply_server (w : World) (i : ℕ) (type : MessageType) (payload : Bytes) :
    (reply w i type payload).2.server = w.server := sendNetworkMessage_server _ _ _ _ _

theorem refuse_server (w : World) (i : ℕ) (e : Refusal) : (refuse w i e).2.server = w.server :=
  sendError_server _ _ _ _

theorem handleRegisterUser_server (w : World) (i : ℕ) {u : Username} {key : Key}
    (h : parseRegister payload = .ok (u, key)) :
    (handleRegisterUser w i payload).2.server = (addUser w u key).2.server := by
  unfold handleRegisterUser
  rw [h]
  dsimp only
  split_ifs <;> exact reply_server _ _ _ _

theorem Registers.used {w : World} {i : ℕ} (h : Registers w i payload) :
    ∃ u, usedName .registerUser payload = some u := by
  cases hparse : parseRegister payload with
  | error e =>
    refine absurd ?_ h
    rw [handleRegisterUser, hparse]
    exact congrArg ServerState.userCount (refuse_server w i e)
  | ok parsed => exact ⟨parsed.1, by rw [usedName, hparse]; rfl⟩

theorem registers_initial {u : Username} (h : usedName .registerUser payload = some u) :
    Registers World.initial 0 payload := by
  obtain ⟨⟨name, key⟩, hparse, rfl⟩ := Option.map_eq_some_iff.mp h
  have hok := Except.toOption_some hparse
  have hvalid := (validateUsernameServer_iff _).mpr (parseRegister_ok hok).2
  have hnew : findUser World.initial.server name = none := rfl
  have hadd : (addUser World.initial name key).2.server.userCount = 1 := by
    rw [addUser, if_neg hvalid, if_neg (by decide), hnew]
    rfl
  rw [Registers, handleRegisterUser_server _ _ hok, hadd]
  exact Nat.one_ne_zero

/-- The name acted on is the one on the wire, and what is registered there has
the form of a name. -/
def Faithful (r : NamedRequest) (payload : Bytes) : Prop :=
  (∀ u, usedName r payload = some u → u.bytes = wireName payload) ∧
    (r = .registerUser → ∀ w i, Registers w i payload → ValidName (wireName payload))

/-- Two names that differ on the wire do not denote one user. -/
def Distinguished (r r' : NamedRequest) (payload payload' : Bytes) : Prop :=
  ∀ u, usedName r payload = some u → usedName r' payload' = some u →
    wireName payload = wireName payload'

/-- The request fails its format checks or its name holds no NUL. -/
def NulFree (r : NamedRequest) (payload : Bytes) : Prop :=
  usedName r payload = none ∨ 0 ∉ wireName payload

theorem NulFree.exact {r : NamedRequest} {u : Username} (h : NulFree r payload)
    (hu : usedName r payload = some u) : u.bytes = wireName payload := by
  obtain hnone | hnul := h
  · rw [hu] at hnone
    cases hnone
  · exact (usedName_readFrom hu).1.exact_iff.mpr hnul

theorem faithful_iff (r : NamedRequest) (payload : Bytes) :
    Faithful r payload ↔ NulFree r payload := by
  refine ⟨fun h ↦ ?_, fun h ↦ ⟨fun u hu ↦ NulFree.exact h hu, ?_⟩⟩
  · cases hu : usedName r payload with
    | none => exact .inl hu
    | some u => exact .inr ((usedName_readFrom hu).1.exact_iff.mp (h.1 u hu))
  · rintro rfl w i hreg
    obtain ⟨u, hu⟩ := Registers.used hreg
    rw [← NulFree.exact h hu]
    exact (usedName_readFrom hu).2 rfl

/-- The server acts on the names on the wire, and on different users for
different ones, exactly when no name holds a NUL. -/
theorem names_exact_iff (r r' : NamedRequest) (payload payload' : Bytes) :
    Faithful r payload ∧ Faithful r' payload' ∧ Distinguished r r' payload payload' ↔
      NulFree r payload ∧ NulFree r' payload' := by
  rw [faithful_iff, faithful_iff]
  refine ⟨fun h ↦ ⟨h.1, h.2.1⟩, fun h ↦ ⟨h.1, h.2, fun u hu hu' ↦ ?_⟩⟩
  rw [← NulFree.exact h.1 hu, ← NulFree.exact h.2 hu']

def paddedRegistration : Bytes :=
  nameField (text "alice" ++ 0 :: text "bob") ++ List.replicate publicKeySize 7

theorem paddedRegistration_accepted :
    Registers World.initial 0 paddedRegistration ∧
      ((handleRegisterUser World.initial 0 paddedRegistration).2.server.users 0).username.bytes =
        text "alice" ∧
      wireName paddedRegistration = text "alice" ++ 0 :: text "bob" ∧
      ¬ ValidName (wireName paddedRegistration) ∧
      ¬ Distinguished .registerUser .getPublicKey paddedRegistration (nameField (text "alice")) := by
  have hused : usedName .registerUser paddedRegistration = some (Username.ofBytes (text "alice")) := by
    decide +kernel
  refine ⟨registers_initial hused, by decide +kernel, by decide, by decide, fun h ↦ ?_⟩
  have hsame := h _ hused (by decide +kernel)
  exact absurd hsame (by decide)

end CChat.Server.Names
