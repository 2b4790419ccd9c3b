import CChat.Client.Execution

namespace CChat.Client.RegistrationRun

open CChat.Library.Scratch CChat.Protocol.Types Network Crypto KeyFiles Registration Wiping Execution

variable {sodium : Sodium}

abbrev UserMemory : Type := Memory UserArray.size

structure KeypairRun (s : Host) (m : UserMemory) (generated : Except CchatError (Key × Key) × Bool)
    (e : Ending CchatError Host UInt8 (Sum.elim UserArray.size KeyFileArray.size)) : Prop where
  state : e.state = { s with initialized := generated.2 }
  error : ∀ r, generated.1 = .error r → e.result = r ∧ r ≠ .success
  ok : ∀ keys, generated.1 = .ok keys → e.result = .success ∧
    Memory.bytes e.memory .publicKey = keys.1.toList ∧
    Memory.bytes e.memory .privateKey = keys.2.toList
  passwords : ∀ b, b ≠ .publicKey → b ≠ .privateKey → e.memory (.inl b) = m (.inl b)

theorem generateKeypair_run (sodium : Sodium) (s : Host) (m : UserMemory) :
    ∃ e, Wiping.generateKeypair.run 0 (answer sodium) s m = some e ∧
      KeypairRun s m (Crypto.generateKeypair sodium s.initialized) e := by
  unfold Wiping.generateKeypair Crypto.generateKeypair
  rw [run_call, answer, Option.bind_some]
  dsimp only
  generalize initCryptoLibrary sodium s.initialized = ready
  by_cases hready : ready.1 ≠ .success
  · rw [if_pos hready, if_pos hready]
    refine ⟨_, rfl, rfl, fun r hr ↦ ?_, fun keys hkeys ↦ ?_, fun _ _ _ ↦ rfl⟩
    · obtain rfl := Except.error.inj hr
      exact ⟨rfl, hready⟩
    · cases hkeys
  · rw [if_neg hready, if_neg hready, run_call, answer, Option.bind_some]
    cases sodium.keypair with
    | none =>
      refine ⟨_, rfl, rfl, fun r hr ↦ ?_, fun keys hkeys ↦ ?_, fun b hpublic hprivate ↦ ?_⟩
      · obtain rfl := Except.error.inj hr
        exact ⟨rfl, fun he ↦ CchatError.noConfusion he⟩
      · cases hkeys
      · exact (Function.update_of_ne (fun heq ↦ hprivate (Sum.inl.inj heq)) _ _).trans
          (Function.update_of_ne (fun heq ↦ hpublic (Sum.inl.inj heq)) _ _)
    | some keys =>
      obtain ⟨m₁, hm₁, hpublic₁, hothers₁⟩ :=
        array_update m (.inl .publicKey) false keys.1.toList_length
      obtain ⟨m₂, hm₂, hprivate₂, hothers₂⟩ :=
        array_update m₁ (.inl .privateKey) true keys.2.toList_length
      subst hm₁ hm₂
      refine ⟨_, rfl, rfl, fun r hr ↦ ?_, fun keys' hkeys ↦ ?_, fun b hpublic hprivate ↦ ?_⟩
      · cases hr
      · obtain rfl := Except.ok.inj hkeys
        refine ⟨rfl, ?_, hprivate₂⟩
        exact (bytes_congr (hothers₂ (.inl .publicKey) (by decide))).trans hpublic₁
      · exact (hothers₂ _ (fun heq ↦ hprivate (Sum.inl.inj heq))).trans
          (hothers₁ _ (fun heq ↦ hpublic (Sum.inl.inj heq)))

theorem fgets_taken_length {size : ℕ} {buffer buffer' : Bytes} {t t' : Terminal}
    (h : fgets size buffer t = .taken buffer' t') (hbuffer : buffer.length = size)
    (hsize : 0 < size) : buffer'.length = size := by
  have hchunk : (t.typed.take (size - 1)).length ≤ size - 1 := List.length_take_le _ _
  have hline := (List.takeWhile_sublist (l := t.typed.take (size - 1))
    (fun b ↦ decide (b ≠ 0x0A))).length_le
  unfold fgets at h
  dsimp only at h
  split at h
  · obtain ⟨rfl, _⟩ := Fgets.taken.inj h
    simp only [List.length_append, List.length_cons, List.length_nil, List.length_drop]
    omega
  · split at h
    · obtain ⟨rfl, _⟩ := Fgets.taken.inj h
      simp only [List.length_append, List.length_cons, List.length_nil, List.length_drop]
      omega
    · split at h
      · cases h
      · cases h

theorem getPasswordInput_run (sodium : Sodium) (prompt : String) (array : UserArray)
    (harray : array.size = maxPasswordLen) (s : Host) (m : UserMemory) :
    match Registration.getPasswordInput prompt (m.bytes array) maxPasswordLen s.terminal with
    | (none, _) => (Wiping.getPasswordInput prompt array).run 0 (answer sodium) s m = none
    | (some buffer, t) => ∃ m' : UserMemory,
        (Wiping.getPasswordInput prompt array).run 0 (answer sodium) s m =
          some ⟨(), { s with terminal := t }, m'⟩ ∧
        m'.bytes array = buffer ∧ ∀ b ≠ .inl array, m' b = m b := by
  have hlength : (m.bytes array).length = maxPasswordLen :=
    (List.Vector.toList_length _).trans harray
  unfold Wiping.getPasswordInput Registration.getPasswordInput
  rw [run_get, run_call, answer]
  dsimp only
  unfold Memory.bytes at hlength ⊢
  cases hfgets : fgets maxPasswordLen (m (.inl array)).content.toList
      { s.terminal with prompts := s.terminal.prompts ++ [prompt] } with
  | taken buffer t =>
    have hbuffer : buffer.length = array.size :=
      (fgets_taken_length hfgets hlength (by decide)).trans harray.symm
    obtain ⟨m₁, hm₁, hline₁, hothers₁⟩ := array_update m (.inl array) true hbuffer
    have hcut : (buffer.set (strcspnNewline buffer) 0).length = array.size :=
      List.length_set.trans hbuffer
    obtain ⟨m₂, hm₂, hline₂, hothers₂⟩ := array_update m₁ (.inl array) true hcut
    dsimp only
    rw [Option.bind_some]
    dsimp only
    rw [run_putSecret, ← hm₁, if_pos rfl, run_get, hline₁]
    refine ⟨m₂, ?_, hline₂, fun b hb ↦ (hothers₂ b hb).trans (hothers₁ b hb)⟩
    rw [hm₂]
    rfl
  | endOfFile =>
    obtain ⟨m₁, hm₁, hline₁, hothers₁⟩ :=
      array_update m (.inl array) true (List.Vector.toList_length (m (.inl array)).content)
    subst hm₁
    exact ⟨_, rfl, hline₁, hothers₁⟩
  | blocked => rfl

theorem passwordsDiffer_run (sodium : Sodium) (s : Host) (m : UserMemory) :
    passwordsDiffer.run 0 (answer sodium) s m =
      some ⟨decide (cString (m.bytes .password) ≠ cString (m.bytes .confirmPassword)), s, m⟩ := rfl

theorem zero_update (m : UserMemory) (b : UserArray) :
    ∃ m' : UserMemory, m' = Function.update m (.inl b) ((m (.inl b)).wipe 0) ∧
      m'.bytes b = secureZeroMemory (m.bytes b) ∧ ∀ b' ≠ .inl b, m' b' = m b' := by
  refine ⟨_, rfl, ?_, fun b' hb ↦ Function.update_of_ne hb _ _⟩
  rw [Memory.bytes, Function.update_self, secureZeroMemory, Memory.bytes,
    List.Vector.toList_length]
  rfl

/-- The loop, for the turns that it is given: two wiped strings do not differ. -/
theorem passwordLoop_run (sodium : Sodium) (turns : ℕ) (s : Host) (m : UserMemory) :
    match Registration.passwordLoop turns (m.bytes .password) (m.bytes .confirmPassword)
        s.terminal with
    | .confirmed password confirm t => ∃ m' : UserMemory,
        (Wiping.passwordLoop turns).run 0 (answer sodium) s m =
          some ⟨(), { s with terminal := t }, m'⟩ ∧
        m'.bytes .password = password ∧ m'.bytes .confirmPassword = confirm ∧
        ∀ b, b ≠ .inl .password → b ≠ .inl .confirmPassword → m' b = m b
    | _ => (Wiping.passwordLoop turns).run 0 (answer sodium) s m = none := by
  cases turns with
  | zero => rfl
  | succ turns =>
    have hentered := getPasswordInput_run sodium "Enter password to encrypt your private key: "
      .password rfl s m
    rw [Wiping.passwordLoop, Registration.passwordLoop, run_bind]
    dsimp only
    generalize Registration.getPasswordInput "Enter password to encrypt your private key: "
      (m.bytes .password) maxPasswordLen s.terminal = entered at hentered ⊢
    obtain ⟨_ | password, t₁⟩ := entered
    · dsimp only at hentered ⊢
      rw [hentered]
      rfl
    obtain ⟨m₁, hrun₁, hpassword₁, hothers₁⟩ := hentered
    have hconfirm₁ : m₁.bytes .confirmPassword = m.bytes .confirmPassword :=
      bytes_congr (hothers₁ (.inl .confirmPassword) (by decide))
    have hrepeated := getPasswordInput_run sodium "Confirm password: " .confirmPassword rfl
      { s with terminal := t₁ } m₁
    dsimp only at hrepeated ⊢
    rw [hrun₁, Option.bind_some, run_bind]
    dsimp only
    rw [hconfirm₁] at hrepeated
    generalize Registration.getPasswordInput "Confirm password: " (m.bytes .confirmPassword)
      maxPasswordLen t₁ = repeated at hrepeated ⊢
    obtain ⟨_ | confirm, t₂⟩ := repeated
    · dsimp only at hrepeated ⊢
      rw [hrepeated]
      rfl
    obtain ⟨m₂, hrun₂, hconfirm₂, hothers₂⟩ := hrepeated
    have hpassword₂ : m₂.bytes .password = password :=
      (bytes_congr (hothers₂ (.inl .password) (by decide))).trans hpassword₁
    dsimp only
    rw [hrun₂, Option.bind_some, run_bind, passwordsDiffer_run, Option.bind_some]
    dsimp only
    rw [hpassword₂, hconfirm₂]
    have hothers : ∀ b, b ≠ .inl .password → b ≠ .inl .confirmPassword → m₂ b = m b :=
      fun b hpassword hconfirm ↦ (hothers₂ b hconfirm).trans (hothers₁ b hpassword)
    by_cases hdiffer : cString password ≠ cString confirm
    · obtain ⟨m₃, hm₃, hpassword₃, hothers₃⟩ := zero_update m₂ .password
      obtain ⟨m₄, hm₄, hconfirm₄, hothers₄⟩ := zero_update m₃ .confirmPassword
      have hpassword₄ : m₄.bytes .password = secureZeroMemory password := by
        rw [bytes_congr (hothers₄ (.inl .password) (by decide)), hpassword₃, hpassword₂]
      rw [bytes_congr (hothers₃ (.inl .confirmPassword) (by decide)), hconfirm₂] at hconfirm₄
      have hwiped : ¬ cString (secureZeroMemory password) ≠ cString (secureZeroMemory confirm) := by
        rw [cString_zeroed, cString_zeroed]
        exact not_not.mpr rfl
      rw [if_pos hdiffer, if_pos hdiffer, if_neg hwiped, if_pos (decide_eq_true hdiffer), run_zero,
        ← hm₃, run_zero, ← hm₄, run_bind, passwordsDiffer_run, hpassword₄, hconfirm₄,
        decide_eq_false hwiped]
      refine ⟨m₄, rfl, hpassword₄, hconfirm₄, fun b hpassword hconfirm ↦ ?_⟩
      rw [hothers₄ b hconfirm, hothers₃ b hpassword, hothers b hpassword hconfirm]
    · have hsame : ¬ decide (cString password ≠ cString confirm) = true := by
        rw [decide_eq_true_eq]
        exact hdiffer
      rw [if_neg hdiffer, if_neg hdiffer, if_neg hdiffer, if_neg hsame, run_bind,
        passwordsDiffer_run, hpassword₂, hconfirm₂, decide_eq_false hdiffer]
      exact ⟨m₂, rfl, hpassword₂, hconfirm₂, hothers⟩

def ComesTo (r : Registered) :
    Option (Ending CchatError Host UInt8 (Sum.elim UserArray.size KeyFileArray.size)) → Prop
  | none => r.result = none
  | some e => r.result = some e.result ∧ e.state.disk = r.disk ∧ e.state.terminal = r.terminal ∧
      e.state.client = r.client

theorem stat_iff (found : Bool) : (if found then (0 : ℤ) else -1) = 0 ↔ found = true := by
  cases found with
  | true => exact iff_of_true rfl rfl
  | false => exact iff_of_false (by decide) Bool.false_ne_true

theorem registerUser_run (hderives : DerivesKeys sodium) (turns : ℕ) (username : Bytes) (s : Host)
    (m : UserMemory) :
    ComesTo (Registration.registerUser sodium s.initialized turns s.disk s.terminal s.client
        (m.bytes .password) (m.bytes .confirmPassword) username)
      ((Wiping.registerUser turns username).run 0 (answer sodium) s m) := by
  unfold Wiping.registerUser Registration.registerUser
  rw [run_call, answer, Option.bind_some]
  cases s.disk.home with
  | none => exact ⟨rfl, rfl, rfl, rfl⟩
  | some home =>
    dsimp only
    rw [run_call, answer, Option.bind_some]
    simp only [pathLen_iff]
    by_cases hpath : (keysPath home username).length ≥ pathMax
    · rw [if_pos hpath, if_pos hpath]
      exact ⟨rfl, rfl, rfl, rfl⟩
    rw [if_neg hpath, if_neg hpath, run_call, answer, Option.bind_some]
    simp only [stat_iff]
    by_cases hfile : (s.disk.files (keysPath home username)).isSome = true
    · rw [if_pos hfile, if_pos hfile]
      exact ⟨rfl, rfl, rfl, rfl⟩
    rw [if_neg hfile, if_neg hfile, run_bind]
    obtain ⟨e₁, hrun₁, hkeypair⟩ := generateKeypair_run sodium s m
    rw [hrun₁, Option.bind_some]
    cases hgenerated : (Crypto.generateKeypair sodium s.initialized).1 with
    | error r =>
      obtain ⟨hresult, hfails⟩ := hkeypair.error r hgenerated
      rw [hresult, if_pos hfails, hkeypair.state]
      exact ⟨rfl, rfl, rfl, rfl⟩
    | ok keys =>
      obtain ⟨hresult, hpublic, hprivate⟩ := hkeypair.ok keys hgenerated
      have hpassword : Memory.bytes e₁.memory .password = m.bytes .password :=
        bytes_congr (hkeypair.passwords .password (by decide) (by decide))
      have hconfirm : Memory.bytes e₁.memory .confirmPassword = m.bytes .confirmPassword :=
        bytes_congr (hkeypair.passwords .confirmPassword (by decide) (by decide))
      have hloop := passwordLoop_run sodium turns e₁.state e₁.memory
      rw [hpassword, hconfirm, hkeypair.state] at hloop
      rw [hresult, if_neg (not_not.mpr rfl), hkeypair.state, run_bind]
      dsimp only at hloop ⊢
      generalize Registration.passwordLoop turns (m.bytes .password) (m.bytes .confirmPassword)
        s.terminal = asked at hloop ⊢
      cases asked with
      | unfinished =>
        dsimp only at hloop ⊢
        rw [hloop]
        rfl
      | waiting t =>
        dsimp only at hloop ⊢
        rw [hloop]
        rfl
      | confirmed password confirm t =>
        obtain ⟨m₂, hrun₂, hpassword₂, hconfirm₂, hothers₂⟩ := hloop
        obtain ⟨m₃, hm₃, _, hothers₃⟩ := zero_update m₂ .confirmPassword
        have hpublic₃ : m₃.bytes .publicKey = keys.1.toList := by
          rw [bytes_congr (hothers₃ (.inl .publicKey) (by decide)),
            bytes_congr (hothers₂ (.inl .publicKey) (by decide) (by decide)), hpublic]
        have hprivate₃ : m₃.bytes .privateKey = keys.2.toList := by
          rw [bytes_congr (hothers₃ (.inl .privateKey) (by decide)),
            bytes_congr (hothers₂ (.inl .privateKey) (by decide) (by decide)), hprivate]
        have hpassword₃ : m₃.bytes .password = password :=
          (bytes_congr (hothers₃ (.inl .password) (by decide))).trans hpassword₂
        dsimp only
        rw [hrun₂, Option.bind_some, run_zero, ← hm₃, run_bind]
        obtain ⟨e₄, hrun₄, hsaved⟩ := saveKeysToFile_run hderives
          { s with initialized := (Crypto.generateKeypair sodium s.initialized).2, terminal := t } m₃
          username hpublic₃ hprivate₃ hpassword₃
        have hpublic₄ : Memory.bytes e₄.memory .publicKey = keys.1.toList :=
          (bytes_congr (hsaved.caller .publicKey)).trans hpublic₃
        dsimp only at hsaved ⊢
        rw [hrun₄, Option.bind_some]
        generalize KeyFiles.saveKeysToFile sodium s.disk username keys.1 keys.2 (cString password) =
          saved at hsaved ⊢
        rw [hsaved.result]
        by_cases hfails : saved.result ≠ .success
        · rw [if_pos hfails, if_pos hfails]
          exact ⟨rfl, hsaved.disk, hsaved.terminal, hsaved.client⟩
        rw [if_neg hfails, if_neg hfails, run_call, answer, Option.bind_some, hsaved.client]
        dsimp only
        by_cases hconnected : (connectToServer s.client).1 = .success
        · rw [if_pos hconnected, if_pos hconnected, run_get, run_call]
          have hkey : Block.read publicKeySize
              (e₄.memory (.inl .publicKey)).content.toList = keys.1 := by
            have hread := Block.read_append keys.1 []
            rw [List.append_nil, ← hpublic₄] at hread
            exact hread
          rw [answer, Option.bind_some, hkey]
          exact ⟨rfl, hsaved.disk, hsaved.terminal, rfl⟩
        · rw [if_neg hconnected, if_neg hconnected]
          exact ⟨rfl, hsaved.disk, hsaved.terminal, rfl⟩

end CChat.Client.RegistrationRun
