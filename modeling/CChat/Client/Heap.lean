import CChat.Library.Custody

namespace CChat.Client.Heap

open CChat.Library CChat.Library.Custody

/-- What the client does with blocks of the heap and with streams. There is nowhere
to leave them but with who got them. -/
abbrev Routine (α : Type) : Type := Code Empty α

def free (h : ℕ) : Routine Unit := release h

def freeAny : Option ℕ → Routine Unit
  | none => return ()
  | some h => free h

def sendNetworkMessage (payload : Option ℕ) : Routine ℤ := do
  if ← either then return -1
  else
    useAny payload
    if ← either then return -1
    else return 0

def receiveNetworkMessage : Routine (Except ℤ (Option ℕ)) := do
  if ← either then return .error (-1)
  else
    if ← either then return .ok none
    else
      match ← acquire with
      | none => return .error (-1)
      | some payload =>
        use payload
        if ← either then
          free payload
          return .error (-1)
        else return .ok (some payload)

def sendRequest : Routine Bool := do
  if ← either then
    -- not connected, or an argument that is refused
    return false
  else
    match ← acquire with
    | none => return false
    | some payload =>
      use payload
      if (← sendNetworkMessage (some payload)) < 0 then
        free payload
        return false
      else
        free payload
        return true

def registerUserWithServer : Routine Bool := do
  if ← sendRequest then
    match ← receiveNetworkMessage with
    | .error _ => return false
    | .ok response =>
      if ← either then
        -- another response, or one that is too short
        freeAny response
        return false
      else
        useAny response
        freeAny response
        either
  else return false

def getUserPublicKey : Routine Bool := do
  if ← sendRequest then
    match ← receiveNetworkMessage with
    | .error _ => return false
    | .ok response =>
      if ← either then
        freeAny response
        return false
      else
        useAny response
        if ← either then
          -- not found, or too short for a key
          freeAny response
          return false
        else
          useAny response
          freeAny response
          return true
  else return false

def sendMessageToServer : Routine Bool := do
  if ← sendRequest then
    match ← receiveNetworkMessage with
    | .error _ => return false
    | .ok response =>
      if ← either then
        freeAny response
        return false
      else
        useAny response
        freeAny response
        either
  else return false

def disconnectFromServer : Routine Unit := discard (sendNetworkMessage none)

def getHomeDirectory : Routine (Option ℕ) := acquire

def createKeysDirectory : Routine Bool := do
  match ← getHomeDirectory with
  | none => return false
  | some homeDir =>
    use homeDir
    if ← either then
      -- the path is too long, or the directory cannot be made
      free homeDir
      return false
    else
      free homeDir
      return true

/-- Four `fwrite`s or `fread`s joined by `||`, and whether one is short. -/
def fourShort (file : ℕ) : ℕ → Routine Bool
  | 0 => return false
  | parts + 1 => do
    use file
    if ← either then return true
    else fourShort file parts

def saveKeysToFile : Routine Bool := do
  if ← createKeysDirectory then
    match ← getHomeDirectory with
    | none => return false
    | some homeDir =>
      use homeDir
      if ← either then
        -- the path is too long, no key is derived or nothing encrypted
        free homeDir
        return false
      else
        match ← acquire with
        | none =>
          free homeDir
          return false
        | some file =>
          if ← fourShort file 4 then
            release file
            free homeDir
            return false
          else
            release file
            free homeDir
            return true
  else return false

def loadKeysFromFile : Routine Bool := do
  match ← getHomeDirectory with
  | none => return false
  | some homeDir =>
    use homeDir
    if ← either then
      free homeDir
      return false
    else
      match ← acquire with
      | none =>
        free homeDir
        return false
      | some file =>
        if ← fourShort file 4 then
          release file
          free homeDir
          return false
        else
          release file
          free homeDir
          either

def registerUser : Routine Bool := do
  match ← getHomeDirectory with
  | none => return false
  | some homeDir =>
    use homeDir
    free homeDir
    if ← either then
      -- the path is too long, the user has a key file or no keys are generated
      return false
    else
      if ← saveKeysToFile then
        if ← either then
          discard registerUserWithServer
          disconnectFromServer
          return true
        else return true
      else return false

def loginUser : Routine Bool := loadKeysFromFile

def chatLoop : ℕ → Routine Unit
  | 0 => return ()
  | turns + 1 => do
    if ← either then
      -- the input ends
      return ()
    else
      if ← either then
        -- `/exit` was typed
        disconnectFromServer
      else
        if ← either then
          discard sendMessageToServer
          chatLoop turns
        else chatLoop turns

def startChat : Routine Unit := do
  if ← either then return ()
  else
    if ← loadKeysFromFile then
      if ← either then return ()
      else
        if ← getUserPublicKey then
          chatLoop (← someIndex)
          disconnectFromServer
        else disconnectFromServer
    else return ()

def runChatInterface : ℕ → Routine Unit
  | 0 => return ()
  | turns + 1 => do
    if ← either then return ()
    else
      if ← either then
        startChat
        runChatInterface turns
      else runChatInterface turns

def main : Routine Unit := do
  if ← either then return ()
  else
    if ← either then discard registerUser
    else
      if ← loginUser then runChatInterface (← someIndex)
      else return ()

variable {lent : List ℕ}

theorem freeAny_spends (h : Option ℕ) : Spends h.toList lent (freeAny h) := by
  cases h with
  | none => exact pure_keeps ()
  | some h => exact Turns.release List.not_mem_nil (pure_keeps ())

theorem sendNetworkMessage_keeps {payload : Option ℕ} (hpayload : ∀ h ∈ payload, h ∈ lent) :
    Keeps lent (sendNetworkMessage payload) := by
  refine .branch (pure_keeps _) (.keep (useAny_keeps hpayload) (fun _ ↦ ?_))
  exact .branch (pure_keeps _) (pure_keeps _)

theorem receiveNetworkMessage_turns : Turns [] lent arrived receiveNetworkMessage := by
  have hfails : ∀ result : ℤ, Turns [] lent arrived (pure (.error result) : Routine _) :=
    fun result ↦ @Turns.pure Empty _ lent arrived (.error result)
  refine .branch (hfails _) (.branch ?_ ?_)
  · exact @Turns.pure Empty _ lent arrived (.ok none)
  · refine .acquired (hfails _) (fun payload _ _ ↦ .use (.inl (by simp)) (.branch ?_ ?_))
    · exact .release List.not_mem_nil (hfails _)
    · exact @Turns.pure Empty _ lent arrived (.ok (some payload))

theorem sendRequest_keeps : Keeps lent sendRequest := by
  refine .branch (pure_keeps _) (.acquired (pure_keeps _) (fun payload _ _ ↦ ?_))
  refine .use (.inl (by simp)) (.keep (sendNetworkMessage_keeps (by simp)) (fun result ↦ ?_))
  split
  · exact .release List.not_mem_nil (pure_keeps _)
  · exact .release List.not_mem_nil (pure_keeps _)

theorem answer_keeps {handle : Option ℕ → Routine Bool}
    (hhandle : ∀ response, Spends response.toList lent (handle response)) :
    Keeps lent (do
      if ← sendRequest then
        match ← receiveNetworkMessage with
        | .error _ => return false
        | .ok response => handle response
      else return false) := by
  refine .keep sendRequest_keeps (fun sent ↦ ?_)
  cases sent with
  | false => exact pure_keeps false
  | true =>
    refine .receive receiveNetworkMessage_turns (fun message _ ↦ ?_)
    rw [List.append_nil]
    cases message with
    | error result => exact pure_keeps false
    | ok response => exact hhandle response

theorem read_spends {response : Option ℕ} {rest : Routine Bool}
    (hrest : Spends response.toList lent rest) :
    Spends response.toList lent (do useAny response; rest) := by
  refine .keep (useAny_keeps fun h hh ↦ ?_) (fun _ ↦ hrest)
  exact List.mem_append_left _ (Option.mem_toList.mpr hh)

theorem free_response {response : Option ℕ} {rest : Routine Bool} (hrest : Keeps lent rest) :
    Spends response.toList lent (do freeAny response; rest) :=
  .spend (freeAny_spends response) (fun _ ↦ hrest)

theorem registerUserWithServer_keeps : Keeps lent registerUserWithServer := by
  refine answer_keeps (fun response ↦ .branch (free_response (pure_keeps false)) ?_)
  exact read_spends (free_response either_keeps)

theorem getUserPublicKey_keeps : Keeps lent getUserPublicKey := by
  have hfails : ∀ response : Option ℕ, Spends response.toList lent (do
      freeAny response
      return false) := fun response ↦ free_response (pure_keeps false)
  refine answer_keeps (fun response ↦ .branch (hfails response) (read_spends ?_))
  exact .branch (hfails response) (read_spends (free_response (pure_keeps true)))

theorem sendMessageToServer_keeps : Keeps lent sendMessageToServer := by
  refine answer_keeps (fun response ↦ .branch (free_response (pure_keeps false)) ?_)
  exact read_spends (free_response either_keeps)

theorem disconnectFromServer_keeps : Keeps lent disconnectFromServer :=
  (sendNetworkMessage_keeps (by simp)).discard

theorem createKeysDirectory_keeps : Keeps lent createKeysDirectory := by
  refine .acquired (pure_keeps false) (fun homeDir _ _ ↦ .use (.inl (by simp)) (.branch ?_ ?_))
  · exact .release List.not_mem_nil (pure_keeps false)
  · exact .release List.not_mem_nil (pure_keeps true)

theorem fourShort_keeps {file : ℕ} (hfile : file ∈ lent) (parts : ℕ) :
    Keeps lent (fourShort file parts) := by
  induction parts with
  | zero => exact pure_keeps false
  | succ parts ih => exact .use (.inr hfile) (.branch (pure_keeps true) ih)

theorem close_and_free {file homeDir : ℕ} {rest : Routine Bool} (hnew : file ∉ [homeDir])
    (hrest : Keeps lent rest) : Spends [file, homeDir] lent (do
      release file
      free homeDir
      rest) :=
  Turns.release hnew (.release List.not_mem_nil hrest)

/-- Streams are opened, used and closed while the string of the path is held. -/
theorem stream_spends {homeDir : ℕ} {rest : Routine Bool} (hrest : Keeps lent rest) :
    Spends [homeDir] lent (do
      match ← acquire with
      | none =>
        free homeDir
        return false
      | some file =>
        if ← fourShort file 4 then
          release file
          free homeDir
          return false
        else
          release file
          free homeDir
          rest) := by
  refine .acquired (.release List.not_mem_nil (pure_keeps false)) (fun file hnew _ ↦ ?_)
  refine .keep (fourShort_keeps (by simp) 4) (fun short ↦ ?_)
  cases short with
  | true => exact close_and_free hnew (pure_keeps false)
  | false => exact close_and_free hnew hrest

theorem saveKeysToFile_keeps : Keeps lent saveKeysToFile := by
  refine .keep createKeysDirectory_keeps (fun created ↦ ?_)
  cases created with
  | false => exact pure_keeps false
  | true =>
    refine .acquired (pure_keeps false) (fun homeDir _ _ ↦ .use (.inl (by simp)) ?_)
    exact .branch (.release List.not_mem_nil (pure_keeps false)) (stream_spends (pure_keeps true))

theorem loadKeysFromFile_keeps : Keeps lent loadKeysFromFile := by
  refine .acquired (pure_keeps false) (fun homeDir _ _ ↦ .use (.inl (by simp)) ?_)
  exact .branch (.release List.not_mem_nil (pure_keeps false)) (stream_spends either_keeps)

theorem registerUser_keeps : Keeps lent registerUser := by
  refine .acquired (pure_keeps false) (fun homeDir _ _ ↦ .use (.inl (by simp)) ?_)
  refine .release List.not_mem_nil (.branch (pure_keeps false) ?_)
  refine .keep saveKeysToFile_keeps (fun saved ↦ ?_)
  cases saved with
  | false => exact pure_keeps false
  | true =>
    refine .branch (.keep registerUserWithServer_keeps.discard (fun _ ↦ ?_)) (pure_keeps true)
    exact .keep disconnectFromServer_keeps (fun _ ↦ pure_keeps true)

theorem chatLoop_keeps (turns : ℕ) : Keeps lent (chatLoop turns) := by
  induction turns with
  | zero => exact pure_keeps ()
  | succ turns ih =>
    refine .branch (pure_keeps ()) (.branch disconnectFromServer_keeps (.branch ?_ ih))
    exact .keep sendMessageToServer_keeps.discard (fun _ ↦ ih)

theorem startChat_keeps : Keeps lent startChat := by
  refine .branch (pure_keeps ()) (.keep loadKeysFromFile_keeps (fun loaded ↦ ?_))
  cases loaded with
  | false => exact pure_keeps ()
  | true =>
    refine .branch (pure_keeps ()) (.keep getUserPublicKey_keeps (fun found ↦ ?_))
    cases found with
    | false => exact disconnectFromServer_keeps
    | true =>
      refine .index (fun turns ↦ .keep (chatLoop_keeps turns) (fun _ ↦ ?_))
      exact disconnectFromServer_keeps

theorem runChatInterface_keeps (turns : ℕ) : Keeps lent (runChatInterface turns) := by
  induction turns with
  | zero => exact pure_keeps ()
  | succ turns ih =>
    refine .branch (pure_keeps ()) (.branch (.keep startChat_keeps (fun _ ↦ ih)) ih)

theorem main_keeps : Keeps lent main := by
  refine .branch (pure_keeps ()) (.branch registerUser_keeps.discard ?_)
  refine .keep loadKeysFromFile_keeps (fun loaded ↦ ?_)
  cases loaded with
  | false => exact pure_keeps ()
  | true => exact .index (fun turns ↦ runChatInterface_keeps turns)

def program (moves : List (Unit × ℕ)) : Crew Empty Unit := Runs.run step (start fun _ ↦ main) moves

/-- However its branches fall, the client uses and frees only what it has at that
moment, so it frees nothing twice; when `main` returns, every block is freed and
every stream closed. -/
theorem client_frees_all (moves : List (Unit × ℕ)) :
    Orderly (program moves).log ∧
      (Returned (program moves) () → ∀ h, Dead (program moves).log h) := by
  have hrun : Disciplined (program moves) := run_disciplined (fun _ ↦ main_keeps) moves
  refine ⟨hrun.booked.orderly, fun hreturned h ↦ hrun.booked.dead h ?_⟩
  cases hplace : (program moves).place h with
  | free => rfl
  | stored q => exact q.elim
  | held t => exact absurd hplace (hrun.returned hreturned h)

end CChat.Client.Heap
