import CChat.Library.Custody

namespace CChat.Threads.Heap

open CChat.Library CChat.Library.Custody

/-- What a thread does with the blocks that it allocates for itself. It may leave one
in the queue of a slot; what the entries of the queues hold is no thread's own, and
where it is read or freed is not part of this. -/
abbrev Routine (α : Type) : Type := Code ℕ α

def sendNetworkMessage (payload : Option ℕ) : Routine ℤ := do
  if ← either then return -1
  else
    useAny payload
    if ← either then return -1
    else return 0

def sendError : Routine ℤ := do
  match ← acquire with
  | none => return -1
  | some payload =>
    use payload
    let result ← sendNetworkMessage (some payload)
    use payload
    release payload
    return result

def refuse : Routine ℤ := do
  discard sendError
  return -1

def receiveNetworkMessage : Routine (Except ℤ (Option ℕ)) := do
  if ← either then
    -- the header is missing or announces too much
    if ← either then return .error (-2)
    else return .error (-1)
  else
    if ← either then return .ok none
    else
      match ← acquire with
      | none => return .error (-1)
      | some payload =>
        use payload
        if ← either then
          release payload
          return .error (-1)
        else return .ok (some payload)

def freeNetworkMessage : Option ℕ → Routine Unit
  | none => return ()
  | some payload => do
    use payload
    release payload

def broadcastStatusUpdate : Routine Unit := do
  match ← acquire with
  | none => return ()
  | some payload =>
    use payload
    each (fun _ ↦ discard (sendNetworkMessage (some payload))) (← someIndex)
    use payload
    release payload

def authenticateUser (signature : ℕ) : Routine ℤ := do
  if ← either then return -1
  else
    use signature
    if ← either then return -1
    else
      broadcastStatusUpdate
      return 0

/-- `queue_message` of data inside this block. The copy is given to the queue of the
recipient's slot. -/
def queueMessage (encryptedData : ℕ) : Routine ℤ := do
  if ← either then
    -- there is no such recipient, or the queue is full
    return -1
  else
    match ← acquire with
    | none => return -1
    | some copy =>
      use encryptedData
      use copy
      give (← someIndex) copy
      return 0

/-- One turn of the loop of `deliver_queued_messages`, and whether it goes on. -/
def deliverTurn : Routine Bool := do
  if ← either then
    -- the entry was delivered before
    return true
  else
    match ← acquire with
    | none => return false
    | some payload =>
      use payload
      let result ← sendNetworkMessage (some payload)
      use payload
      release payload
      return result = 0

def deliverLoop : ℕ → Routine Unit
  | 0 => return ()
  | turns + 1 => do
    if ← deliverTurn then deliverLoop turns
    else return ()

def deliverQueuedMessages : Routine ℤ := do
  if ← either then return -1
  else
    deliverLoop (← someIndex)
    return (← someIndex)

/-- A handler of `message_handlers.c` that first wants a payload. -/
def withPayload (handle : ℕ → Routine ℤ) : Option ℕ → Routine ℤ
  | none => refuse
  | some payload => do
    use payload
    if ← either then refuse
    else handle payload

def handleRegisterUser : Option ℕ → Routine ℤ :=
  withPayload fun payload ↦ do
    use payload
    sendNetworkMessage none

def handleLoginUser : Option ℕ → Routine ℤ :=
  withPayload fun payload ↦ do
    if (← authenticateUser payload) = 0 then
      discard deliverQueuedMessages
      sendNetworkMessage none
    else sendNetworkMessage none

def handleGetPublicKey : Option ℕ → Routine ℤ := withPayload fun _ ↦ sendNetworkMessage none

def handleSendMessage : Option ℕ → Routine ℤ :=
  withPayload fun payload ↦ do
    if ← either then refuse
    else
      if ← either then
        -- the recipient has a connection
        match ← acquire with
        | none =>
          discard (sendNetworkMessage none)
          return -1
        | some messagePayload =>
          use messagePayload
          use payload
          if (← sendNetworkMessage (some messagePayload)) = 0 then
            use messagePayload
            release messagePayload
            sendNetworkMessage none
          else
            discard (queueMessage payload)
            use messagePayload
            release messagePayload
            sendNetworkMessage none
      else
        discard (queueMessage payload)
        sendNetworkMessage none

def handleGetMessages : Routine ℤ := deliverQueuedMessages

def handleSetStatus : Option ℕ → Routine ℤ :=
  withPayload fun _ ↦ do
    if ← either then
      broadcastStatusUpdate
      return 0
    else return 0

def handleListUsers : Routine ℤ := do
  match ← acquire with
  | none => refuse
  | some response =>
    each (fun _ ↦ use response) (← someIndex)
    use response
    let result ← sendNetworkMessage (some response)
    use response
    release response
    return result

def authenticatedOnly (handle : Routine ℤ) : Routine ℤ := do
  if ← either then sendError
  else handle

def dispatch (payload : Option ℕ) : ℕ → Routine ℤ
  | 0x01 => handleRegisterUser payload
  | 0x02 => handleLoginUser payload
  | 0x03 => authenticatedOnly (handleGetPublicKey payload)
  | 0x04 => authenticatedOnly (handleSendMessage payload)
  | 0x05 => authenticatedOnly handleGetMessages
  | 0x06 => authenticatedOnly (handleSetStatus payload)
  | 0x07 => authenticatedOnly handleListUsers
  | 0x08 => return 0
  | _ => sendError

def requests : ℕ → Routine Unit
  | 0 => return ()
  | turns + 1 => do
    if ← either then return ()
    else
      match ← receiveNetworkMessage with
      | .error _ => return ()
      | .ok payload =>
        if ← either then
          -- above the rate limit
          discard sendError
          freeNetworkMessage payload
        else
          discard (dispatch payload (← someIndex))
          freeNetworkMessage payload
          requests turns

def closingBlock : Routine Unit := do
  if ← either then broadcastStatusUpdate
  else return ()

def clientHandler : Routine Unit := do
  requests (← someIndex)
  closingBlock

variable {lent : List ℕ}

theorem sendNetworkMessage_keeps {payload : Option ℕ} (hpayload : ∀ h ∈ payload, h ∈ lent) :
    Keeps lent (sendNetworkMessage payload) := by
  refine .branch (pure_keeps _) (.keep (useAny_keeps hpayload) (fun _ ↦ ?_))
  exact .branch (pure_keeps _) (pure_keeps _)

theorem sendResponse_keeps : Keeps lent (sendNetworkMessage none) :=
  sendNetworkMessage_keeps (by simp)

theorem sendError_keeps : Keeps lent sendError := by
  refine .acquired (pure_keeps _) (fun payload _ _ ↦ .use (.inl (by simp)) ?_)
  refine .keep (sendNetworkMessage_keeps (by simp)) (fun result ↦ .use (.inl (by simp)) ?_)
  exact .release List.not_mem_nil (pure_keeps result)

theorem refuse_keeps : Keeps lent refuse := .keep (sendError_keeps.discard) (fun _ ↦ pure_keeps _)

theorem receiveNetworkMessage_turns : Turns [] lent arrived receiveNetworkMessage := by
  have hfails : ∀ result : ℤ, Turns [] lent arrived (pure (.error result) : Routine _) :=
    fun result ↦ @Turns.pure ℕ _ lent arrived (.error result)
  refine .branch (.branch (hfails _) (hfails _)) (.branch ?_ ?_)
  · exact @Turns.pure ℕ _ lent arrived (.ok none)
  · refine .acquired (hfails _) (fun payload _ _ ↦ .use (.inl (by simp)) (.branch ?_ ?_))
    · exact .release List.not_mem_nil (hfails _)
    · exact @Turns.pure ℕ _ lent arrived (.ok (some payload))

theorem freeNetworkMessage_spends (payload : Option ℕ) :
    Spends payload.toList lent (freeNetworkMessage payload) := by
  cases payload with
  | none => exact pure_keeps ()
  | some payload =>
    exact Turns.use (.inl (by simp)) (Turns.release List.not_mem_nil (pure_keeps ()))

theorem broadcastStatusUpdate_keeps : Keeps lent broadcastStatusUpdate := by
  refine .acquired (pure_keeps _) (fun payload _ _ ↦ .use (.inl (by simp)) (.index (fun n ↦ ?_)))
  have hsend : Keeps ([payload] ++ lent) (discard (sendNetworkMessage (some payload))) :=
    (sendNetworkMessage_keeps (by simp)).discard
  refine .keep (Keeps.each (fun _ ↦ hsend) n) (fun _ ↦ .use (.inl (by simp)) ?_)
  exact .release List.not_mem_nil (pure_keeps ())

theorem authenticateUser_keeps {signature : ℕ} (hlent : signature ∈ lent) :
    Keeps lent (authenticateUser signature) := by
  refine .branch (pure_keeps _) (.use (.inr hlent) (.branch (pure_keeps _) ?_))
  exact .keep broadcastStatusUpdate_keeps (fun _ ↦ pure_keeps _)

theorem queueMessage_keeps {encryptedData : ℕ} (hlent : encryptedData ∈ lent) :
    Keeps lent (queueMessage encryptedData) := by
  refine .branch (pure_keeps _) (.acquired (pure_keeps _) (fun copy _ _ ↦ ?_))
  refine .use (.inr hlent) (.use (.inl (by simp)) ?_)
  exact .index (fun _ ↦ .give List.not_mem_nil (pure_keeps _))

theorem deliverTurn_keeps : Keeps lent deliverTurn := by
  refine .branch (pure_keeps _) (.acquired (pure_keeps _) (fun payload _ _ ↦ ?_))
  refine .use (.inl (by simp)) (.keep (sendNetworkMessage_keeps (by simp)) (fun result ↦ ?_))
  exact .use (.inl (by simp)) (.release List.not_mem_nil (pure_keeps _))

theorem deliverLoop_keeps (turns : ℕ) : Keeps lent (deliverLoop turns) := by
  induction turns with
  | zero => exact pure_keeps ()
  | succ turns ih =>
    refine .keep deliverTurn_keeps (fun goesOn ↦ ?_)
    cases goesOn with
    | true => exact ih
    | false => exact pure_keeps ()

theorem deliverQueuedMessages_keeps : Keeps lent deliverQueuedMessages := by
  refine .branch (pure_keeps _) (.index (fun n ↦ .keep (deliverLoop_keeps n) (fun _ ↦ ?_)))
  exact .index (fun _ ↦ pure_keeps _)

theorem withPayload_keeps {handle : ℕ → Routine ℤ} (hhandle : ∀ h, Keeps [h] (handle h))
    (payload : Option ℕ) : Keeps payload.toList (withPayload handle payload) := by
  cases payload with
  | none => exact refuse_keeps
  | some payload => exact Turns.use (.inr (by simp)) (.branch refuse_keeps (hhandle payload))

theorem handleRegisterUser_keeps (payload : Option ℕ) :
    Keeps payload.toList (handleRegisterUser payload) :=
  withPayload_keeps (fun _ ↦ Turns.use (.inr (by simp)) (sendResponse_keeps)) payload

theorem handleLoginUser_keeps (payload : Option ℕ) :
    Keeps payload.toList (handleLoginUser payload) := by
  refine withPayload_keeps (fun h ↦ .keep (authenticateUser_keeps (by simp)) (fun result ↦ ?_))
    payload
  split
  · exact .keep deliverQueuedMessages_keeps.discard (fun _ ↦ sendResponse_keeps)
  · exact sendResponse_keeps

theorem handleGetPublicKey_keeps (payload : Option ℕ) :
    Keeps payload.toList (handleGetPublicKey payload) :=
  withPayload_keeps (fun _ ↦ sendResponse_keeps) payload

theorem handleSendMessage_keeps (payload : Option ℕ) :
    Keeps payload.toList (handleSendMessage payload) := by
  refine withPayload_keeps (fun h ↦ .branch refuse_keeps (.branch (.acquired ?_ ?_) ?_)) payload
  · exact .keep (sendResponse_keeps).discard (fun _ ↦ pure_keeps _)
  · intro messagePayload _ _
    refine .use (.inl (by simp)) (.use (.inr (by simp)) ?_)
    refine .keep (sendNetworkMessage_keeps (by simp)) (fun result ↦ ?_)
    have hends : Spends [messagePayload] [h] (do
        use messagePayload
        release messagePayload
        sendNetworkMessage none) :=
      Turns.use (.inl (by simp)) (.release List.not_mem_nil (sendResponse_keeps))
    split
    · exact hends
    · exact .keep (queueMessage_keeps (by simp)).discard (fun _ ↦ hends)
  · exact .keep (queueMessage_keeps (by simp)).discard (fun _ ↦ sendResponse_keeps)

theorem handleSetStatus_keeps (payload : Option ℕ) :
    Keeps payload.toList (handleSetStatus payload) := by
  refine withPayload_keeps (fun _ ↦ .branch ?_ (pure_keeps _)) payload
  exact .keep broadcastStatusUpdate_keeps (fun _ ↦ pure_keeps _)

theorem handleListUsers_keeps : Keeps lent handleListUsers := by
  refine .acquired refuse_keeps (fun response _ _ ↦ .index (fun n ↦ ?_))
  have hwrite : Keeps ([response] ++ lent) (use response : Routine Unit) :=
    Turns.use (.inr (by simp)) (pure_keeps ())
  refine .keep (Keeps.each (fun _ ↦ hwrite) n) (fun _ ↦ .use (.inl (by simp)) ?_)
  refine .keep (sendNetworkMessage_keeps (by simp)) (fun result ↦ .use (.inl (by simp)) ?_)
  exact .release List.not_mem_nil (pure_keeps result)

theorem authenticatedOnly_keeps {handle : Routine ℤ} (hhandle : Keeps lent handle) :
    Keeps lent (authenticatedOnly handle) := .branch sendError_keeps hhandle

theorem dispatch_keeps (payload : Option ℕ) (type : ℕ) :
    Keeps payload.toList (dispatch payload type) := by
  unfold dispatch
  split
  · exact handleRegisterUser_keeps payload
  · exact handleLoginUser_keeps payload
  · exact authenticatedOnly_keeps (handleGetPublicKey_keeps payload)
  · exact authenticatedOnly_keeps (handleSendMessage_keeps payload)
  · exact authenticatedOnly_keeps deliverQueuedMessages_keeps
  · exact authenticatedOnly_keeps (handleSetStatus_keeps payload)
  · exact authenticatedOnly_keeps handleListUsers_keeps
  · exact pure_keeps 0
  · exact sendError_keeps

theorem requests_keeps (turns : ℕ) : Keeps [] (requests turns) := by
  induction turns with
  | zero => exact pure_keeps ()
  | succ turns ih =>
    refine .branch (pure_keeps ()) (.receive receiveNetworkMessage_turns (fun message _ ↦ ?_))
    cases message with
    | error result => exact pure_keeps ()
    | ok payload =>
      have hdispatch : ∀ type, Keeps (payload.toList ++ []) (discard (dispatch payload type)) :=
        fun type ↦ Turns.mono (dispatch_keeps payload type).discard
          (List.subset_append_left _ _)
      rw [arrived, List.append_nil]
      refine .branch ?_ (.index (fun type ↦ .keep (hdispatch type) (fun _ ↦ ?_)))
      · exact .keep sendError_keeps.discard (fun _ ↦ freeNetworkMessage_spends payload)
      · exact .spend (freeNetworkMessage_spends payload) (fun _ ↦ ih)

theorem closingBlock_keeps : Keeps [] closingBlock :=
  .branch broadcastStatusUpdate_keeps (pure_keeps ())

theorem clientHandler_keeps : Keeps [] clientHandler :=
  Turns.index (fun turns ↦ Turns.keep (requests_keeps turns) (fun _ ↦ closingBlock_keeps))

variable {ι : Type} [DecidableEq ι]

def handlers (moves : List (ι × ℕ)) : Crew ℕ ι :=
  Runs.run step (start fun _ : ι ↦ clientHandler) moves

/-- However the handlers' steps fall, no block is used or freed that is not allocated
at that moment, so none is freed twice; a handler that has returned holds none, and
when all have, what is still allocated are the copies left in the queues. -/
theorem blocks_freed_once (moves : List (ι × ℕ)) :
    Orderly (handlers moves).log ∧
      (∀ t, Returned (handlers moves) t → ∀ h, (handlers moves).place h ≠ .held t) ∧
      ((∀ t, Returned (handlers moves) t) →
        ∀ h, Live (handlers moves).log h ↔ ∃ i, (handlers moves).place h = .stored i) := by
  have hrun : Disciplined (handlers moves) := run_disciplined (fun _ ↦ clientHandler_keeps) moves
  exact ⟨hrun.booked.orderly, fun _ ht ↦ hrun.returned ht, hrun.settled⟩

/-- Without a request, a handler that was logged in frees the block it tells the
others with. -/
example : (handlers [((), 0), ((), 1), ((), 1), ((), 0), ((), 0), ((), 0), ((), 0)]).log =
    [.acquired 0, .used 0, .used 0, .released 0] := rfl

end CChat.Threads.Heap
