import CChat.Library.Locking

namespace CChat.Threads.Mutexes

open CChat.Library CChat.Library.Locking

/-- The mutexes of `server_state_t` that the server's threads take at their
work: `running_mutex` is only taken for the shutdown. -/
inductive Mutex
  | users
  | clients
  | messageId
  | user (k : ℕ)
  | connection (i : ℕ)
  | queue (i : ℕ)
deriving DecidableEq

def sendNetworkMessage : Code Mutex ℤ := do
  if ← either then return 0
  else return -1

def sendError : Code Mutex ℤ := sendNetworkMessage

def refuse : Code Mutex ℤ := do
  discard sendError
  return -1

def findUser : Code Mutex (Option ℕ) := do
  lock .users
  if ← either then
    let k ← someIndex
    unlock .users
    return some k
  else
    unlock .users
    return none

def findClientByUsername : Code Mutex (Option ℕ) := do
  lock .clients
  if ← either then
    let j ← someIndex
    unlock .clients
    return some j
  else
    unlock .clients
    return none

def addUser : Code Mutex ℤ := do
  if ← either then return -1
  else
    lock .users
    if ← either then
      -- the table is full
      unlock .users
      return -1
    else
      if ← either then
        -- the name is taken
        unlock .users
        return -2
      else
        unlock .users
        return 0

def broadcastStatusUpdate : Code Mutex Unit := do
  if ← either then return ()
  else
    lock .clients
    unlock .clients
    return ()

def authenticateUser (i : ℕ) : Code Mutex ℤ := do
  match ← findUser with
  | none => return -1
  | some k =>
    if ← either then return -1
    else
      lock (.connection i)
      unlock (.connection i)
      lock (.user k)
      unlock (.user k)
      broadcastStatusUpdate
      return 0

def queueMessage : Code Mutex ℤ := do
  if ← either then return -1
  else
    match ← findClientByUsername with
    | none => return -1
    | some j =>
      lock (.queue j)
      if ← either then
        -- the queue is full
        unlock (.queue j)
        return -1
      else
        lock .messageId
        unlock .messageId
        if ← either then
          -- the allocation failed
          unlock (.queue j)
          return -1
        else
          unlock (.queue j)
          return 0

def deliverQueuedMessages (i : ℕ) : Code Mutex ℤ := do
  if ← either then return -1
  else
    lock (.queue i)
    let deliveredCount ← someIndex
    unlock (.queue i)
    return deliveredCount

def handleRegisterUser : Code Mutex ℤ := do
  if ← either then refuse
  else
    discard addUser
    sendNetworkMessage

def handleLoginUser (i : ℕ) : Code Mutex ℤ := do
  if ← either then refuse
  else
    if (← authenticateUser i) = 0 then
      discard (deliverQueuedMessages i)
      sendNetworkMessage
    else
      sendNetworkMessage

def handleGetPublicKey : Code Mutex ℤ := do
  if ← either then refuse
  else
    match ← findUser with
    | some k =>
      lock (.user k)
      unlock (.user k)
      sendNetworkMessage
    | none => sendNetworkMessage

def handleSendMessage : Code Mutex ℤ := do
  if ← either then refuse
  else
    match ← findUser with
    | none => refuse
    | some _ =>
      lock .messageId
      unlock .messageId
      match ← findClientByUsername with
      | some _ =>
        if ← either then
          -- no payload for the recipient could be allocated
          discard sendNetworkMessage
          return -1
        else
          if (← sendNetworkMessage) = 0 then
            sendNetworkMessage
          else
            discard queueMessage
            sendNetworkMessage
      | none =>
        discard queueMessage
        sendNetworkMessage

def handleGetMessages (i : ℕ) : Code Mutex ℤ := deliverQueuedMessages i

def handleSetStatus (i : ℕ) : Code Mutex ℤ := do
  if ← either then refuse
  else
    match ← findUser with
    | none => return 0
    | some k =>
      lock (.user k)
      unlock (.user k)
      lock (.connection i)
      unlock (.connection i)
      broadcastStatusUpdate
      return 0

def listEntry (k : ℕ) : Code Mutex Unit := do
  if ← either then
    lock (.user k)
    unlock (.user k)
    return ()
  else return ()

def handleListUsers : Code Mutex ℤ := do
  lock .users
  if ← either then
    unlock .users
    refuse
  else
    each listEntry (← someIndex)
    unlock .users
    sendNetworkMessage

def handleLogout (i : ℕ) : Code Mutex ℤ := do
  lock (.connection i)
  unlock (.connection i)
  return 0

def authenticatedOnly (handle : Code Mutex ℤ) : Code Mutex ℤ := do
  if ← either then sendError
  else handle

def dispatch (i : ℕ) : ℕ → Code Mutex ℤ
  | 0x01 => handleRegisterUser
  | 0x02 => handleLoginUser i
  | 0x03 => authenticatedOnly handleGetPublicKey
  | 0x04 => authenticatedOnly handleSendMessage
  | 0x05 => authenticatedOnly (handleGetMessages i)
  | 0x06 => authenticatedOnly (handleSetStatus i)
  | 0x07 => authenticatedOnly handleListUsers
  | 0x08 => handleLogout i
  | _ => sendError

def requests (i : ℕ) : ℕ → Code Mutex Unit
  | 0 => return ()
  | turns + 1 => do
    if ← either then return ()
    else
      discard (dispatch i (← someIndex))
      requests i turns

def goOffline : Code Mutex Unit := do
  if ← either then
    match ← findUser with
    | none => return ()
    | some k =>
      lock (.user k)
      unlock (.user k)
      broadcastStatusUpdate
  else return ()

def closingBlock (i : ℕ) : Code Mutex Unit := do
  lock (.connection i)
  goOffline
  lock (.queue i)
  unlock (.queue i)
  unlock (.connection i)
  return ()

def clientHandler (i : ℕ) : Code Mutex Unit := do
  requests i (← someIndex)
  closingBlock i

def acceptClient : Code Mutex Unit := do
  lock .clients
  if ← either then
    -- every slot is taken
    unlock .clients
    return ()
  else
    unlock .clients
    return ()

def acceptLoop : ℕ → Code Mutex Unit
  | 0 => return ()
  | turns + 1 => do
    if ← either then return ()
    else
      if ← either then acceptLoop turns
      else
        acceptClient
        acceptLoop turns

def rank : Mutex → ℕ
  | .connection _ => 0
  | .users => 1
  | .clients => 1
  | .user _ => 2
  | .queue _ => 2
  | .messageId => 3

theorem sendNetworkMessage_restores (n : ℕ) : Restores rank n sendNetworkMessage :=
  .branch (.pure n _) (.pure n _)

theorem refuse_restores (n : ℕ) : Restores rank n refuse :=
  (sendNetworkMessage_restores n).discard.bind (fun _ ↦ .pure n _)

theorem findUser_restores : Restores rank 1 findUser :=
  .locked le_rfl (.branch
    (.bind (.someIndex _) (fun _ ↦ .unlocked (.pure 1 _)))
    (.unlocked (.pure 1 _)))

theorem findClientByUsername_restores : Restores rank 1 findClientByUsername :=
  .locked le_rfl (.branch
    (.bind (.someIndex _) (fun _ ↦ .unlocked (.pure 1 _)))
    (.unlocked (.pure 1 _)))

theorem addUser_restores : Restores rank 1 addUser :=
  .branch (.pure 1 _) (.locked le_rfl
    (.branch (.unlocked (.pure 1 _)) (.branch (.unlocked (.pure 1 _)) (.unlocked (.pure 1 _)))))

theorem broadcastStatusUpdate_restores : Restores rank 1 broadcastStatusUpdate :=
  .branch (.pure 1 _) (.visited le_rfl (.pure 1 _))

theorem authenticateUser_restores (i : ℕ) : Restores rank 0 (authenticateUser i) := by
  refine (findUser_restores.mono (Nat.zero_le 1)).bind (fun found ↦ ?_)
  cases found with
  | none => exact .pure 0 _
  | some k =>
    refine .branch (.pure 0 _) (.visited le_rfl (.visited (Nat.zero_le _) ?_))
    exact (broadcastStatusUpdate_restores.mono (Nat.zero_le 1)).bind (fun _ ↦ .pure 0 _)

theorem queueMessage_restores : Restores rank 1 queueMessage := by
  refine .branch (.pure 1 _) (findClientByUsername_restores.bind (fun found ↦ ?_))
  cases found with
  | none => exact .pure 1 _
  | some j =>
    refine .locked (Nat.le_succ 1) (.branch (.unlocked (.pure 1 _)) ?_)
    refine .visited (Nat.lt_succ_self 2) ?_
    exact .branch (.unlocked (.pure 1 _)) (.unlocked (.pure 1 _))

theorem deliverQueuedMessages_restores (i : ℕ) : Restores rank 2 (deliverQueuedMessages i) :=
  .branch (.pure 2 _) (.locked le_rfl
    (.bind (.someIndex _) (fun _ ↦ .unlocked (.pure 2 _))))

theorem handleRegisterUser_restores : Restores rank 0 handleRegisterUser :=
  .branch (refuse_restores 0) ((addUser_restores.mono (Nat.zero_le 1)).discard.bind
    (fun _ ↦ sendNetworkMessage_restores 0))

theorem handleLoginUser_restores (i : ℕ) : Restores rank 0 (handleLoginUser i) := by
  refine .branch (refuse_restores 0) ((authenticateUser_restores i).bind (fun result ↦ ?_))
  split
  · exact ((deliverQueuedMessages_restores i).mono (Nat.zero_le 2)).discard.bind
      (fun _ ↦ sendNetworkMessage_restores 0)
  · exact sendNetworkMessage_restores 0

theorem handleGetPublicKey_restores : Restores rank 0 handleGetPublicKey := by
  refine .branch (refuse_restores 0) ((findUser_restores.mono (Nat.zero_le 1)).bind
    (fun found ↦ ?_))
  cases found with
  | none => exact sendNetworkMessage_restores 0
  | some k => exact .visited (Nat.zero_le _) (sendNetworkMessage_restores 0)

theorem handleSendMessage_restores : Restores rank 0 handleSendMessage := by
  have hqueued : Restores rank 0 (do discard queueMessage; sendNetworkMessage) :=
    (queueMessage_restores.mono (Nat.zero_le 1)).discard.bind
      (fun _ ↦ sendNetworkMessage_restores 0)
  refine .branch (refuse_restores 0) ((findUser_restores.mono (Nat.zero_le 1)).bind
    (fun found ↦ ?_))
  cases found with
  | none => exact refuse_restores 0
  | some k =>
    refine .visited (Nat.zero_le _) ((findClientByUsername_restores.mono (Nat.zero_le 1)).bind
      (fun recipient ↦ ?_))
    cases recipient with
    | none => exact hqueued
    | some j =>
      refine .branch ((sendNetworkMessage_restores 0).discard.bind (fun _ ↦ .pure 0 _))
        ((sendNetworkMessage_restores 0).bind (fun result ↦ ?_))
      split
      · exact sendNetworkMessage_restores 0
      · exact hqueued

theorem handleSetStatus_restores (i : ℕ) : Restores rank 0 (handleSetStatus i) := by
  refine .branch (refuse_restores 0) ((findUser_restores.mono (Nat.zero_le 1)).bind
    (fun found ↦ ?_))
  cases found with
  | none => exact .pure 0 _
  | some k =>
    refine .visited (Nat.zero_le _) (.visited le_rfl ?_)
    exact (broadcastStatusUpdate_restores.mono (Nat.zero_le 1)).bind (fun _ ↦ .pure 0 _)

theorem handleListUsers_restores : Restores rank 0 handleListUsers := by
  have hentry : ∀ k, Restores rank 2 (listEntry k) := fun k ↦
    .branch (.visited le_rfl (.pure 2 _)) (.pure 2 _)
  refine .locked (Nat.zero_le 1) (.branch (.unlocked (refuse_restores 0)) (.bind (.someIndex 2) ?_))
  exact fun n ↦ .bind (.each hentry n) (fun _ ↦ .unlocked (sendNetworkMessage_restores 0))

theorem handleLogout_restores (i : ℕ) : Restores rank 0 (handleLogout i) :=
  .visited le_rfl (.pure 0 _)

theorem authenticatedOnly_restores {handle : Code Mutex ℤ} (h : Restores rank 0 handle) :
    Restores rank 0 (authenticatedOnly handle) := .branch (sendNetworkMessage_restores 0) h

theorem dispatch_restores (i type : ℕ) : Restores rank 0 (dispatch i type) := by
  unfold dispatch
  split
  · exact handleRegisterUser_restores
  · exact handleLoginUser_restores i
  · exact authenticatedOnly_restores handleGetPublicKey_restores
  · exact authenticatedOnly_restores handleSendMessage_restores
  · exact authenticatedOnly_restores ((deliverQueuedMessages_restores i).mono (Nat.zero_le 2))
  · exact authenticatedOnly_restores (handleSetStatus_restores i)
  · exact authenticatedOnly_restores handleListUsers_restores
  · exact handleLogout_restores i
  · exact sendNetworkMessage_restores 0

theorem requests_restores (i turns : ℕ) : Restores rank 0 (requests i turns) := by
  induction turns with
  | zero => exact .pure 0 _
  | succ turns ih =>
    refine .branch (.pure 0 _) (.bind (.someIndex 0) (fun type ↦ ?_))
    exact (dispatch_restores i type).discard.bind (fun _ ↦ ih)

theorem goOffline_restores : Restores rank 1 goOffline := by
  refine .branch (findUser_restores.bind (fun found ↦ ?_)) (.pure 1 _)
  cases found with
  | none => exact .pure 1 _
  | some k => exact .visited (Nat.le_succ 1) broadcastStatusUpdate_restores

theorem closingBlock_restores (i : ℕ) : Restores rank 0 (closingBlock i) :=
  .locked le_rfl (.bind goOffline_restores
    (fun _ ↦ .visited Nat.two_pos (.unlocked (.pure 0 _))))

theorem clientHandler_restores (i : ℕ) : Restores rank 0 (clientHandler i) :=
  .bind (.someIndex 0) (fun turns ↦
    (requests_restores i turns).bind (fun _ ↦ closingBlock_restores i))

theorem acceptClient_restores : Restores rank 1 acceptClient :=
  .locked le_rfl (.branch (.unlocked (.pure 1 _)) (.unlocked (.pure 1 _)))

theorem acceptLoop_restores (turns : ℕ) : Restores rank 0 (acceptLoop turns) := by
  induction turns with
  | zero => exact .pure 0 _
  | succ turns ih =>
    refine .branch (.pure 0 _) (.branch ih ?_)
    exact (acceptClient_restores.mono (Nat.zero_le 1)).bind (fun _ ↦ ih)

/-- What a thread may be at: one request, a closing block, a whole handler, one
accepted connection or the whole accept loop. -/
inductive Task
  | request (i type : ℕ)
  | closing (i : ℕ)
  | handler (i : ℕ)
  | accepting
  | accepts (turns : ℕ)

def Task.code : Task → Code Mutex Unit
  | .request i type => discard (dispatch i type)
  | .closing i => closingBlock i
  | .handler i => clientHandler i
  | .accepting => acceptClient
  | .accepts turns => acceptLoop turns

theorem Task.code_restores (task : Task) : Restores rank 0 task.code := by
  cases task with
  | request i type => exact (dispatch_restores i type).discard
  | closing i => exact closingBlock_restores i
  | handler i => exact clientHandler_restores i
  | accepting => exact acceptClient_restores.mono (Nat.zero_le 1)
  | accepts turns => exact acceptLoop_restores turns

variable {ι : Type} [DecidableEq ι]

def launch (tasks : ι → Task) : Crew ι Mutex := start (fun t ↦ (tasks t).code)

theorem launch_disciplined (tasks : ι → Task) (moves : List (ι × ℕ)) :
    Disciplined rank (Runs.run step (launch tasks) moves) :=
  run_disciplined (fun t ↦ (tasks t).code_restores) moves

/-- However many threads there are and however their steps fall, none waits for
itself through a chain of mutexes, and each returns without a mutex. -/
theorem never_deadlocked (tasks : ι → Task) (moves : List (ι × ℕ)) :
    ¬ Deadlocked (Runs.run step (launch tasks) moves) ∧
      ∀ t, Returned (Runs.run step (launch tasks) moves) t →
        HoldsNothing (Runs.run step (launch tasks) moves) t := by
  have h := launch_disciplined tasks moves
  exact ⟨h.not_deadlocked, fun _ ht ↦ h.returned ht⟩

/-- A logout waits for the mutex that a closing block of its slot holds. -/
example : Waits (Runs.run step
    (launch fun t : Bool ↦ if t then .request 0 0x08 else .closing 0) [(false, 0)]) true false :=
  ⟨.connection 0, _, rfl, rfl⟩

/-- As long as one of finitely many threads has not returned, one of those can
take its next step. -/
theorem thread_proceeds [Finite ι] (tasks : ι → Task) (moves : List (ι × ℕ)) {t : ι}
    (ht : ¬ Returned (Runs.run step (launch tasks) moves) t) :
    ∃ u, ¬ Returned (Runs.run step (launch tasks) moves) u ∧
      ∀ v, ¬ Waits (Runs.run step (launch tasks) moves) u v :=
  Disciplined.proceeds (launch_disciplined tasks moves) ht

end CChat.Threads.Mutexes
