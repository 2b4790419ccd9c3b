import CChat.Server.Handlers

namespace CChat.Server.Pushes

open CChat.Library.Circular CChat.Protocol.Types State Network Users Queue Handlers

/-- A relation between worlds that the operations behind the requests keep as
long as they log nobody in, write no record and answer nothing: they allocate,
look at the clock, draw ids, push frames and change rings. -/
structure Neutral (R : World → World → Prop) : Prop where
  refl : ∀ w, R w w
  trans : ∀ {u v w}, R u v → R v w → R u w
  alloc : ∀ w, R w (malloc w).2
  clock : ∀ w, R w (time w).2
  draw : ∀ w, R w (drawMessageId w).2
  pushed : ∀ w fd type payload entry, type = .incomingMessage ∨ type = .statusUpdate →
    R w (sendNetworkMessage w fd type payload entry).2
  requeue : ∀ w j (q : ClientConnection → Buffer StoredMessage),
    R w (w.modifyClient j (fun c ↦ { c with queue := q c }))
  queued : ∀ w m, R w (w.emit (.queued m))

variable {R : World → World → Prop}

theorem Neutral.broadcastLoop (h : Neutral R) (username : Username) (payload : Bytes)
    (is : List ℕ) (w : World) : R w (broadcastLoop username payload is w) := by
  induction is generalizing w with
  | nil => exact h.refl w
  | cons j is ih =>
    rw [Users.broadcastLoop]
    split
    · exact h.trans (h.pushed w _ _ payload none (.inr rfl)) (ih _)
    · exact ih w

theorem Neutral.broadcast (h : Neutral R) (w : World) (username : Username) (status : UserStatus) :
    R w (broadcastStatusUpdate w username status) := by
  unfold broadcastStatusUpdate
  dsimp only
  split
  · exact h.alloc w
  · exact h.trans (h.alloc w) (h.broadcastLoop _ _ _ _)

theorem Neutral.deliverLoop (h : Neutral R) (i n : ℕ) (delivered : ℤ) (w : World) :
    R w (deliverLoop i n delivered w).2 := by
  induction n generalizing delivered w with
  | zero => exact h.refl w
  | succ n ih =>
    rw [Queue.deliverLoop]
    dsimp only
    split
    · split
      · exact h.trans (h.requeue w i _) (ih _ _)
      · split
        · exact h.alloc w
        · have hsent := h.trans (h.alloc w) (h.pushed _ (w.server.clients i).socketFd
            .incomingMessage
            (queuedPayload ((w.server.clients i).queue.cells (w.server.clients i).queue.head))
            (some ((w.server.clients i).queue.cells (w.server.clients i).queue.head)) (.inl rfl))
          split
          · exact h.trans hsent (h.trans (h.requeue _ i _) (ih _ _))
          · exact hsent
    · exact h.refl w

theorem Neutral.deliverQueuedMessages (h : Neutral R) (w : World) (i : ℕ) :
    R w (deliverQueuedMessages w i).2 := by
  unfold Queue.deliverQueuedMessages
  split
  · exact h.refl w
  · exact h.deliverLoop i _ _ w

theorem Neutral.queueMessage (h : Neutral R) (w : World) (recipient sender : Username)
    (data : Bytes) : R w (queueMessage w recipient sender data).2 := by
  unfold Queue.queueMessage
  split
  · exact h.refl w
  · split
    · exact h.refl w
    next j _ =>
      split
      · exact h.refl w
      · have hroom := h.trans (h.trans (h.draw w) (h.clock _)) (h.alloc _)
        dsimp only
        split
        · exact h.trans hroom (h.requeue _ j (fun c ↦ writeTail c.queue _))
        · exact h.trans hroom (h.trans (h.requeue _ j (fun c ↦ push messageQueueSize c.queue _))
            (h.queued _ _))

theorem Neutral.relay (h : Neutral R) (w : World) (i : ℕ) (id : UInt32) (recipient : Username)
    (data : Bytes) : R w (relay w i id recipient data).2 := by
  unfold Handlers.relay
  dsimp only
  split
  next j _ =>
    have hroom := h.trans (h.clock w) (h.alloc _)
    split
    · exact hroom
    · have hsent := h.trans hroom (h.pushed _ (w.server.clients j).socketFd .incomingMessage
        (directPayload id (w.server.clients i).username (time w).1 data) none (.inl rfl))
      split
      · exact hsent
      · exact h.trans hsent (h.queueMessage _ _ _ _)
  next => exact h.queueMessage w _ _ _

end CChat.Server.Pushes
