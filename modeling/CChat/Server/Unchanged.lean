import CChat.Server.Views

namespace CChat.Server.Unchanged

open CChat.Library.Circular CChat.Protocol.Types State Network Users Queue Handlers Loop Effects
  Pushes Views

variable {i : ℕ} {u v w w' : World}

def Event.isMark : Event → Bool
  | .login .. => true
  | .request .. => true
  | _ => false

structure Still (w w' : World) : Prop where
  users : w'.server.users = w.server.users
  userCount : w'.server.userCount = w.server.userCount
  clientCount : w'.server.clientCount = w.server.clientCount
  clients : ∀ j, SameIdentity (w.server.clients j) (w'.server.clients j)
  events : ∃ es, w'.out = w.out ++ es ∧ ∀ e ∈ es, Event.isMark e = false

theorem Still.of_server (hs : w'.server = w.server) (ho : ∃ es, w'.out = w.out ++ es ∧
    ∀ e ∈ es, Event.isMark e = false) : Still w w' :=
  ⟨by rw [hs], by rw [hs], by rw [hs], fun j ↦ by rw [hs]; exact .refl _, ho⟩

theorem Still.quiet (hs : w'.server = w.server) (ho : w'.out = w.out) : Still w w' :=
  .of_server hs ⟨[], by rw [ho, List.append_nil], by simp⟩

theorem Still.event {e : Event} (hs : w'.server = w.server) (ho : w'.out = w.out ++ [e])
    (he : Event.isMark e = false) : Still w w' := .of_server hs ⟨[e], ho, by simpa using he⟩

theorem Still.refl (w : World) : Still w w := .quiet rfl rfl

theorem Still.trans (h : Still u v) (h' : Still v w) : Still u w := by
  obtain ⟨es, ho, hes⟩ := h.events
  obtain ⟨es', ho', hes'⟩ := h'.events
  refine ⟨h'.users.trans h.users, h'.userCount.trans h.userCount,
    h'.clientCount.trans h.clientCount, fun j ↦ (h.clients j).trans (h'.clients j),
    es ++ es', by rw [ho', ho, List.append_assoc], fun e he ↦ ?_⟩
  exact (List.mem_append.mp he).elim (hes e) (hes' e)

theorem modifyClient_still (w : World) (j : ℕ) {f : ClientConnection → ClientConnection}
    (hf : SameIdentity (w.server.clients j) (f (w.server.clients j))) :
    Still w (w.modifyClient j f) :=
  ⟨rfl, rfl, rfl, modifyClient_identity rfl hf, [], (List.append_nil _).symm, by simp⟩

theorem requeue_still (w : World) (j : ℕ) (q : ClientConnection → Buffer StoredMessage) :
    Still w (w.modifyClient j (fun c ↦ { c with queue := q c })) :=
  modifyClient_still w j ⟨rfl, rfl, rfl, rfl, rfl⟩

theorem malloc_still (w : World) : Still w (malloc w).2 := .quiet (malloc_server w) (malloc_out w)

theorem time_still (w : World) : Still w (time w).2 := .quiet (time_server w) (time_out w)

theorem sendNetworkMessage_still (w : World) (fd : Option Fd) (type : MessageType)
    (payload : Bytes) (entry : Option StoredMessage) :
    Still w (sendNetworkMessage w fd type payload entry).2 := by
  cases sendNetworkMessage_written w fd type payload entry with
  | whole _ _ _ hs _ ho => exact .event hs ho rfl
  | torn _ _ _ _ hs _ ho => exact .event hs ho rfl
  | dead _ _ h => exact .quiet h.server h.out

theorem sendError_still (w : World) (fd : Option Fd) (code : ErrorCode) (message : String) :
    Still w (sendError w fd code message).2 := by
  unfold sendError
  dsimp only
  split
  · exact malloc_still w
  · exact (malloc_still w).trans (sendNetworkMessage_still _ _ _ _ _)

theorem refuse_still (w : World) (i : ℕ) (e : Refusal) : Still w (refuse w i e).2 :=
  sendError_still w _ e.code e.message

theorem reply_still (w : World) (i : ℕ) (type : MessageType) (payload : Bytes) :
    Still w (reply w i type payload).2 := sendNetworkMessage_still w _ type payload none

theorem drawMessageId_still (w : World) : Still w (drawMessageId w).2 :=
  ⟨rfl, rfl, rfl, fun _ ↦ .refl _, [], (List.append_nil _).symm, by simp⟩

theorem still_neutral : Neutral Still :=
  ⟨.refl, .trans, malloc_still, time_still, drawMessageId_still,
    fun w fd type payload entry _ ↦ sendNetworkMessage_still w fd type payload entry,
    requeue_still, fun _ _ ↦ .event rfl rfl rfl⟩

theorem handleGetPublicKey_still (w : World) (payload : Bytes) :
    Still w (handleGetPublicKey w i payload).2 := by
  unfold handleGetPublicKey
  split
  · exact refuse_still w i _
  · split
    · exact reply_still w i _ _
    · exact reply_still w i _ _

theorem handleSendMessage_still (w : World) (payload : Bytes) :
    Still w (handleSendMessage w i payload).2 := by
  unfold handleSendMessage
  split
  · exact refuse_still w i _
  next recipient data _ =>
    split
    · exact refuse_still w i _
    have hrelayed := (drawMessageId_still w).trans
      (still_neutral.relay (drawMessageId w).2 i (drawMessageId w).1 recipient data)
    dsimp only
    split
    · exact hrelayed.trans (reply_still _ i _ _)
    · exact hrelayed.trans (reply_still _ i _ _)

theorem handleListUsers_still (w : World) : Still w (handleListUsers w i).2 := by
  unfold handleListUsers
  dsimp only
  split
  · exact (malloc_still w).trans (refuse_still _ i _)
  · exact (malloc_still w).trans (reply_still _ i _ _)

theorem authenticatedOnly_still {handle : World → ℤ × World}
    (h : (w.server.clients i).authenticated = true → Still w (handle w).2) :
    Still w (authenticatedOnly w i handle) := by
  unfold authenticatedOnly
  cases hauth : (w.server.clients i).authenticated with
  | false => exact sendError_still w _ _ _
  | true => exact h hauth

end CChat.Server.Unchanged
