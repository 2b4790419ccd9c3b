import CChat.Threads.Sections

namespace CChat.Threads.FullSends

open CChat.Protocol.Types CChat.Protocol.Wire CChat.Server.State CChat.Server.Network
  CChat.Server.Users CChat.Server.Handlers CChat.Server.Pushes Machine Sections
open CChat.Server.Loop hiding Input step reach
open CChat.Server.Invariants hiding Turn step_turn

variable {verify : Signature → Challenge → Key → Bool} {m : Pool} {u v w w' : World} {i : ℕ}

def Drains (w w' : World) : Prop := w'.env.sends ⊆ w.env.sends

theorem Drains.refl (w : World) : Drains w w := List.Subset.refl _

theorem Drains.same (h : w'.env.sends = w.env.sends) : Drains w w' := by
  rw [Drains, h]
  exact List.Subset.refl _

theorem Drains.trans (h : Drains u v) (h' : Drains v w) : Drains u w := List.Subset.trans h' h

theorem malloc_drains (w : World) : Drains w (malloc w).2 := .same (malloc_sends w)

theorem time_drains (w : World) : Drains w (time w).2 := .same (time_env w).2

theorem send_drains (w : World) (fd : Option Fd) (n : ℕ) : Drains w (send w fd n).2 := by
  unfold send
  split
  · exact .refl w
  · exact .refl w
  next taken rest hs =>
    rw [Drains, hs]
    exact List.subset_cons_self taken rest

theorem sendNetworkMessage_drains (w : World) (fd : Option Fd) (type : MessageType)
    (payload : Bytes) (entry : Option StoredMessage) :
    Drains w (sendNetworkMessage w fd type payload entry).2 := by
  have htorn : ∀ v bytes, Drains w v → Drains w (sendNetworkMessage.tornOff v fd bytes) := by
    intro v bytes hv
    cases fd <;> exact hv
  have hwhole : ∀ v, Drains w v →
      Drains w (sendNetworkMessage.whole v fd type payload entry) := by
    intro v hv
    cases fd <;> exact hv
  have hfirst := send_drains w fd (frameHeader type.code payload.length).length
  have hsecond := hfirst.trans (send_drains _ fd payload.length)
  unfold sendNetworkMessage
  dsimp only
  split
  · exact htorn _ _ hfirst
  · split
    · split
      · exact htorn _ _ hsecond
      · exact hwhole _ hsecond
    · exact hwhole _ hfirst

theorem sendError_drains (w : World) (fd : Option Fd) (code : ErrorCode) (message : String) :
    Drains w (sendError w fd code message).2 := by
  unfold sendError
  dsimp only
  split
  · exact malloc_drains w
  · exact (malloc_drains w).trans (sendNetworkMessage_drains _ _ _ _ _)

theorem receiveNetworkMessage_drains (w : World) (stream : Bytes) :
    Drains w (receiveNetworkMessage w stream).2 := by
  unfold receiveNetworkMessage
  dsimp only
  repeat' split
  all_goals first
    | exact .refl w
    | exact malloc_drains w

theorem takeRequest_drains (w : World) (i : ℕ) (stream : Bytes) :
    Drains w (takeRequest w i stream).2 := by
  have hr := receiveNetworkMessage_drains w stream
  have hlimit : Drains w (checkRateLimit (receiveNetworkMessage w stream).2 i).2 := by
    unfold checkRateLimit
    dsimp only
    split <;> exact hr.trans (time_drains _)
  unfold takeRequest
  dsimp only
  split
  · exact hr
  · exact hr
  · split
    · exact hlimit.trans (sendError_drains _ _ _ _)
    · split <;> exact hlimit

theorem drains_neutral : Neutral Drains :=
  ⟨.refl, .trans, malloc_drains, time_drains, .refl,
    fun w fd type payload entry _ ↦ sendNetworkMessage_drains w fd type payload entry,
    fun w _ _ ↦ .refl w, fun w _ ↦ .refl w⟩

theorem acceptClient_drains (w : World) (challenge : Challenge) (created : Bool) :
    Drains w (acceptClient w challenge created) := by
  unfold acceptClient
  dsimp only
  generalize freeSlot w.server = slot
  cases slot with
  | none => exact .refl w
  | some i => cases created <;> exact .refl w

theorem proceed_drains (w : World) (i : ℕ) (c : Control) : Drains w (proceed verify w i c).1 := by
  cases c with
  | refusing e => exact sendError_drains w _ e.code e.message
  | replying type payload => exact sendNetworkMessage_drains w _ type payload none
  | registering username key =>
    simp only [proceed, addUser]
    split_ifs <;> exact .refl w
  | accrediting k username signature =>
    simp only [proceed]
    split
    · exact .refl w
    · split <;> exact .refl w
  | sweeping username status j after =>
    exact Neutral.sweeping drains_neutral w i username status j after
  | announcing username status after =>
    simp only [proceed]
    split <;> exact malloc_drains w
  | listing =>
    simp only [proceed]
    split <;> exact malloc_drains w
  | delivering => exact drains_neutral.deliverQueuedMessages w i
  | fetching => exact drains_neutral.deliverQueuedMessages w i
  | sending id recipient data j => exact Neutral.sending drains_neutral w i id recipient data j
  | storing id recipient data j => exact Neutral.storeMessage drains_neutral w j recipient _ data
  | shutting =>
    have hsocket : Drains w (closeSocket w i) := by
      unfold closeSocket
      split <;> exact .refl w
    exact hsocket
  | _ =>
    simp only [proceed]
    repeat' split
    all_goals exact .refl w

def Env.sendsAll (env : Env) : Bool := env.sends.all (fun taken ↦ decide (taken = none))

def Input.sendsAll : Input → Bool
  | .environment env => Env.sendsAll env
  | _ => true

theorem Drains.sendsAll (h : Drains w w') (hw : Env.sendsAll w.env = true) :
    Env.sendsAll w'.env = true :=
  List.all_eq_true.mpr (fun taken ht ↦ List.all_eq_true.mp hw taken (h ht))

theorem step_sendsAll (hm : Env.sendsAll m.world.env = true) {x : Input}
    (hx : Input.sendsAll x = true) : Env.sendsAll (step verify m x).world.env = true := by
  cases @step_turn verify m x with
  | idle h => rwa [h]
  | accept challenge created _ _ h =>
    rw [h, acceptHandler_world]
    exact (acceptClient_drains m.world challenge created).sendsAll hm
  | receive h stream i _ _ h' =>
    rw [h', Pool.put, receiveRequest_world]
    exact (takeRequest_drains m.world i stream).sendsAll hm
  | go h i c _ _ _ h' =>
    rw [h']
    exact (proceed_drains m.world i c).sendsAll hm
  | environment env hx' h =>
    rw [h]
    rwa [hx'] at hx

theorem sendsAll_takes {env : Env} (h : Env.sendsAll env = true) (k n : ℕ) :
    Env.takes env k n = true := by
  have hall : env.sends.getD k none = none := by
    rw [List.getD_eq_getElem?_getD]
    cases hk : env.sends[k]? with
    | none => rfl
    | some taken =>
      exact of_decide_eq_true (List.all_eq_true.mp h taken (List.mem_of_getElem? hk))
  rw [Env.takes, hall]
  exact decide_eq_true (Nat.le_refl n)

theorem sendsAll_whole (h : Env.sendsAll w.env = true) (fd : Fd) (type : MessageType)
    (payload : Bytes) (hpos : 0 < payload.length) :
    (sendNetworkMessage w (some fd) type payload none).2.out =
      w.out ++ [.frame fd type payload none] := by
  have hzero : (sendNetworkMessage w (some fd) type payload none).1 = 0 := by
    rw [sendNetworkMessage_takes w fd type payload none hpos, sendsAll_takes h, sendsAll_takes h]
    rfl
  cases sendNetworkMessage_written w (some fd) type payload none with
  | whole n hfd _ _ _ ho =>
    obtain rfl := Option.some.inj hfd
    exact ho
  | torn _ _ _ hr =>
    rw [hzero] at hr
    cases hr
  | dead hfd => cases hfd

end CChat.Threads.FullSends
