import CChat.Library.Offices
import CChat.Server.Conservation
import CChat.Server.Descriptors
import CChat.Server.Encoders
import CChat.Server.Presence

namespace CChat.Server.Service

open CChat.Library CChat.Library.Circular CChat.Library.Offices CChat.Library.Runs
open CChat.Protocol.Types CChat.Protocol.Wire State Network Users Queue Handlers Loop Effects
open HandlerEffects Views Steps Invariants History Registry Descriptors
open CChat.Server.Presence (loginOn loginOn_iff loginOn_slot loginOn_update)

variable {verify : Signature → Challenge → Key → Bool} {g : Guards} {i j : ℕ} {fd : Fd}
  {w w' : World}

structure Letter where
  id : UInt32
  author : Username
  addressee : Username
  timestamp : ℤ
  data : Bytes

def Letter.payload (m : Letter) : Bytes := directPayload m.id m.author m.timestamp m.data

def letterOf (m : StoredMessage) : Letter :=
  ⟨m.messageId, m.sender, m.recipient, m.timestamp, m.encryptedData.getD []⟩

def rules : Rules Username Letter := ⟨Letter.author, Letter.addressee, messageQueueSize⟩

def slotOn (w : World) (fd : Fd) : Option ℕ :=
  (List.range w.server.clientCount).find? (fun j ↦ decide ((w.server.clients j).socketFd = some fd))

def boxOn (w : World) (fd : Fd) : List Letter :=
  ((slotOn w fd).map (fun j ↦ (pending (w.server.clients j)).map letterOf)).getD []

def office (w : World) : Office Username Key Fd Letter where
  key name := (findUser w.server name).map (fun k ↦ (w.server.users k).publicKey)
  session := loginOn w
  box := boxOn w
  left := {fd | Closed w fd}

inductive Deed
  | joined (fd : Fd) (name : Username)
  | passed (fd : Fd) (payload : Bytes)
  | posted (m : Letter)
  | handed (fd : Fd) (payload : Bytes)
  | left (fd : Fd)

def Event.deed : Event → Option Deed
  | .login fd name _ _ _ => some (.joined fd name)
  | .frame fd .incomingMessage payload none => some (.passed fd payload)
  | .frame fd .incomingMessage payload (some _) => some (.handed fd payload)
  | .queued m => some (.posted (letterOf m))
  | .closed fd => some (.left fd)
  | _ => none

abbrev OfficeAct : Type := Act Username Key Fd Letter

def Act.deed : OfficeAct → Option Deed
  | .enroll _ _ => none
  | .join fd name => some (.joined fd name)
  | .pass _ fd m => some (.passed fd m.payload)
  | .post _ _ m => some (.posted m)
  | .hand fd m => some (.handed fd m.payload)
  | .leave fd => some (.left fd)

/-- What the server did between the two worlds is a run of the office by its
rules, with the same deeds in the same order. -/
def Serves (w w' : World) : Prop :=
  ∃ (acts : List OfficeAct) (es : List Event),
    Along Office.act (Office.Admits rules) (office w) acts ∧
      run Office.act (office w) acts = office w' ∧
      w'.out = w.out ++ es ∧ es.filterMap Event.deed = acts.filterMap Act.deed

theorem Serves.refl (w : World) : Serves w w := ⟨[], [], trivial, rfl, (List.append_nil _).symm, rfl⟩

theorem Serves.trans {w'' : World} (h : Serves w w') (h' : Serves w' w'') : Serves w w'' := by
  obtain ⟨acts, es, hadmits, hrun, ho, hdeeds⟩ := h
  obtain ⟨acts', es', hadmits', hrun', ho', hdeeds'⟩ := h'
  refine ⟨acts ++ acts', es ++ es', ?_, ?_, ?_, ?_⟩
  · exact hadmits.append (hrun ▸ hadmits')
  · rw [run_append, hrun, hrun']
  · rw [ho', ho, List.append_assoc]
  · rw [List.filterMap_append, List.filterMap_append, hdeeds, hdeeds']

theorem Serves.one {a : OfficeAct} {es : List Event} (ho : w'.out = w.out ++ es)
    (ha : (office w).Admits rules a) (hact : office w' = (office w).act a)
    (hdeeds : es.filterMap Event.deed = [a].filterMap Act.deed) : Serves w w' :=
  ⟨[a], es, ⟨ha, trivial⟩, hact.symm, ho, hdeeds⟩

theorem Serves.still {es : List Event} (ho : w'.out = w.out ++ es) (h : office w' = office w)
    (hdeeds : es.filterMap Event.deed = []) : Serves w w' :=
  ⟨[], es, trivial, h.symm, ho, hdeeds⟩

theorem boxOn_slot (hs : Sockets w) (hfd : (w.server.clients i).socketFd = some fd) :
    boxOn w fd = (pending (w.server.clients i)).map letterOf := by
  have hslot : slotOn w fd = some i := by
    cases h : slotOn w fd with
    | none =>
      have hnone := List.find?_eq_none.mp h i (List.mem_range.mpr (hs.socket i fd hfd).2)
      simp [hfd] at hnone
    | some k =>
      have hk := List.find?_some h
      rw [hs.distinct k i fd (of_decide_eq_true hk) hfd]
  rw [boxOn, hslot]
  rfl

theorem boxOn_vacant (h : ∀ j, (w.server.clients j).socketFd = some fd →
    pending (w.server.clients j) = []) : boxOn w fd = [] := by
  unfold boxOn
  cases hslot : slotOn w fd with
  | none => rfl
  | some k =>
    have hk := List.find?_some hslot
    simp [h k (of_decide_eq_true hk)]

/-- A box stays as it is when the slots with its descriptor do, or are empty. -/
theorem boxOn_congr (hs : Sockets w) (hs' : Sockets w')
    (h : ∀ j, (w.server.clients j).socketFd = some fd ∧ pending (w.server.clients j) ≠ [] ∨
      (w'.server.clients j).socketFd = some fd ∧ pending (w'.server.clients j) ≠ [] →
      (w'.server.clients j).socketFd = (w.server.clients j).socketFd ∧
        pending (w'.server.clients j) = pending (w.server.clients j)) :
    boxOn w' fd = boxOn w fd := by
  by_cases hheld : ∃ j, (w.server.clients j).socketFd = some fd ∧ pending (w.server.clients j) ≠ []
  · obtain ⟨j, hfd, hne⟩ := hheld
    obtain ⟨hsocket, hpend⟩ := h j (.inl ⟨hfd, hne⟩)
    rw [boxOn_slot hs hfd, boxOn_slot hs' (hsocket.trans hfd), hpend]
  · have hempty : ∀ j, (w.server.clients j).socketFd = some fd →
        pending (w.server.clients j) = [] := by
      intro j hfd
      by_contra hne
      exact hheld ⟨j, hfd, hne⟩
    rw [boxOn_vacant hempty, boxOn_vacant]
    intro j hfd
    by_contra hne
    obtain ⟨hsocket, hpend⟩ := h j (.inr ⟨hfd, hne⟩)
    exact hne (hpend.trans (hempty j (hsocket.symm.trans hfd)))

def SameDesk (c c' : ClientConnection) : Prop :=
  c.authenticated = true ∨ c'.authenticated = true →
    c'.socketFd = c.socketFd ∧ c'.username = c.username ∧ c'.authenticated = c.authenticated ∧
      pending c' = pending c

theorem SameDesk.of_eq {c c' : ClientConnection} (h : c' = c) : SameDesk c c' := by
  subst h
  exact fun _ ↦ ⟨rfl, rfl, rfl, rfl⟩

theorem SameDesk.of_identity {c c' : ClientConnection} (h : SameIdentity c c')
    (hp : pending c' = pending c) : SameDesk c c' :=
  fun _ ↦ ⟨h.socketFd, h.username, h.authenticated, hp⟩

theorem loginOn_congr (hs : Sockets w) (hs' : Sockets w')
    (h : ∀ j, SameDesk (w.server.clients j) (w'.server.clients j)) : loginOn w' = loginOn w := by
  refine funext (fun fd ↦ Option.ext (fun name ↦ ?_))
  rw [loginOn_iff hs', loginOn_iff hs]
  refine exists_congr (fun j ↦ ?_)
  constructor
  · rintro ⟨hfd, hauth, hname⟩
    obtain ⟨hsocket, husername, hlogin, _⟩ := h j (.inr hauth)
    exact ⟨hsocket ▸ hfd, hlogin ▸ hauth, husername ▸ hname⟩
  · rintro ⟨hfd, hauth, hname⟩
    obtain ⟨hsocket, husername, hlogin, _⟩ := h j (.inl hauth)
    exact ⟨hsocket.trans hfd, hlogin.trans hauth, husername.trans hname⟩

theorem key_congr (he : Enrolled w.server) (h : SameRecords w.server w'.server) :
    (office w').key = (office w).key := by
  funext name
  simp [office, h.find he, h.publicKey]

theorem key_added {name : Username} {key : Key} (he : Enrolled w.server)
    (h : Added w.server name key w'.server) :
    (office w').key = Function.update (office w).key name (some key) := by
  funext name'
  by_cases heq : name' = name
  · subst heq
    simp [office, h.find he, h.new]
  · rw [Function.update_of_ne heq]
    have hsame : findUser w'.server name' = findUser w.server name' := by
      refine Option.ext (fun k ↦ ?_)
      rw [(h.enrolled he).find_iff, he.find_iff, h.userCount]
      by_cases hk : k = w.server.userCount
      · subst hk
        rw [h.new]
        exact iff_of_false (fun hnew ↦ heq hnew.2.symm) (fun hold ↦ Nat.lt_irrefl _ hold.1)
      · rw [h.old hk]
        exact and_congr_left' (by omega)
    cases hk : findUser w.server name' with
    | none => simp [office, hsame, hk]
    | some k =>
      have hne : k ≠ w.server.userCount := Nat.ne_of_lt (findUser_some hk).1
      simp [office, hsame, hk, h.old hne]

theorem office_congr (hw : Consistent w) (hw' : Consistent w')
    (hdesk : ∀ j, SameDesk (w.server.clients j) (w'.server.clients j)) :
    office w' = ⟨(office w').key, (office w).session, (office w).box, (office w').left⟩ := by
  refine Office.ext rfl (loginOn_congr hw.sockets hw'.sockets hdesk) (funext (fun fd ↦ ?_)) rfl
  refine boxOn_congr hw.sockets hw'.sockets (fun j hj ↦ ?_)
  obtain ⟨hsocket, _, _, hpend⟩ := hdesk j
    (hj.imp (fun hold ↦ hw.queues.holder j hold.2) (fun hnew ↦ hw'.queues.holder j hnew.2))
  exact ⟨hsocket, hpend⟩

theorem office_desk (hw : Consistent w) (hw' : Consistent w')
    (hfd : (w.server.clients i).socketFd = some fd)
    (hself : (w'.server.clients i).socketFd = some fd ∨
      (w'.server.clients i).authenticated = false)
    (hother : ∀ j, j ≠ i → w'.server.clients j = w.server.clients j) :
    office w' = ⟨(office w').key,
      Function.update (office w).session fd (if (w'.server.clients i).authenticated then
        some (w'.server.clients i).username else none),
      Function.update (office w).box fd ((pending (w'.server.clients i)).map letterOf),
      (office w').left⟩ := by
  have hdistinct : ∀ j, j ≠ i → (w.server.clients j).socketFd ≠ some fd :=
    fun j hj hsocket ↦ hj (hw.sockets.distinct j i fd hsocket hfd)
  refine Office.ext rfl ?_ (funext (fun fd' ↦ ?_)) rfl
  · refine loginOn_update hw.sockets hw'.sockets hfd hself (fun j hj ↦ ?_)
    rw [hother j hj]
    exact .refl _
  · change boxOn w' fd' = Function.update (boxOn w) fd _ fd'
    by_cases heq : fd' = fd
    · subst heq
      rw [Function.update_self]
      by_cases hsocket : (w'.server.clients i).socketFd = some fd'
      · exact boxOn_slot hw'.sockets hsocket
      · have hnil : pending (w'.server.clients i) = [] := by
          by_contra hne
          have hauth := hw'.queues.holder i hne
          rw [hself.resolve_left hsocket] at hauth
          cases hauth
        rw [hnil]
        refine boxOn_vacant (fun j hj ↦ ?_)
        by_cases hji : j = i
        · rw [hji]
          exact hnil
        · rw [hother j hji] at hj
          exact absurd hj (hdistinct j hji)
    · rw [Function.update_of_ne heq]
      refine boxOn_congr hw.sockets hw'.sockets (fun j hj ↦ ?_)
      have hji : j ≠ i := by
        rintro rfl
        obtain ⟨hsocket, _⟩ | ⟨hsocket, hne⟩ := hj
        · exact heq (Option.some.inj (hsocket.symm.trans hfd))
        · have hauth := hw'.queues.holder j hne
          obtain hkept | hout := hself
          · exact heq (Option.some.inj (hsocket.symm.trans hkept))
          · rw [hout] at hauth
            cases hauth
      rw [hother j hji]
      exact ⟨rfl, rfl⟩

theorem left_same {es : List Event} (ho : w'.out = w.out ++ es)
    (hes : ∀ e ∈ es, ∀ fd, e ≠ .closed fd) : (office w').left = (office w).left := by
  refine Set.ext (fun fd ↦ ?_)
  change Closed w' fd ↔ Closed w fd
  rw [Closed, Closed, ho, List.mem_append]
  exact or_iff_left (fun hmem ↦ hes _ hmem fd rfl)

theorem session_slot (hw : Consistent w) (hfd : (w.server.clients i).socketFd = some fd)
    (hauth : (w.server.clients i).authenticated = true) :
    (office w).session fd = some (w.server.clients i).username := by
  have hslot := loginOn_slot hw.sockets hfd
  rwa [if_pos hauth] at hslot

theorem session_holds {name : Username} (hw : Consistent w)
    (hj : holds (w.server.clients j) name = true)
    (hfd : (w.server.clients j).socketFd = some fd) : (office w).session fd = some name := by
  simp only [holds, Bool.and_eq_true, decide_eq_true_eq] at hj
  rw [session_slot hw hfd hj.1.2, hj.2]

theorem letterOf_payload {m : StoredMessage} (hm : Waiting m) :
    (letterOf m).payload = queuedPayload m := by
  obtain ⟨data, hdata, hlen, _⟩ := hm.data
  simp [Letter.payload, letterOf, directPayload, queuedPayload, hdata, hlen]

theorem Emission.serves {e : Event} (h : Emission w i e) (hw : Consistent w) (hw' : Consistent w')
    (he : Enrolled w.server) (hs : w'.server = w.server) (ho : w'.out = w.out ++ [e]) :
    Serves w w' := by
  have hleft : (office w').left = (office w).left :=
    left_same ho (by simpa using Emission.open h)
  have hsame : office w' = office w := by
    rw [office_congr hw hw' (fun j ↦ SameDesk.of_eq (by rw [hs])), hleft,
      key_congr he (SameRecords.of_users (by rw [hs]) (by rw [hs]))]
  have hquiet : Event.deed e = none → Serves w w' :=
    fun hnone ↦ .still ho hsame (List.filterMap_cons_none hnone)
  cases h with
  | request => exact hquiet rfl
  | torn => exact hquiet rfl
  | status => exact hquiet rfl
  | reply fd type payload _ htype =>
    refine hquiet ?_
    cases type <;> first | rfl | exact absurd rfl htype.1
  | direct j fd recipient data id t hi hj hfd hasked =>
    obtain ⟨fdᵢ, hfdᵢ⟩ := hw.sockets.authenticated i hi
    refine Serves.one (a := .pass fdᵢ fd ⟨id, (w.server.clients i).username, recipient, t, data⟩)
      ho ?_ hsame rfl
    exact ⟨session_slot hw hfdᵢ hi, session_holds hw hj hfd⟩

theorem login_serves {name : Username} {signature : Signature} {challenge : Challenge} {key : Key}
    (hw : Consistent w) (hw' : Consistent w') (he : Enrolled w.server)
    (hknown : (findUser w.server name).isSome) (hopen : ¬ Closed w fd)
    (hfd : (w.server.clients i).socketFd = some fd)
    (hs : w'.server = (w.modifyClient i (fun c ↦
      { c with authenticated := true, username := name })).server)
    (ho : w'.out = w.out ++ [.login fd name signature challenge key]) : Serves w w' := by
  have hself := modifyClient_at hs
  have hleft : (office w').left = (office w).left := left_same ho (by simp)
  have hdesk := office_desk hw hw' hfd (.inl (by rw [hself]; exact hfd)) (modifyClient_off hs)
  have hbox : (pending (w'.server.clients i)).map letterOf = (office w).box fd := by
    rw [hself]
    exact (boxOn_slot hw.sockets hfd).symm
  refine Serves.one (a := .join fd name) ho ?_ ?_ rfl
  · exact ⟨by simpa [office] using hknown, hopen⟩
  · rw [hdesk, hbox, Function.update_eq_self, hleft, hself,
      key_congr he (SameRecords.of_users (by rw [hs]; rfl) (by rw [hs]; rfl))]
    rfl

theorem register_serves {name : Username} {key : Key} (hw : Consistent w) (hw' : Consistent w')
    (he : Enrolled w.server) (hadded : Added w.server name key w'.server)
    (hclients : w'.server.clients = w.server.clients) (ho : w'.out = w.out) : Serves w w' := by
  have hleft : (office w').left = (office w).left :=
    left_same (ho.trans (List.append_nil _).symm) (by simp)
  refine Serves.one (a := .enroll name key) (ho.trans (List.append_nil _).symm) ?_ ?_ rfl
  · simp [Office.Admits, office, hadded.fresh]
  · rw [office_congr hw hw' (fun j ↦ SameDesk.of_eq (by rw [hclients])), hleft,
      key_added he hadded]
    rfl

theorem enqueue_serves {m : StoredMessage} (hw : Consistent w) (hw' : Consistent w')
    (he : Enrolled w.server) (hi : (w.server.clients i).authenticated = true)
    (hj : holds (w.server.clients j) m.recipient = true)
    (hsender : m.sender = (w.server.clients i).username)
    (hroom : (w.server.clients j).queue.count < messageQueueSize)
    (hs : w'.server = (w.modifyClient j (fun c ↦
      { c with queue := push messageQueueSize c.queue m })).server)
    (ho : w'.out = w.out ++ [.queued m]) : Serves w w' := by
  obtain ⟨fdᵢ, hfdᵢ⟩ := hw.sockets.authenticated i hi
  have hauth : (w.server.clients j).authenticated = true := by
    simp only [holds, Bool.and_eq_true] at hj
    exact hj.1.2
  obtain ⟨fd, hfd⟩ := hw.sockets.authenticated j hauth
  have hself := modifyClient_at hs
  have hleft : (office w').left = (office w).left := left_same ho (by simp)
  have hdesk := office_desk hw hw' hfd (.inl (by rw [hself]; exact hfd)) (modifyClient_off hs)
  have hbox : (office w).box fd = (pending (w.server.clients j)).map letterOf :=
    boxOn_slot hw.sockets hfd
  have hgrown : pending (w'.server.clients j) = pending (w.server.clients j) ++ [m] := by
    rw [hself]
    exact push_window (hw.queues.ring j) hroom m
  have hsession : (if (w'.server.clients j).authenticated then
      some (w'.server.clients j).username else none) = (office w).session fd := by
    rw [hself, session_slot hw hfd hauth]
    exact if_pos hauth
  refine Serves.one (a := .post fdᵢ fd (letterOf m)) ho ?_ ?_ rfl
  · refine ⟨⟨?_, session_holds hw hj hfd⟩, ?_⟩
    · rw [session_slot hw hfdᵢ hi, ← hsender]
      rfl
    · rw [hbox, List.length_map, Delivery.pending_length]
      exact hroom
  · rw [hdesk, hgrown, List.map_append, ← hbox, hsession, Function.update_eq_self, hleft,
      key_congr he (SameRecords.of_users (by rw [hs]; rfl) (by rw [hs]; rfl))]
    rfl

theorem deliver_serves {m : StoredMessage} (hw : Consistent w) (hw' : Consistent w')
    (he : Enrolled w.server) (hi : (w.server.clients i).authenticated = true)
    (hfd : (w.server.clients i).socketFd = some fd)
    (hcount : 0 < (w.server.clients i).queue.count)
    (hm : m = (w.server.clients i).queue.cells (w.server.clients i).queue.head)
    (hs : w'.server = (w.modifyClient i (fun c ↦ { c with
      queue := advanceHead messageQueueSize (writeHead c.queue (StoredMessage.spent m)) })).server)
    (ho : w'.out = w.out ++ [.frame fd .incomingMessage (queuedPayload m) (some m)]) :
    Serves w w' := by
  have hself := modifyClient_at hs
  have hleft : (office w').left = (office w).left := left_same ho (by simp)
  have hdesk := office_desk hw hw' hfd (.inl (by rw [hself]; exact hfd)) (modifyClient_off hs)
  have hpend := Delivery.sent_pending hw.queues hcount hm hs
  have hbox : (office w).box fd = letterOf m :: (pending (w'.server.clients i)).map letterOf := by
    change boxOn w fd = _
    rw [boxOn_slot hw.sockets hfd, hpend, List.map_cons]
  have hsession : (if (w'.server.clients i).authenticated then
      some (w'.server.clients i).username else none) = (office w).session fd := by
    rw [hself, session_slot hw hfd hi]
    exact if_pos hi
  refine Serves.one (a := .hand fd (letterOf m)) ho ?_ ?_ ?_
  · rw [Office.Admits, hbox]
    rfl
  · rw [hdesk, hsession, Function.update_eq_self, hleft,
      key_congr he (SameRecords.of_users (by rw [hs]; rfl) (by rw [hs]; rfl)), Office.act, hbox]
    rfl
  · have hwait : Waiting m := hm ▸ hw.queues.head_waiting hcount
    rw [← letterOf_payload hwait]
    rfl

/-- Hanging up clears the desk of the socket, if there is one. -/
theorem close_serves (hw : Consistent w) (hw' : Consistent w') (he : Enrolled w.server)
    (ha : Accounted w i) (hs : w'.server = (w.modifyClient i closedClient).server)
    (ho : w'.out = w.out ++ closedEvents (w.server.clients i).socketFd) : Serves w w' := by
  have hself := modifyClient_at hs
  have hkey : (office w').key = (office w).key :=
    key_congr he (SameRecords.of_users (by rw [hs]; rfl) (by rw [hs]; rfl))
  cases hfd : (w.server.clients i).socketFd with
  | none =>
    rw [hfd] at ho
    have hauth : (w.server.clients i).authenticated = false := by
      by_contra hauth
      obtain ⟨fd, hsocket⟩ := hw.sockets.authenticated i (Bool.of_not_eq_false hauth)
      rw [hfd] at hsocket
      cases hsocket
    have hdesk : ∀ j, SameDesk (w.server.clients j) (w'.server.clients j) := by
      intro j
      by_cases hj : j = i
      · rw [hj, hself]
        intro hlogin
        rw [hauth] at hlogin
        simp [closedClient] at hlogin
      · exact SameDesk.of_eq (modifyClient_off hs j hj)
    have hleft : (office w').left = (office w).left := left_same ho (by simp [closedEvents])
    refine Serves.still ho ?_ rfl
    rw [office_congr hw hw' hdesk, hleft, hkey]
  | some fd =>
    rw [hfd] at ho
    have hclosed : w'.server.clients i = closedClient (w.server.clients i) := hself
    have hnone : pending (w'.server.clients i) = [] := by
      rw [hself]
      exact window_reset _
    have hleft : (office w').left = insert fd (office w).left := by
      refine Set.ext (fun fd' ↦ ?_)
      change Closed w' fd' ↔ fd' = fd ∨ Closed w fd'
      rw [Closed, Closed, ho, List.mem_append, or_comm]
      simp [closedEvents]
    have hdesk := office_desk hw hw' hfd (.inr (by rw [hself]; rfl)) (modifyClient_off hs)
    refine Serves.one (a := .leave fd) ho (ha.used i fd hfd (.inl rfl)) ?_ rfl
    rw [hdesk, hnone, hleft, hkey, hself]
    rfl

theorem Effect.serves (h : Effect verify g i w w') (hw : Consistent w) (he : Enrolled w.server)
    (ha : Accounted w i) : Serves w w' := by
  have hw' : Consistent w' := Effect.consistent h hw
  have hquiet : w'.out = w.out → SameRecords w.server w'.server →
      (∀ j, SameDesk (w.server.clients j) (w'.server.clients j)) → Serves w w' := by
    intro ho hr hdesk
    refine Serves.still (ho.trans (List.append_nil _).symm) ?_ rfl
    rw [office_congr hw hw' hdesk, key_congr he hr,
      left_same (ho.trans (List.append_nil _).symm) (by simp)]
  have hslot : ∀ {k : ℕ} {f : ClientConnection → ClientConnection},
      w'.server = (w.modifyClient k f).server →
      SameDesk (w.server.clients k) (f (w.server.clients k)) →
      ∀ j, SameDesk (w.server.clients j) (w'.server.clients j) := by
    intro k f hs hk j
    by_cases hj : j = k
    · rw [hj, modifyClient_at hs]
      exact hk
    · exact SameDesk.of_eq (modifyClient_off hs j hj)
  have hrecords : ∀ {k : ℕ} {f : ClientConnection → ClientConnection},
      w'.server = (w.modifyClient k f).server → SameRecords w.server w'.server :=
    fun hs ↦ SameRecords.of_users (by rw [hs]; rfl) (by rw [hs]; rfl)
  cases h with
  | silent h =>
    exact hquiet h.out (SameRecords.of_users (by rw [h.server]) (by rw [h.server]))
      (fun j ↦ SameDesk.of_eq (by rw [h.server]))
  | emit e hem hs _ ho => exact Emission.serves hem hw hw' he hs ho
  | tune c hc hq _ hs _ ho =>
    exact hquiet ho (hrecords hs) (hslot hs (SameDesk.of_identity hc (by rw [pending, hq]; rfl)))
  | setStatus k status _ _ hs _ ho =>
    exact hquiet ho (SameRecords.status (by rw [hs]; rfl) (by rw [hs]; rfl))
      (fun j ↦ SameDesk.of_eq (by rw [hs]; rfl))
  | register name key _ hname hroom hnew hs _ ho =>
    exact register_serves hw hw' he ⟨hname, hroom, hnew, by rw [hs], by rw [hs]⟩ (by rw [hs]) ho
  | login name signature fd k _ hk _ hfd hs _ ho =>
    exact login_serves hw hw' he (by rw [hk]; rfl) (ha.used i fd hfd (.inl rfl)) hfd hs ho
  | nextId _ hs _ ho =>
    exact hquiet ho (SameRecords.of_users (by rw [hs]) (by rw [hs]))
      (fun j ↦ SameDesk.of_eq (by rw [hs]))
  | enqueue j m _ hi hj _ hsender _ _ _ _ hroom hs _ ho =>
    exact enqueue_serves hw hw' he hi hj hsender hroom hs ho
  | spoil j m _ hroom hs _ ho =>
    refine hquiet ho (hrecords hs) (hslot hs (fun _ ↦ ⟨rfl, rfl, rfl, ?_⟩))
    exact writeTail_window (hw.queues.ring j) hroom m
  | deliver fd m hi hcount hm _ hfd hs _ ho => exact deliver_serves hw hw' he hi hfd hcount hm hs ho
  | skip _ hcount hold _ _ _ =>
    rw [(hw.queues.head_waiting hcount).delivered] at hold
    cases hold
  | logout _ hs _ ho =>
    exact hquiet ho (hrecords hs) (hslot hs (fun _ ↦ ⟨rfl, rfl, rfl, rfl⟩))
  | close _ hs _ ho => exact close_serves hw hw' he ha hs ho

theorem office_unknown (hw : Consistent w) (h : ∀ j, (w.server.clients j).socketFd ≠ some fd) :
    (office w).session fd = none ∧ (office w).box fd = [] := by
  refine ⟨?_, boxOn_vacant (fun j hj ↦ absurd hj (h j))⟩
  cases hlogin : loginOn w fd with
  | none => exact hlogin
  | some name =>
    obtain ⟨j, hfd, _⟩ := (loginOn_iff hw.sockets).mp hlogin
    exact absurd hfd (h j)

/-- A connection comes without a login, and one that is turned away is a desk
given up before anyone signed in. -/
theorem Accepted.serves {challenge : Challenge} {created : Bool}
    (h : Accepted w challenge created w') (hs : Steady w) (hs' : Steady w')
    (he : Enrolled w.server) : Serves w w' := by
  have hkey : (office w').key = (office w).key := key_congr he (Accepted.records h)
  have hdesk : ∀ j, SameDesk (w.server.clients j) (w'.server.clients j) := by
    intro j
    cases h with
    | full hsame => exact SameDesk.of_eq (by rw [hsame])
    | slot k _ _ hfree hself hother =>
      by_cases hj : j = k
      · have hauth : (w.server.clients k).authenticated = false := by
          by_contra hauth
          rw [hs.sound.settled k (Bool.of_not_eq_false hauth)] at hfree
          cases hfree
        rw [hj, hself]
        rintro (hold | hnew)
        · rw [hauth] at hold
          cases hold
        · cases hnew
      · exact SameDesk.of_eq (hother j hj)
  have hsame := office_congr hs.consistent hs'.consistent hdesk
  rw [hkey] at hsame
  obtain ho | ho := Accepted.out h
  · refine Serves.still (ho.trans (List.append_nil _).symm) ?_ rfl
    rw [hsame, left_same (ho.trans (List.append_nil _).symm) (by simp)]
  · have hfresh : ∀ j, (w.server.clients j).socketFd ≠ some w.nextFd :=
      fun j hj ↦ Nat.lt_irrefl _ (hs.sound.sockets.socket j _ hj).1
    obtain ⟨hsession, hbox⟩ := office_unknown hs.consistent hfresh
    have hleft : (office w').left = insert w.nextFd (office w).left := by
      refine Set.ext (fun fd ↦ ?_)
      change Closed w' fd ↔ fd = w.nextFd ∨ Closed w fd
      rw [Closed, Closed, ho, List.mem_append, or_comm]
      simp
    refine Serves.one (a := .leave w.nextFd) ho (Linked.unheard hs.linked) ?_ rfl
    rw [hsame, hleft, Office.act, ← hsession, ← hbox, Function.update_eq_self,
      Function.update_eq_self]

theorem step_serves (hs : Steady w) (he : Enrolled w.server) (ha : AtRest w) (x : Input) :
    Serves w (step verify w x) := by
  cases @step_turn verify w hs.sound x with
  | accept challenge created _ h => exact Accepted.serves h hs (step_steady hs x) he
  | idle _ _ _ _ _ h => rw [h]; exact .refl w
  | handled i stream env fd _ hconn _ hchain _ =>
    refine (Chain.carry (P := fun v ↦ Enrolled v.server ∧ Accounted v i ∧ Serves w v)
      (fun v v' heff hv hp ↦ ?_) hchain hs.consistent
      ⟨he, ha.accounted hs.sound.settled hconn, .refl w⟩).2.2.2
    obtain ⟨hev, hav, hserves⟩ := hp
    exact ⟨Effect.enrolled heff hev, Effect.accounted heff hv.sockets hav,
      hserves.trans (Effect.serves heff hv hev hav)⟩

theorem run_serves (hs : Steady w) (he : Enrolled w.server) (ha : AtRest w) (xs : List Input) :
    Serves w (run (step verify) w xs) := by
  induction xs generalizing w with
  | nil => exact .refl w
  | cons x xs ih =>
    exact (step_serves hs he ha x).trans (ih (step_steady hs x)
      (Turn.enrolled (step_turn hs.sound x) he) (step_atRest hs ha x))

theorem office_initial : office World.initial = Office.empty := by
  refine Office.ext rfl rfl rfl (Set.ext (fun fd ↦ ?_))
  exact iff_of_false List.not_mem_nil (Set.notMem_empty fd)

theorem reach_serves (xs ys : List Input) :
    Serves (reach verify xs) (reach verify (xs ++ ys)) := by
  rw [reach, reach, run_append]
  exact run_serves (reach_steady xs) (reach_enrolled xs) (reach_atRest xs) ys

theorem office_valid (xs : List Input) : (office (reach verify xs)).Valid rules := by
  obtain ⟨acts, _, hadmits, hrun, _⟩ := @reach_serves verify [] xs
  rw [List.nil_append] at hrun
  rw [← hrun]
  exact acts_valid (office_initial ▸ empty_valid) hadmits

/-- Every run of the server is a run of the message office by its rules, from
the empty office on, and so is every later part of it. -/
theorem service_refines (xs ys : List Input) :
    office World.initial = Office.empty ∧ (office (reach verify xs)).Valid rules ∧
      Serves (reach verify xs) (reach verify (xs ++ ys)) :=
  ⟨office_initial, office_valid xs, reach_serves xs ys⟩

def Deed.letter : Deed → Option Letter
  | .posted m => some m
  | _ => none

def Deed.handedTo (fd : Fd) : Deed → Option Bytes
  | .handed fd' payload => if fd' = fd then some payload else none
  | _ => none

def queuedLetters (es : List Event) : List Letter :=
  (es.filterMap Event.deed).filterMap Deed.letter

def handedTo (fd : Fd) (es : List Event) : List Bytes :=
  (es.filterMap Event.deed).filterMap (Deed.handedTo fd)

theorem queuedLetters_eq {es : List Event} {acts : List OfficeAct}
    (h : es.filterMap Event.deed = acts.filterMap Act.deed) : queuedLetters es =
      ((acts.filterMap Act.boxed).filterMap Boxes.Act.arrival).map Prod.snd := by
  rw [queuedLetters, h, List.filterMap_filterMap, List.filterMap_filterMap, List.map_filterMap]
  refine List.filterMap_congr (fun a _ ↦ ?_)
  cases a <;> rfl

theorem handedTo_eq {es : List Event} {acts : List OfficeAct}
    (h : es.filterMap Event.deed = acts.filterMap Act.deed) (fd : Fd) : handedTo fd es =
      (Boxes.share fd ((acts.filterMap Act.boxed).filterMap Boxes.Act.departure)).map
        Letter.payload := by
  rw [handedTo, h]
  clear h
  induction acts with
  | nil => rfl
  | cons a acts ih =>
    cases a with
    | hand fd' m =>
      by_cases heq : fd' = fd
      · simpa [Act.deed, Act.boxed, Boxes.Act.departure, Deed.handedTo, List.filterMap_cons, heq]
          using ih
      · simpa [Act.deed, Act.boxed, Boxes.Act.departure, Deed.handedTo, List.filterMap_cons, heq]
          using ih
    | _ => exact ih

/-- Between any two states of a run, each queued message goes to one connection,
and what waits for a connection and is queued for it leaves its queue in that
order, each message once: it is handed over, or the connection is closed. -/
theorem queued_in_order (xs ys : List Input) :
    ∃ (es : List Event) (letters : Fd → List Letter) (fates : Fd → List (Letter × Bool)),
      (reach verify (xs ++ ys)).out = (reach verify xs).out ++ es ∧
      Interleaving.Merges letters (queuedLetters es) ∧
      ∀ fd, boxOn (reach verify xs) fd ++ letters fd =
          (fates fd).map Prod.fst ++ boxOn (reach verify (xs ++ ys)) fd ∧
        handedTo fd es = (Boxes.handed (fates fd)).map Letter.payload ∧
        (¬ Closed (reach verify (xs ++ ys)) fd → ∀ f ∈ fates fd, f.2 = true) := by
  obtain ⟨acts, es, hadmits, hrun, ho, hdeeds⟩ := @reach_serves verify xs ys
  obtain ⟨hfits, hboxes⟩ := acts_boxed hadmits
  choose fates hsplit hhanded hclear using Boxes.fates (office (reach verify xs)).box hfits
  refine ⟨es, fun fd ↦ Boxes.share fd ((acts.filterMap Act.boxed).filterMap Boxes.Act.arrival),
    fates, ho, ?_, fun fd ↦ ⟨?_, ?_, fun hopen ↦ hclear fd (fun hleft ↦ ?_)⟩⟩
  · rw [queuedLetters_eq hdeeds]
    exact Boxes.share_merges _
  · rw [← hboxes, hrun] at hsplit
    exact hsplit fd
  · rw [handedTo_eq hdeeds, hhanded]
  · have hgone := left_of_clear (o := office (reach verify xs)) (.inr hleft)
    rw [hrun] at hgone
    exact hopen hgone

end CChat.Server.Service
