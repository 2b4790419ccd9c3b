import CChat.Library.Amortized
import CChat.Threads.Crew
import Mathlib.Algebra.BigOperators.Group.Finset.Piecewise

namespace CChat.Threads.Progress

open CChat.Library CChat.Library.Amortized CChat.Protocol.Types CChat.Server.State
  CChat.Server.Users CChat.Server.Handlers CChat.Server.Effects CChat.Server.Steps
  CChat.Server.Unchanged Machine Sections Messages Crew
open CChat.Server.Loop hiding Input step reach
open CChat.Server.Invariants (freeSlot_some)

/-- The steps a handler may still take before it waits for bytes or is done,
whatever the others do. -/
def effort : Control → ℕ
  | .reading | .done => 0
  | .shutting => 1
  | .sweeping _ _ j .closing => 2 + (maxClients - j)
  | .announcing _ _ .closing => maxClients + 3
  | .offlining _ => maxClients + 4
  | .closing => maxClients + 5
  | .testing => maxClients + 6
  | .refusing _ | .replying _ _ | .fetching | .hangingUp => maxClients + 7
  | .registering _ _ | .delivering | .copyingKey _ _ | .storing _ _ _ _ => maxClients + 8
  | .seekingKey _ | .queueing _ _ _ => maxClients + 9
  | .sending _ _ _ _ => maxClients + 10
  | .locating _ _ _ => maxClients + 11
  | .drawing _ _ => maxClients + 12
  | .seekingRecipient _ _ => maxClients + 13
  | .sweeping _ _ j .statusSet => maxClients + 7 + (maxClients - j)
  | .announcing _ _ .statusSet => 2 * maxClients + 8
  | .settingClient _ => 2 * maxClients + 9
  | .settingUser _ _ => 2 * maxClients + 10
  | .seekingSelf _ => 2 * maxClients + 11
  | .snapshotting k _ => maxClients + 8 + (maxClients - k)
  | .listing => 2 * maxClients + 9
  | .sweeping _ _ j .loggedIn => maxClients + 9 + (maxClients - j)
  | .announcing _ _ .loggedIn => 2 * maxClients + 10
  | .onlining _ _ => 2 * maxClients + 11
  | .accrediting _ _ _ => 2 * maxClients + 12
  | .identifying _ _ => 2 * maxClients + 13

/-- The most a handler can have before it. -/
def toll : ℕ := 2 * maxClients + 13

def able (m : Pool) (h : Fd) : Bool :=
  (m.handlers h).any (fun handler ↦ decide (handler.control ≠ .reading) &&
    decide (handler.control ≠ .done) && !m.blocked handler.slot handler.control)

def Control.keepsClient : Control → Bool
  | .offlining _ => true
  | .announcing _ _ .closing => true
  | .sweeping _ _ _ .closing => true
  | .shutting => true
  | _ => false

def Control.locksClient : Control → Bool
  | .accrediting _ _ _ => true
  | .settingClient _ => true
  | .hangingUp => true
  | .closing => true
  | _ => false

/-- Whether the step wants a `client->mutex` that a closing block of the slot keeps.
That `accept` clears the mutex of a slot it gives away is left out, so that a
handler is rather kept from a step here than not. -/
def barred (m : Pool) (i : ℕ) (c : Control) : Bool :=
  Control.locksClient c && (List.range m.world.nextFd).any (fun h ↦
    (m.handlers h).any (fun handler ↦ decide (handler.slot = i) &&
      Control.keepsClient handler.control))

/-- No mutex at all keeps the handler from its step. -/
def free (m : Pool) (h : Fd) : Bool :=
  able m h && (m.handlers h).all (fun handler ↦ !barred m handler.slot handler.control)

/-- Every handler waits for bytes or is done. -/
def Waiting (m : Pool) : Prop :=
  ∀ h handler, m.handlers h = some handler → handler.control = .reading ∨ handler.control = .done

def spent (m : Pool) : Input → ℕ
  | .go h => if able m h then 1 else 0
  | _ => 0

def paid (_ : Pool) : Input → ℕ
  | .accept _ _ => toll
  | .receive _ _ => toll
  | _ => 0

def load (handler : Option Handler) : ℕ := (handler.map (fun k ↦ effort k.control)).getD 0

def work (m : Pool) : ℕ := ∑ h ∈ Finset.range m.world.nextFd, load (m.handlers h)

structure Sized (m : Pool) : Prop where
  rings : Rings m.world
  clients : m.world.server.clientCount ≤ maxClients
  users : m.world.server.userCount ≤ maxClients
  started : ∀ h handler, m.handlers h = some handler → h < m.world.nextFd

variable {verify : Signature → Challenge → Key → Bool} {m : Pool} {w w' : World} {i : ℕ}
  {c c' : Control} {h : Fd}

theorem effort_le (c : Control) : effort c ≤ toll := by
  unfold effort toll
  split <;> omega

theorem proceed_effort (hclients : w.server.clientCount ≤ maxClients)
    (husers : w.server.userCount ≤ maxClients) (hreading : c ≠ .reading) (hdone : c ≠ .done) :
    effort (proceed verify w i c).2 < effort c := by
  cases c with
  | reading => exact absurd rfl hreading
  | done => exact absurd rfl hdone
  | testing =>
    simp only [proceed]
    split
    · exact Nat.succ_pos _
    · exact Nat.lt_succ_self _
  | refusing e => exact Nat.lt_succ_self _
  | replying type payload => exact Nat.lt_succ_self _
  | registering username key => exact Nat.lt_succ_self _
  | identifying username signature =>
    simp only [proceed]
    split <;> simp only [effort] <;> omega
  | accrediting k username signature =>
    simp only [proceed]
    split
    · simp only [effort]
      omega
    · split <;> simp only [effort] <;> omega
  | onlining k username => exact Nat.lt_succ_self _
  | announcing username status after =>
    simp only [proceed]
    split <;> cases after <;> simp only [effort, After.control] <;> omega
  | sweeping username status j after =>
    simp only [proceed]
    split
    · split <;> cases after <;> simp only [effort] <;> omega
    · cases after <;> simp only [effort, After.control] <;> omega
  | delivering => exact Nat.lt_succ_self _
  | seekingKey username =>
    simp only [proceed]
    split <;> simp only [effort] <;> omega
  | copyingKey k username => exact Nat.lt_succ_self _
  | seekingRecipient recipient data =>
    simp only [proceed]
    split <;> simp only [effort] <;> omega
  | drawing recipient data => exact Nat.lt_succ_self _
  | locating id recipient data =>
    simp only [proceed]
    split <;> simp only [effort] <;> omega
  | sending id recipient data j =>
    simp only [proceed]
    split
    · simp only [effort]
      omega
    · split <;> simp only [effort] <;> omega
  | queueing id recipient data =>
    simp only [proceed]
    split
    · simp only [effort]
      omega
    · split <;> simp only [effort] <;> omega
  | storing id recipient data j => exact Nat.lt_succ_self _
  | fetching => exact Nat.lt_succ_self _
  | seekingSelf status =>
    simp only [proceed]
    split <;> simp only [effort] <;> omega
  | settingUser k status => exact Nat.lt_succ_self _
  | settingClient status => exact Nat.lt_succ_self _
  | listing =>
    simp only [proceed]
    split <;> simp only [effort] <;> omega
  | snapshotting k users =>
    simp only [proceed]
    split <;> simp only [effort] <;> omega
  | hangingUp => exact Nat.lt_succ_self _
  | closing =>
    simp only [proceed]
    split
    · split <;> simp only [effort] <;> omega
    · simp only [effort]
      omega
  | offlining k => exact Nat.lt_succ_self _
  | shutting => exact Nat.lt_succ_self _

theorem section_users (hs : Section verify w i c w') (h : w.server.userCount ≤ maxClients) :
    w'.server.userCount ≤ maxClients := by
  cases hs with
  | still hs => exact hs.userCount.trans_le h
  | added username key _ hadded => exact hadded.userCount.trans_le hadded.room
  | login k username signature _ _ hs => exact (congrArg ServerState.userCount hs).trans_le h
  | status k status _ hw => exact hw ▸ h
  | hangUp _ hw => exact hw ▸ h
  | shut _ hs => exact (congrArg ServerState.userCount hs).trans_le h

theorem initial_sized : Sized Pool.initial :=
  ⟨initial_rings, Nat.zero_le _, Nat.zero_le _, fun _ _ hh ↦ by cases hh⟩

theorem started_put (hm : Sized m) (hh : m.handlers h = some ⟨i, c⟩)
    (hn : m.world.nextFd ≤ w'.nextFd) : ∀ h' handler,
      (m.put h i (w', c')).handlers h' = some handler → h' < w'.nextFd := by
  intro h' handler hh'
  refine Nat.lt_of_lt_of_le ?_ hn
  by_cases heq : h' = h
  · exact heq ▸ hm.started h _ hh
  · exact hm.started h' handler ((Function.update_of_ne heq _ m.handlers).symm.trans hh')

theorem step_sized (hm : Sized m) (x : Input) : Sized (step verify m x) := by
  obtain ⟨j, es, hes⟩ := @step_handled verify m hm.rings x
  have hrings := hes.rings
  cases @step_turn verify m x with
  | idle h => rwa [h]
  | accept challenge created _ _ h =>
    rw [h] at hrings ⊢
    cases acceptHandler_joined m challenge created with
    | full hs hn _ hh =>
      refine ⟨hrings, (congrArg ServerState.clientCount hs).trans_le hm.clients,
        (congrArg ServerState.userCount hs).trans_le hm.users, fun h' handler hh' ↦ ?_⟩
      rw [hn]
      exact Nat.lt_succ_of_lt (hm.started h' handler (hh ▸ hh'))
    | slot i created' es hi hself hother hcount husers hn _ _ hh =>
      refine ⟨hrings, ?_, husers.2.trans_le hm.users, fun h' handler hh' ↦ ?_⟩
      · rw [hcount]
        exact Nat.max_le.mpr ⟨(freeSlot_some hi).1, hm.clients⟩
      · rw [hn]
        rw [hh] at hh'
        split at hh'
        · by_cases heq : h' = m.world.nextFd
          · rw [heq]
            exact Nat.lt_succ_self _
          · rw [Function.update_of_ne heq] at hh'
            exact Nat.lt_succ_of_lt (hm.started h' handler hh')
        · exact Nat.lt_succ_of_lt (hm.started h' handler hh')
  | receive h stream i _ hh h' =>
    obtain ⟨r, hr⟩ := (takeRequest_admitted m.world i stream).server
    obtain ⟨es', hplain⟩ := takeRequest_plain m.world i stream
    rw [h', ← Prod.mk.eta (p := receiveRequest m.world i stream), receiveRequest_world] at hrings ⊢
    exact ⟨hrings, (congrArg ServerState.clientCount hr).trans_le hm.clients,
      (congrArg ServerState.userCount hr).trans_le hm.users,
      started_put hm hh hplain.nextFd.ge⟩
  | go h i c _ hh _ h' =>
    have hs := @proceed_section verify m.world i c
    obtain ⟨es', hproceed⟩ := @proceed_handled verify m.world hm.rings i c
    rw [h', ← Prod.mk.eta (p := proceed verify m.world i c)] at hrings ⊢
    exact ⟨hrings, (Section.clientCount hs).trans_le hm.clients, section_users hs hm.users,
      started_put hm hh hproceed.nextFd⟩
  | environment env _ h =>
    rw [h] at hrings ⊢
    exact ⟨hrings, hm.clients, hm.users, hm.started⟩

theorem work_eq (hm : ∀ h handler, m.handlers h = some handler → h < m.world.nextFd) {n : ℕ}
    (hn : m.world.nextFd ≤ n) : work m = ∑ h ∈ Finset.range n, load (m.handlers h) := by
  refine Finset.sum_subset (Finset.range_mono hn) (fun h _ hout ↦ ?_)
  cases hh : m.handlers h with
  | none => rfl
  | some handler => exact absurd (Finset.mem_range.mpr (hm h handler hh)) hout

/-- What becomes of the work when one handler is given another control. -/
theorem work_update (hm : Sized m) {m' : Pool} {handler : Handler} {h : Fd}
    (hn : m.world.nextFd ≤ m'.world.nextFd) (hlt : h < m'.world.nextFd)
    (hh : m'.handlers = Function.update m.handlers h (some handler)) :
    work m' + load (m.handlers h) = work m + effort handler.control := by
  have hnew : ∀ h', load (m'.handlers h') =
      Function.update (fun h' ↦ load (m.handlers h')) h (effort handler.control) h' := by
    intro h'
    rw [hh]
    by_cases heq : h' = h
    · subst heq
      rw [Function.update_self, Function.update_self]
      rfl
    · rw [Function.update_of_ne heq, Function.update_of_ne heq]
  rw [work_eq hm.started hn, work, Finset.sum_congr rfl (fun h' _ ↦ hnew h'),
    Finset.sum_update_of_mem (Finset.mem_range.mpr hlt),
    Finset.sum_eq_add_sum_sdiff_singleton_of_mem (Finset.mem_range.mpr hlt)
      (fun h ↦ load (m.handlers h))]
  omega

theorem able_of (hh : m.handlers h = some ⟨i, c⟩) (hreading : c ≠ .reading) (hdone : c ≠ .done)
    (hfree : m.blocked i c = false) : able m h = true := by
  simp [able, hh, hreading, hdone, hfree]

theorem put_work (hm : Sized m) (hh : m.handlers h = some ⟨i, c⟩)
    (hn : m.world.nextFd ≤ w'.nextFd) :
    work (m.put h i (w', c')) + effort c = work m + effort c' := by
  have hupdate := @work_update m hm (m.put h i (w', c')) ⟨i, c'⟩ h hn
    (Nat.lt_of_lt_of_le (hm.started h _ hh) hn) rfl
  rw [hh] at hupdate
  exact hupdate

theorem accept_work (hm : Sized m) (challenge : Challenge) (created : Bool) :
    work (acceptHandler m challenge created) ≤ work m + toll := by
  have hsame : ∀ m' : Pool, m'.handlers = m.handlers → m.world.nextFd ≤ m'.world.nextFd →
      work m' ≤ work m + toll := by
    intro m' hh hn
    rw [work_eq hm.started hn, work, hh]
    exact Nat.le_add_right _ _
  cases acceptHandler_joined m challenge created with
  | full _ hn _ hh => exact hsame _ hh (by rw [hn]; exact Nat.le_succ _)
  | slot i created' _ _ _ _ _ _ hn _ _ hh =>
    cases created' with
    | false => exact hsame _ (hh.trans (if_neg (by decide))) (by rw [hn]; exact Nat.le_succ _)
    | true =>
      have hupdate := work_update hm (by rw [hn]; exact Nat.le_succ _)
        (by rw [hn]; exact Nat.lt_succ_self _) (hh.trans (if_pos rfl))
      have htesting : effort .testing ≤ toll := effort_le _
      dsimp only at hupdate
      omega

theorem go_work (hm : Sized m) : work (step verify m (.go h)) + spent m (.go h) ≤ work m := by
  cases hh : m.handlers h with
  | none =>
    have hidle : able m h = false := by simp [able, hh]
    simp only [step, hh, spent, hidle, Bool.false_eq_true, ↓reduceIte]
    exact Nat.le_refl _
  | some handler =>
    obtain ⟨i, c⟩ := handler
    obtain ⟨es, hproceed⟩ := @proceed_handled verify m.world hm.rings i c
    have hput := @put_work m (proceed verify m.world i c).1 i c (proceed verify m.world i c).2 h
      hm hh hproceed.nextFd
    rw [Prod.mk.eta] at hput
    simp only [step, hh, spent]
    by_cases hblocked : m.blocked i c = true
    · have hidle : able m h = false := by simp [able, hh, hblocked]
      simp only [hblocked, hidle, ↓reduceIte, Bool.false_eq_true]
      exact Nat.le_refl _
    · rw [if_neg hblocked]
      by_cases hreading : c = .reading
      · have hidle : able m h = false := by simp [able, hh, hreading]
        subst hreading
        simp only [hidle, Bool.false_eq_true, ↓reduceIte]
        exact hput.le
      · by_cases hdone : c = .done
        · have hidle : able m h = false := by simp [able, hh, hdone]
          subst hdone
          simp only [hidle, Bool.false_eq_true, ↓reduceIte]
          exact hput.le
        · have hless := @proceed_effort verify m.world i c hm.clients hm.users hreading hdone
          split <;> omega

/-- No input brings more work than its toll, and no step takes up more than it
does. -/
theorem covers : Covers (step verify) Sized work spent paid where
  kept _ x hm := step_sized hm x
  balance m x hm := by
    cases x with
    | accept challenge created =>
      simp only [step, spent, paid, Nat.add_zero]
      split
      · exact Nat.le_add_right _ _
      · exact accept_work hm challenge created
    | receive h stream =>
      simp only [step, spent, paid, Nat.add_zero]
      split
      next i hh =>
        obtain ⟨es, hplain⟩ := takeRequest_plain m.world i stream
        have hput := @put_work m (receiveRequest m.world i stream).1 i .reading
          (receiveRequest m.world i stream).2 h hm hh
          (by rw [receiveRequest_world]; exact hplain.nextFd.ge)
        have hle := effort_le (receiveRequest m.world i stream).2
        rw [Prod.mk.eta] at hput
        have hzero : effort .reading = 0 := rfl
        omega
      · exact Nat.le_add_right _ _
    | go h => exact go_work hm
    | environment env => exact Nat.le_refl _

theorem held_some {x : Mutex} (h' : m.held x = true) :
    ∃ h i c, m.handlers h = some ⟨i, c⟩ ∧ Control.holds c = some x := by
  obtain ⟨h, _, hany⟩ := List.any_eq_true.mp h'
  cases hh : m.handlers h with
  | none => simp [hh] at hany
  | some handler =>
    rw [hh] at hany
    exact ⟨h, handler.slot, handler.control, hh, of_decide_eq_true hany⟩

theorem free_of (hh : m.handlers h = some ⟨i, c⟩) (hable : able m h = true)
    (hopen : barred m i c = false) : free m h = true := by
  simp [free, hh, hable, hopen]

theorem holder_free {x : Mutex} (hh : m.handlers h = some ⟨i, c⟩) (hx : Control.holds c = some x) :
    free m h = true := by
  cases c with
  | snapshotting k users =>
    exact free_of hh (able_of hh (fun hc ↦ by cases hc) (fun hc ↦ by cases hc) rfl) rfl
  | sweeping username status j after =>
    cases j with
    | zero => cases hx
    | succ j => exact free_of hh (able_of hh (fun hc ↦ by cases hc) (fun hc ↦ by cases hc) rfl) rfl
  | _ => cases hx

/-- Who waits for `users_mutex` or `clients_mutex` waits for a handler that is free. -/
theorem blocked_free (hblocked : m.blocked i c = true) : ∃ h, free m h = true := by
  unfold Pool.blocked at hblocked
  cases hx : acquires (m.world.server.clients i) c with
  | none => simp [hx] at hblocked
  | some x =>
    rw [hx, Option.any_some] at hblocked
    obtain ⟨h, i', c', hh, hholds⟩ := held_some hblocked
    exact ⟨h, holder_free hh hholds⟩

/-- A step that locks no `client->mutex` can be taken, or waits for a handler that is free. -/
theorem unlocking_free (hh : m.handlers h = some ⟨i, c⟩) (hreading : c ≠ .reading)
    (hdone : c ≠ .done) (hlocks : Control.locksClient c = false) : ∃ h, free m h = true := by
  cases hblocked : m.blocked i c with
  | true => exact blocked_free hblocked
  | false =>
    refine ⟨h, free_of hh (able_of hh hreading hdone hblocked) ?_⟩
    rw [barred, hlocks, Bool.false_and]

/-- The closing block locks its mutex once. -/
theorem keeps_unlocking (hkeeps : Control.keepsClient c = true) :
    c ≠ .reading ∧ c ≠ .done ∧ Control.locksClient c = false := by
  refine ⟨?_, ?_, ?_⟩
  · rintro rfl
    cases hkeeps
  · rintro rfl
    cases hkeeps
  · cases c with
    | accrediting k username signature => cases hkeeps
    | settingClient status => cases hkeeps
    | hangingUp => cases hkeeps
    | closing => cases hkeeps
    | _ => rfl

theorem keeper_free (hh : m.handlers h = some ⟨i, c⟩) (hkeeps : Control.keepsClient c = true) :
    ∃ h, free m h = true := by
  obtain ⟨hreading, hdone, hlocks⟩ := keeps_unlocking hkeeps
  exact unlocking_free hh hreading hdone hlocks

theorem barred_some (hbarred : barred m i c = true) :
    ∃ h c', m.handlers h = some ⟨i, c'⟩ ∧ Control.keepsClient c' = true := by
  rw [barred, Bool.and_eq_true] at hbarred
  obtain ⟨h, _, hany⟩ := List.any_eq_true.mp hbarred.2
  cases hh : m.handlers h with
  | none => simp [hh] at hany
  | some handler =>
    rw [hh, Option.any_some, Bool.and_eq_true, decide_eq_true_eq] at hany
    obtain ⟨rfl, hkeeps⟩ := hany
    exact ⟨h, handler.control, hh, hkeeps⟩

/-- Unless all wait, some handler can go on: one that waits for a `client->mutex`
waits for a closing block, and that at most for one of the two mutexes of the
server, whose holder waits for none. -/
theorem waiting_or_free (m : Pool) : Waiting m ∨ ∃ h, free m h = true := by
  by_cases hw : Waiting m
  · exact .inl hw
  · right
    unfold Waiting at hw
    push Not at hw
    obtain ⟨h, ⟨i, c⟩, hh, hreading, hdone⟩ := hw
    cases hbarred : barred m i c with
    | true =>
      obtain ⟨h', c', hh', hkeeps⟩ := barred_some hbarred
      exact keeper_free hh' hkeeps
    | false =>
      cases hblocked : m.blocked i c with
      | true => exact blocked_free hblocked
      | false => exact ⟨h, free_of hh (able_of hh hreading hdone hblocked) hbarred⟩

def Advances (m : Pool) (x : Input) : Prop := ∃ h, x = .go h ∧ able m h = true

def turns (verify : Signature → Challenge → Key → Bool) : Pool → List Input → ℕ :=
  total (step verify) spent

def Input.arrives : Input → Bool
  | .accept _ _ => true
  | .receive _ _ => true
  | _ => false

theorem total_paid (m : Pool) (xs : List Input) :
    total (step verify) paid m xs = toll * xs.countP Input.arrives := by
  induction xs generalizing m with
  | nil => rfl
  | cons x xs ih =>
    rw [total, ih, List.countP_cons]
    cases x <;> simp only [paid, Input.arrives, ↓reduceIte, Bool.false_eq_true] <;> ring

theorem working_eq : Working spent paid = Advances := by
  refine funext (fun m ↦ funext (fun x ↦ propext ?_))
  unfold Working Advances
  cases x with
  | go h =>
    cases ha : able m h with
    | true => simp [spent, paid, ha]
    | false => simp [spent, paid, ha]
  | _ => simp [spent]

/-- Some handler that no mutex keeps from its step takes it. -/
def Proceeds (m : Pool) (x : Input) : Prop := ∃ h, x = .go h ∧ free m h = true

theorem Proceeds.advances {x : Input} (hx : Proceeds m x) : Advances m x := by
  obtain ⟨h, rfl, hfree⟩ := hx
  rw [free, Bool.and_eq_true] at hfree
  exact ⟨h, rfl, hfree.1⟩

/-- The handlers never work without end and never get stuck: their steps are
bounded by what has arrived, and however they go on from any reachable state,
some handler is free to until all wait for bytes or are done. -/
theorem requests_finish (xs : List Input) :
    turns verify Pool.initial xs + work (reach verify xs) ≤ toll * xs.countP Input.arrives ∧
      (∀ ys, Runs.Along (step verify) Advances (reach verify xs) ys →
        ys.length ≤ work (reach verify xs) ∧
          ((∀ h, free (Runs.run (step verify) (reach verify xs) ys) h = false) →
            Waiting (Runs.run (step verify) (reach verify xs) ys))) ∧
      ∃ ys, Runs.Along (step verify) Proceeds (reach verify xs) ys ∧
        Waiting (Runs.run (step verify) (reach verify xs) ys) := by
  have hm : Sized (reach verify xs) :=
    Runs.run_invariant (Q := Sized) (fun _ x hm ↦ step_sized hm x) initial_sized xs
  refine ⟨?_, fun ys hys ↦ ⟨?_, fun hnone ↦ ?_⟩, ?_⟩
  · have hrun := (@covers verify).run initial_sized xs
    rw [total_paid] at hrun
    have hzero : work Pool.initial = 0 := rfl
    rw [turns, reach]
    omega
  · rw [← working_eq] at hys
    have hbound := covers.bounded hm hys
    omega
  · obtain hw | ⟨h, hfree⟩ := waiting_or_free (Runs.run (step verify) (reach verify xs) ys)
    · exact hw
    · rw [hnone h] at hfree
      cases hfree
  · refine covers.settles (fun m x hx ↦ ?_) (fun m _ hrest ↦ ?_) hm
    · rw [working_eq]
      exact hx.advances
    · obtain ⟨h, hfree⟩ := (waiting_or_free m).resolve_left hrest
      exact ⟨.go h, h, rfl, hfree⟩

end CChat.Threads.Progress
