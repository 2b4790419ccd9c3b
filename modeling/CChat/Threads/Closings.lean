import CChat.Threads.Descriptors

namespace CChat.Threads.Closings

open CChat.Library CChat.Protocol.Types Descriptors

def Position.late : Position → Bool
  | .resetting => true
  | .clearing => true
  | .unlocking => true
  | .returned => true
  | _ => false

structure Fresh (p : Process) (fd : Fd) : Prop where
  issued : listening < fd ∧ fd < p.nextFd
  unclosed : fd ∉ p.closes
  unplaced : ∀ k, (p.slots k).socketFd ≠ some fd
  untouched : ∀ h, (p.handlers h).closed ≠ some fd

structure Installed (p : Process) (fd : Fd) (i : ℕ) : Prop where
  issued : listening < fd ∧ fd < p.nextFd
  closed : fd ∈ p.closes ↔ ∃ h, (p.handlers h).closed = some fd
  placed : ∀ k x, (p.slots k).socketFd = some x → (k = i ↔ x = fd)

structure Kept (p : Process) : Prop where
  numbered : listening < p.nextFd
  issued : ∀ fd ∈ p.closes, fd < p.nextFd
  stopped : listening ∈ p.closes ↔ p.signal = .returned ∨ Main.cleaning p.main = true
  placed : ∀ {k fd}, (p.slots k).socketFd = some fd → listening < fd ∧ fd < p.nextFd
  apart : ∀ {j k fd}, (p.slots j).socketFd = some fd → (p.slots k).socketFd = some fd → j = k
  current : ∀ {k fd}, (p.slots k).socketFd = some fd → (fd ∉ p.closes ↔
    (p.slots k).unreset = false ∧
      ∀ h, (p.handlers h).position = .resetting → (p.handlers h).closed ≠ some fd)
  own : ∀ {h fd}, (p.handlers h).closed = some fd → (listening < fd ∧ fd < p.nextFd) ∧
    ∀ k, (p.slots k).socketFd = some fd →
      k = (p.handlers h).slot ∧ (p.handlers h).position = .resetting
  late : ∀ {h}, (p.handlers h).closed ≠ none → Position.late (p.handlers h).position = true
  absent : ∀ h, p.handlerCount ≤ h → (p.handlers h).position = .absent
  scanned : ∀ {fd i}, p.main = .scanning fd i → Fresh p fd
  created : ∀ {fd i}, p.main = .creating fd i → Installed p fd i

theorem initial_kept : Kept Process.initial where
  numbered := Nat.lt_succ_self _
  issued := fun fd hfd ↦ by cases hfd
  stopped := by decide
  placed := fun h ↦ by cases h
  apart := fun h ↦ by cases h
  current := fun h ↦ by cases h
  own := fun h ↦ by cases h
  late := fun h ↦ absurd rfl h
  absent := fun _ _ ↦ rfl
  scanned := fun h ↦ by cases h
  created := fun h ↦ by cases h

variable {p q : Process} {i h : ℕ}

structure Follows (a b : Handler) : Prop where
  closed : b.closed = a.closed
  slot : a.closed ≠ none → b.slot = a.slot
  resetting : a.closed ≠ none → (b.position = .resetting ↔ a.position = .resetting)
  late : a.closed ≠ none → Position.late a.position = true → Position.late b.position = true

structure Silent (p q : Process) : Prop where
  closes : q.closes = p.closes
  nextFd : q.nextFd = p.nextFd
  socketFd : ∀ k, (q.slots k).socketFd = (p.slots k).socketFd
  unreset : ∀ k, (p.slots k).socketFd ≠ none → (q.slots k).unreset = (p.slots k).unreset
  handlers : ∀ h, Follows (p.handlers h) (q.handlers h)

theorem Follows.refl (a : Handler) : Follows a a :=
  ⟨rfl, fun _ ↦ rfl, fun _ ↦ Iff.rfl, fun _ h ↦ h⟩

theorem Follows.early {a b : Handler} (ha : a.closed = none) (hb : b.closed = none) :
    Follows a b :=
  ⟨hb.trans ha.symm, fun h ↦ absurd ha h, fun h ↦ absurd ha h, fun h ↦ absurd ha h⟩

theorem Silent.kept (hs : Silent p q) (hk : Kept p)
    (hstopped : (q.signal = .returned ∨ Main.cleaning q.main = true) ↔
      (p.signal = .returned ∨ Main.cleaning p.main = true))
    (habsent : ∀ h, q.handlerCount ≤ h → (q.handlers h).position = .absent)
    (hscanned : ∀ {fd i}, q.main = .scanning fd i → Fresh p fd)
    (hcreated : ∀ {fd i}, q.main = .creating fd i → Installed p fd i) : Kept q := by
  have hresetting : ∀ h fd, (p.handlers h).closed = some fd →
      ((q.handlers h).position = .resetting ↔ (p.handlers h).position = .resetting) :=
    fun h fd hfd ↦ (hs.handlers h).resetting (by rw [hfd]; exact Option.some_ne_none fd)
  refine ⟨?_, ?_, ?_, ?_, ?_, ?_, ?_, ?_, habsent, ?_, ?_⟩
  · rw [hs.nextFd]
    exact hk.numbered
  · rw [hs.closes, hs.nextFd]
    exact hk.issued
  · rw [hs.closes, hstopped]
    exact hk.stopped
  · intro k fd hfd
    rw [hs.socketFd] at hfd
    rw [hs.nextFd]
    exact hk.placed hfd
  · intro j k fd hj hk'
    rw [hs.socketFd] at hj hk'
    exact hk.apart hj hk'
  · intro k fd hfd
    rw [hs.socketFd] at hfd
    rw [hs.closes, hs.unreset k (by rw [hfd]; exact Option.some_ne_none fd), hk.current hfd]
    refine and_congr_right (fun _ ↦ forall_congr' (fun h ↦ ?_))
    rw [(hs.handlers h).closed]
    by_cases hclosed : (p.handlers h).closed = some fd
    · rw [hresetting h fd hclosed]
    · exact iff_of_true (fun _ ↦ hclosed) (fun _ ↦ hclosed)
  · intro h fd hfd
    rw [(hs.handlers h).closed] at hfd
    obtain ⟨hissued, hown⟩ := hk.own hfd
    rw [hs.nextFd]
    refine ⟨hissued, fun k hplaced ↦ ?_⟩
    rw [hs.socketFd] at hplaced
    have hsome : (p.handlers h).closed ≠ none := by rw [hfd]; exact Option.some_ne_none fd
    rw [(hs.handlers h).slot hsome, hresetting h fd hfd]
    exact hown k hplaced
  · intro h hsome
    rw [(hs.handlers h).closed] at hsome
    exact (hs.handlers h).late hsome (hk.late hsome)
  · intro fd i hmain
    obtain ⟨hissued, hunclosed, hunplaced, huntouched⟩ := hscanned hmain
    refine ⟨?_, ?_, fun k ↦ ?_, fun h ↦ ?_⟩
    · rw [hs.nextFd]
      exact hissued
    · rw [hs.closes]
      exact hunclosed
    · rw [hs.socketFd]
      exact hunplaced k
    · rw [(hs.handlers h).closed]
      exact huntouched h
  · intro fd i hmain
    obtain ⟨hissued, hclosed, hplaced⟩ := hcreated hmain
    refine ⟨?_, ?_, fun k x hx ↦ ?_⟩
    · rw [hs.nextFd]
      exact hissued
    · rw [hs.closes, hclosed]
      refine exists_congr (fun h ↦ ?_)
      rw [(hs.handlers h).closed]
    · rw [hs.socketFd] at hx
      exact hplaced k x hx

/-- `main` moves on without a descriptor in its hands. -/
theorem Silent.main_kept (hs : Silent p q) (hk : Kept p) (hsignal : q.signal = p.signal)
    (hhandlers : q.handlers = p.handlers) (hcount : q.handlerCount = p.handlerCount)
    (hcleaning : Main.cleaning q.main = Main.cleaning p.main)
    (hidle : Main.idle q.main = true) : Kept q := by
  refine hs.kept hk ?_ ?_ (fun hmain ↦ ?_) (fun hmain ↦ ?_)
  · rw [hsignal, hcleaning]
  · rw [hhandlers, hcount]
    exact hk.absent
  · rw [hmain] at hidle
    cases hidle
  · rw [hmain] at hidle
    cases hidle

theorem goto_silent (p : Process) (main : Main) : Silent p (p.goto main) :=
  ⟨rfl, rfl, fun _ ↦ rfl, fun _ _ ↦ rfl, fun _ ↦ .refl _⟩

theorem modifySlot_silent (p : Process) (i : ℕ) {f : Slot → Slot}
    (hfd : ∀ c, (f c).socketFd = c.socketFd) (hunreset : ∀ c, (f c).unreset = c.unreset) :
    Silent p (p.modifySlot i f) :=
  ⟨rfl, rfl, modifySlot_keeps Slot.socketFd hfd,
    fun k _ ↦ modifySlot_keeps Slot.unreset hunreset k, fun _ ↦ .refl _⟩

theorem accept_kept (hk : Kept p) (hmain : p.main = .accepting) :
    Kept { p with nextFd := p.nextFd + 1, main := .scanning p.nextFd 0 } where
  numbered := Nat.lt_succ_of_lt hk.numbered
  issued := fun fd hfd ↦ Nat.lt_succ_of_lt (hk.issued fd hfd)
  stopped := by
    rw [hk.stopped, hmain]
    exact Iff.rfl
  placed := fun hfd ↦ ⟨(hk.placed hfd).1, Nat.lt_succ_of_lt (hk.placed hfd).2⟩
  apart := hk.apart
  current := hk.current
  own := fun hfd ↦
    ⟨⟨(hk.own hfd).1.1, Nat.lt_succ_of_lt (hk.own hfd).1.2⟩, (hk.own hfd).2⟩
  late := hk.late
  absent := hk.absent
  scanned := by
    intro fd i hscanning
    obtain ⟨rfl, _⟩ := Main.scanning.inj hscanning
    exact ⟨⟨hk.numbered, Nat.lt_succ_self _⟩, fun hmem ↦ lt_irrefl _ (hk.issued _ hmem),
      fun k hfd ↦ lt_irrefl _ (hk.placed hfd).2, fun h hfd ↦ lt_irrefl _ (hk.own hfd).1.2⟩
  created := fun hcreating ↦ by cases hcreating

theorem refuse_kept (hk : Kept p) {fd : Fd} {i : ℕ} (hmain : p.main = .scanning fd i) :
    Kept ((p.close fd).goto .testing) := by
  obtain ⟨hissued, _, hunplaced, _⟩ := hk.scanned hmain
  refine ⟨hk.numbered, fun x hx ↦ ?_, ?_, hk.placed, hk.apart, fun {k x} hx ↦ ?_, hk.own, hk.late,
    hk.absent, fun h ↦ (by cases h), fun h ↦ (by cases h)⟩
  · obtain hx | rfl := (mem_close p fd x).mp hx
    · exact hk.issued x hx
    · exact hissued.2
  · show listening ∈ (p.close fd).closes ↔ _
    rw [mem_close, or_iff_left hissued.1.ne, hk.stopped, hmain]
    exact Iff.rfl
  · have hne : x ≠ fd := fun h ↦ hunplaced k (h ▸ hx)
    show x ∉ (p.close fd).closes ↔ _
    rw [mem_close, or_iff_left hne]
    exact hk.current hx

theorem place_kept (hk : Kept p) {fd : Fd} {i : ℕ} (hmain : p.main = .scanning fd i) (n : ℕ) :
    Kept { p.modifySlot i (fun _ ↦ ⟨some fd, true, false, false⟩) with
      clientCount := n, main := .creating fd i } := by
  obtain ⟨hissued, hunclosed, hunplaced, huntouched⟩ := hk.scanned hmain
  have hself : ((p.modifySlot i (fun _ ↦ ⟨some fd, true, false, false⟩)).slots i) =
      ⟨some fd, true, false, false⟩ := modifySlot_self _
  have hplaced : ∀ k x,
      ((p.modifySlot i (fun _ ↦ ⟨some fd, true, false, false⟩)).slots k).socketFd = some x →
        (k = i ∧ x = fd) ∨ (k ≠ i ∧ x ≠ fd ∧ (p.slots k).socketFd = some x) := by
    intro k x hx
    by_cases hk : k = i
    · rw [hk, hself] at hx
      exact .inl ⟨hk, (Option.some.inj hx).symm⟩
    · rw [modifySlot_other _ hk] at hx
      exact .inr ⟨hk, fun h ↦ hunplaced k (h ▸ hx), hx⟩
  refine ⟨hk.numbered, hk.issued, ?_, fun {k x} hx ↦ ?_, fun {j k x} hj hx ↦ ?_,
    fun {k x} hx ↦ ?_, fun {h x} hx ↦ ?_, hk.late, hk.absent, fun h ↦ (by cases h), ?_⟩
  · have hstopped := hk.stopped
    rw [hmain] at hstopped
    exact hstopped
  · obtain ⟨_, rfl⟩ | ⟨_, _, hx⟩ := hplaced k x hx
    · exact hissued
    · exact hk.placed hx
  · obtain ⟨rfl, rfl⟩ | ⟨_, hne, hx⟩ := hplaced k x hx
    · obtain ⟨rfl, _⟩ | ⟨_, hne, _⟩ := hplaced j _ hj
      · rfl
      · exact absurd rfl hne
    · obtain ⟨_, rfl⟩ | ⟨_, _, hj⟩ := hplaced j _ hj
      · exact absurd rfl hne
      · exact hk.apart hj hx
  · obtain ⟨rfl, rfl⟩ | ⟨hne, _, hx⟩ := hplaced k x hx
    · exact iff_of_true hunclosed ⟨congrArg Slot.unreset hself, fun h _ ↦ huntouched h⟩
    · have hother : ((p.modifySlot i (fun _ ↦ ⟨some fd, true, false, false⟩)).slots k).unreset =
          (p.slots k).unreset := by rw [modifySlot_other _ hne]
      have hcurrent := hk.current hx
      rw [← hother] at hcurrent
      exact hcurrent
  · obtain ⟨hbounds, hown⟩ := hk.own hx
    refine ⟨hbounds, fun k hfd ↦ ?_⟩
    obtain ⟨_, rfl⟩ | ⟨_, _, hfd⟩ := hplaced k x hfd
    · exact absurd hx (huntouched h)
    · exact hown k hfd
  · intro fd' i' hcreating
    obtain ⟨rfl, rfl⟩ := Main.creating.inj hcreating
    refine ⟨hissued, iff_of_false hunclosed (fun ⟨h, hfd⟩ ↦ huntouched h hfd), fun k x hx ↦ ?_⟩
    obtain ⟨hk, hx⟩ | ⟨hk, hx, _⟩ := hplaced k x hx
    · exact iff_of_true hk hx
    · exact iff_of_false hk hx

/-- `main` closes the socket of a slot and leaves the number in it. -/
theorem spend_kept (hk : Kept p) {fd : Fd} (hissued : listening < fd ∧ fd < p.nextFd)
    (hplaced : ∀ k x, (p.slots k).socketFd = some x → (k = i ↔ x = fd)) {main : Main}
    (hcleaning : Main.cleaning main = Main.cleaning p.main) (hidle : Main.idle main = true) :
    Kept (((p.close fd).modifySlot i (fun c ↦ { c with unreset := true })).goto main) := by
  have hfd : ∀ k,
      (((p.close fd).modifySlot i (fun c ↦ { c with unreset := true })).slots k).socketFd =
        (p.slots k).socketFd := modifySlot_keeps Slot.socketFd (fun _ ↦ rfl)
  refine ⟨hk.numbered, fun x hx ↦ ?_, ?_, fun {k x} hx ↦ ?_, fun {j k x} hj hx ↦ ?_,
    fun {k x} hx ↦ ?_, fun {h x} hx ↦ ?_, hk.late, hk.absent, fun h ↦ ?_, fun h ↦ ?_⟩
  · obtain hx | rfl := (mem_close p fd x).mp hx
    · exact hk.issued x hx
    · exact hissued.2
  · show listening ∈ (p.close fd).closes ↔ p.signal = .returned ∨ Main.cleaning main = true
    rw [mem_close, or_iff_left hissued.1.ne, hk.stopped, hcleaning]
  · exact hk.placed ((hfd k).symm.trans hx)
  · exact hk.apart ((hfd j).symm.trans hj) ((hfd k).symm.trans hx)
  · replace hx := (hfd k).symm.trans hx
    have hmem := mem_close p fd x
    by_cases hki : k = i
    · obtain rfl := (hplaced k x hx).mp hki
      refine iff_of_false (fun hnot ↦ hnot (hmem.mpr (.inr rfl))) (fun hcurrent ↦ ?_)
      have hself :
          (((p.close x).modifySlot i (fun c ↦ { c with unreset := true })).slots i).unreset =
            true := by rw [modifySlot_self]
      have hunreset := hcurrent.1
      rw [hki] at hunreset
      exact Bool.false_ne_true (hunreset.symm.trans hself)
    · have hne : x ≠ fd := fun h ↦ hki ((hplaced k x hx).mpr h)
      have hother :
          (((p.close fd).modifySlot i (fun c ↦ { c with unreset := true })).slots k).unreset =
            (p.slots k).unreset := by
        rw [modifySlot_other _ hki]
        rfl
      have hcurrent := hk.current hx
      rw [← hother] at hcurrent
      refine Iff.trans (not_congr ?_) hcurrent
      exact hmem.trans (or_iff_left hne)
  · obtain ⟨hbounds, hown⟩ := hk.own hx
    exact ⟨hbounds, fun k hfd' ↦ hown k ((hfd k).symm.trans hfd')⟩
  · rw [show main = .scanning _ _ from h] at hidle
    cases hidle
  · rw [show main = .creating _ _ from h] at hidle
    cases hidle

/-- The signal handler or `cleanup_server` closes the listening socket. -/
theorem stop_kept (hk : Kept p) {main : Main} {signal : Signal}
    (hstopped : signal = .returned ∨ Main.cleaning main = true)
    (hscanned : ∀ fd i, main = .scanning fd i → p.main = main)
    (hcreated : ∀ fd i, main = .creating fd i → p.main = main) :
    Kept { p.close listening with main := main, signal := signal } := by
  have hmem : ∀ {x}, listening < x → (x ∈ (p.close listening).closes ↔ x ∈ p.closes) := by
    intro x hx
    rw [mem_close, or_iff_left hx.ne']
  refine ⟨hk.numbered, fun x hx ↦ ?_, ?_, hk.placed, hk.apart, fun {k x} hx ↦ ?_, hk.own, hk.late,
    hk.absent, fun {fd i} h ↦ ?_, fun {fd i} h ↦ ?_⟩
  · obtain hx | rfl := (mem_close p listening x).mp hx
    · exact hk.issued x hx
    · exact hk.numbered
  · exact iff_of_true ((mem_close p listening listening).mpr (.inr rfl)) hstopped
  · exact (not_congr (hmem (hk.placed hx).1)).trans (hk.current hx)
  · obtain ⟨hissued, hunclosed, hunplaced, huntouched⟩ := hk.scanned ((hscanned fd i h).trans h)
    exact ⟨hissued, fun hfd ↦ hunclosed ((hmem hissued.1).mp hfd), hunplaced, huntouched⟩
  · obtain ⟨hissued, hclosed, hplaced⟩ := hk.created ((hcreated fd i h).trans h)
    exact ⟨hissued, (hmem hissued.1).trans hclosed, hplaced⟩

theorem Kept.unclosed (hk : Kept p) (hearly : Position.late (p.handlers h).position = false) :
    (p.handlers h).closed = none := by
  by_contra hsome
  rw [hk.late hsome] at hearly
  cases hearly

structure Turn (p q : Process) (h : ℕ) : Prop where
  nextFd : q.nextFd = p.nextFd
  main : q.main = p.main
  signal : q.signal = p.signal
  handlerCount : q.handlerCount = p.handlerCount
  others : ∀ k, k ≠ h → q.handlers k = p.handlers k

theorem setHandler_turn (p : Process) (h : ℕ) (handler : Handler) :
    Turn p (p.setHandler h handler) h :=
  ⟨rfl, rfl, rfl, rfl, fun _ hk ↦ setHandler_other _ hk⟩

theorem Turn.absent (ht : Turn p q h) (hk : Kept p) (hpresent : (p.handlers h).position ≠ .absent)
    (k : ℕ) (hcount : q.handlerCount ≤ k) : (q.handlers k).position = .absent := by
  rw [ht.handlerCount] at hcount
  have hkh : k ≠ h := by
    rintro rfl
    exact hpresent (hk.absent k hcount)
  rw [ht.others k hkh]
  exact hk.absent k hcount

theorem Turn.late (ht : Turn p q h) (hk : Kept p)
    (hlate : Position.late (q.handlers h).position = true) {k : ℕ}
    (hsome : (q.handlers k).closed ≠ none) : Position.late (q.handlers k).position = true := by
  by_cases hkh : k = h
  · rw [hkh]
    exact hlate
  · rw [ht.others k hkh] at hsome ⊢
    exact hk.late hsome

structure Closes (p q : Process) (h : ℕ) (fd : Fd) : Prop extends Turn p q h where
  slots : q.slots = p.slots
  closes : ∀ x, x ∈ q.closes ↔ x ∈ p.closes ∨ x = fd
  self : q.handlers h = { p.handlers h with position := .resetting, closed := some fd }

variable {fd : Fd}

theorem Closes.closed_iff (hc : Closes p q h fd) (hnone : (p.handlers h).closed = none) (k : ℕ)
    (x : Fd) : (q.handlers k).closed = some x ↔
      (k = h ∧ x = fd) ∨ (p.handlers k).closed = some x := by
  by_cases hkh : k = h
  · rw [hkh, hc.self, hnone]
    simp [eq_comm]
  · rw [hc.others k hkh]
    exact (or_iff_right (fun h ↦ hkh h.1)).symm

theorem Closes.current (hc : Closes p q h fd) (hk : Kept p) (hnone : (p.handlers h).closed = none)
    (hfd : (p.slots (p.handlers h).slot).socketFd = some fd) {k : ℕ} {x : Fd}
    (hx : (p.slots k).socketFd = some x) : x ∉ q.closes ↔ (p.slots k).unreset = false ∧
      ∀ l, (q.handlers l).position = .resetting → (q.handlers l).closed ≠ some x := by
  by_cases hks : k = (p.handlers h).slot
  · rw [hks, hfd] at hx
    obtain rfl := Option.some.inj hx
    refine iff_of_false (fun hnot ↦ hnot ((hc.closes _).mpr (.inr rfl))) (fun hcurrent ↦ ?_)
    exact hcurrent.2 h (by rw [hc.self]) ((hc.closed_iff hnone h _).mpr (.inl ⟨rfl, rfl⟩))
  · have hne : x ≠ fd := by
      rintro rfl
      exact hks (hk.apart hx hfd)
    rw [hc.closes, or_iff_left hne, hk.current hx]
    refine and_congr_right (fun _ ↦ forall_congr' (fun l ↦ ?_))
    by_cases hlh : l = h
    · -- the handler itself has closed another descriptor, and nothing before
      have hq : (q.handlers l).closed ≠ some x := by
        rw [hlh, hc.self]
        exact fun heq ↦ hne (Option.some.inj heq).symm
      have hp : (p.handlers l).closed ≠ some x := by
        rw [hlh, hnone]
        exact (Option.some_ne_none x).symm
      exact iff_of_true (fun _ ↦ hp) (fun _ ↦ hq)
    · rw [hc.others l hlh]

theorem Closes.own (hc : Closes p q h fd) (hk : Kept p) (hnone : (p.handlers h).closed = none)
    (hfd : (p.slots (p.handlers h).slot).socketFd = some fd) {k : ℕ} {x : Fd}
    (hx : (q.handlers k).closed = some x) : (listening < x ∧ x < p.nextFd) ∧
      ∀ j, (p.slots j).socketFd = some x →
        j = (q.handlers k).slot ∧ (q.handlers k).position = .resetting := by
  obtain ⟨rfl, rfl⟩ | hx := (hc.closed_iff hnone k x).mp hx
  · rw [hc.self]
    exact ⟨hk.placed hfd, fun j hj ↦ ⟨hk.apart hj hfd, rfl⟩⟩
  · have hkh : k ≠ h := by
      rintro rfl
      rw [hnone] at hx
      cases hx
    rw [hc.others k hkh]
    exact hk.own hx

theorem Closes.fresh (hc : Closes p q h fd) (hnone : (p.handlers h).closed = none)
    (hfd : (p.slots (p.handlers h).slot).socketFd = some fd) {x : Fd} (hx : Fresh p x) :
    Fresh q x := by
  have hne : x ≠ fd := by
    rintro rfl
    exact hx.unplaced _ hfd
  refine ⟨hc.nextFd ▸ hx.issued, ?_, hc.slots ▸ hx.unplaced, fun k hclosed ↦ ?_⟩
  · rw [hc.closes, or_iff_left hne]
    exact hx.unclosed
  · obtain ⟨_, heq⟩ | hclosed := (hc.closed_iff hnone k x).mp hclosed
    · exact hne heq
    · exact hx.untouched k hclosed

theorem Closes.installed (hc : Closes p q h fd) (hnone : (p.handlers h).closed = none) {x : Fd}
    {i : ℕ} (hx : Installed p x i) : Installed q x i := by
  refine ⟨hc.nextFd ▸ hx.issued, ?_, hc.slots ▸ hx.placed⟩
  by_cases heq : x = fd
  · exact iff_of_true ((hc.closes x).mpr (.inr heq))
      ⟨h, (hc.closed_iff hnone h x).mpr (.inl ⟨rfl, heq⟩)⟩
  · rw [hc.closes, or_iff_left heq, hx.closed]
    refine exists_congr (fun k ↦ ?_)
    rw [hc.closed_iff hnone]
    exact (or_iff_right (fun h ↦ heq h.2)).symm

theorem Closes.kept (hc : Closes p q h fd) (hk : Kept p)
    (hposition : (p.handlers h).position = .closing)
    (hfd : (p.slots (p.handlers h).slot).socketFd = some fd) : Kept q := by
  have hissued := hk.placed hfd
  have hnone : (p.handlers h).closed = none := hk.unclosed (by rw [hposition]; rfl)
  refine ⟨hc.nextFd ▸ hk.numbered, fun x hx ↦ ?_, ?_, fun {k x} hx ↦ ?_, fun {j k x} hj hx ↦ ?_,
    fun {k x} hx ↦ ?_, fun {k x} hx ↦ ?_, ?_, ?_, fun {x i} hmain ↦ ?_, fun {x i} hmain ↦ ?_⟩
  · rw [hc.nextFd]
    obtain hx | rfl := (hc.closes x).mp hx
    · exact hk.issued x hx
    · exact hissued.2
  · rw [hc.closes, or_iff_left hissued.1.ne, hk.stopped, hc.signal, hc.main]
  · rw [hc.slots] at hx
    rw [hc.nextFd]
    exact hk.placed hx
  · rw [hc.slots] at hj hx
    exact hk.apart hj hx
  · rw [hc.slots] at hx ⊢
    exact hc.current hk hnone hfd hx
  · rw [hc.nextFd, hc.slots]
    exact hc.own hk hnone hfd hx
  · exact hc.toTurn.late hk (by rw [hc.self]; rfl)
  · exact hc.toTurn.absent hk (by rw [hposition]; exact Position.noConfusion)
  · exact hc.fresh hnone hfd (hk.scanned (hc.main ▸ hmain))
  · exact hc.installed hnone (hk.created (hc.main ▸ hmain))

structure Resets (p q : Process) (h : ℕ) : Prop extends Turn p q h where
  closes : q.closes = p.closes
  placed : ∀ {k x}, (q.slots k).socketFd = some x →
    k ≠ (p.handlers h).slot ∧ (p.slots k).socketFd = some x
  unreset : ∀ k, (q.slots k).unreset = (p.slots k).unreset
  self : q.handlers h = { p.handlers h with position := .clearing }

theorem Resets.closed (hr : Resets p q h) (k : ℕ) :
    (q.handlers k).closed = (p.handlers k).closed := by
  by_cases hkh : k = h
  · rw [hkh, hr.self]
  · rw [hr.others k hkh]

theorem Resets.current (hr : Resets p q h) (hk : Kept p) {k : ℕ} {x : Fd}
    (hx : (q.slots k).socketFd = some x) : x ∉ q.closes ↔ (q.slots k).unreset = false ∧
      ∀ l, (q.handlers l).position = .resetting → (q.handlers l).closed ≠ some x := by
  obtain ⟨hks, hx⟩ := hr.placed hx
  rw [hr.closes, hr.unreset, hk.current hx]
  refine and_congr_right (fun _ ↦ forall_congr' (fun l ↦ ?_))
  rw [hr.closed]
  by_cases hlh : l = h
  · -- what this handler closed is in no slot but its own
    have hne : (p.handlers l).closed ≠ some x := fun heq ↦ hks (hlh ▸ ((hk.own heq).2 k hx).1)
    exact iff_of_true (fun _ ↦ hne) (fun _ ↦ hne)
  · rw [hr.others l hlh]

theorem Resets.own (hr : Resets p q h) (hk : Kept p) {k : ℕ} {x : Fd}
    (hx : (q.handlers k).closed = some x) : (listening < x ∧ x < q.nextFd) ∧
      ∀ j, (q.slots j).socketFd = some x →
        j = (q.handlers k).slot ∧ (q.handlers k).position = .resetting := by
  rw [hr.closed] at hx
  obtain ⟨hbounds, hown⟩ := hk.own hx
  rw [hr.nextFd]
  refine ⟨hbounds, fun j hj ↦ ?_⟩
  obtain ⟨hjs, hj⟩ := hr.placed hj
  have hkh : k ≠ h := by
    rintro rfl
    exact hjs (hown j hj).1
  rw [hr.others k hkh]
  exact hown j hj

theorem Resets.kept (hr : Resets p q h) (hk : Kept p)
    (hposition : (p.handlers h).position = .resetting) : Kept q := by
  refine ⟨hr.nextFd ▸ hk.numbered, ?_, ?_, fun hx ↦ ?_, fun hj hx ↦ ?_, hr.current hk, hr.own hk,
    hr.toTurn.late hk (by rw [hr.self]; rfl),
    hr.toTurn.absent hk (by rw [hposition]; exact Position.noConfusion),
    fun {x i} hmain ↦ ?_, fun {x i} hmain ↦ ?_⟩
  · rw [hr.closes, hr.nextFd]
    exact hk.issued
  · rw [hr.closes, hk.stopped, hr.signal, hr.main]
  · rw [hr.nextFd]
    exact hk.placed (hr.placed hx).2
  · exact hk.apart (hr.placed hj).2 (hr.placed hx).2
  · obtain ⟨hissued, hunclosed, hunplaced, huntouched⟩ := hk.scanned (hr.main ▸ hmain)
    refine ⟨hr.nextFd ▸ hissued, hr.closes ▸ hunclosed, fun k hx ↦ hunplaced k (hr.placed hx).2,
      fun k ↦ ?_⟩
    rw [hr.closed]
    exact huntouched k
  · obtain ⟨hissued, hclosed, hinstalled⟩ := hk.created (hr.main ▸ hmain)
    refine ⟨hr.nextFd ▸ hissued, ?_, fun k x hx ↦ hinstalled k x (hr.placed hx).2⟩
    simp only [hr.closes, hr.closed]
    exact hclosed

theorem close_kept (hk : Kept p) (hposition : (p.handlers h).position = .closing)
    (hfd : (p.slots (p.handlers h).slot).socketFd = some fd) :
    Kept ((p.close fd).setHandler h
      { p.handlers h with position := .resetting, closed := some fd }) := by
  have hturn : Turn p ((p.close fd).setHandler h
      { p.handlers h with position := .resetting, closed := some fd }) h :=
    ⟨rfl, rfl, rfl, rfl, fun _ hk ↦ setHandler_other _ hk⟩
  have hcloses : Closes p ((p.close fd).setHandler h
      { p.handlers h with position := .resetting, closed := some fd }) h fd :=
    ⟨hturn, rfl, mem_close p fd, setHandler_self _⟩
  exact hcloses.kept hk hposition hfd

theorem reset_kept (hk : Kept p) (hposition : (p.handlers h).position = .resetting) :
    Kept ((p.modifySlot (p.handlers h).slot (fun c ↦ { c with socketFd := none })).setHandler h
      { p.handlers h with position := .clearing }) := by
  have hturn : Turn p ((p.modifySlot (p.handlers h).slot
      (fun c ↦ { c with socketFd := none })).setHandler h
      { p.handlers h with position := .clearing }) h :=
    ⟨rfl, rfl, rfl, rfl, fun _ hk ↦ setHandler_other _ hk⟩
  have hunreset : ∀ k, ((p.modifySlot (p.handlers h).slot
      (fun c ↦ { c with socketFd := none })).slots k).unreset = (p.slots k).unreset :=
    modifySlot_keeps Slot.unreset (fun _ ↦ rfl)
  have hplaced : ∀ {k x}, ((p.modifySlot (p.handlers h).slot
      (fun c ↦ { c with socketFd := none })).slots k).socketFd = some x →
      k ≠ (p.handlers h).slot ∧ (p.slots k).socketFd = some x := by
    intro k x hx
    by_cases hks : k = (p.handlers h).slot
    · rw [hks, modifySlot_self] at hx
      cases hx
    · rw [modifySlot_other _ hks] at hx
      exact ⟨hks, hx⟩
  have hresets : Resets p ((p.modifySlot (p.handlers h).slot
      (fun c ↦ { c with socketFd := none })).setHandler h
      { p.handlers h with position := .clearing }) h :=
    ⟨hturn, rfl, hplaced, hunreset, setHandler_self _⟩
  exact hresets.kept hk hposition

theorem goto_kept (hk : Kept p) {main : Main}
    (hcleaning : Main.cleaning main = Main.cleaning p.main) (hidle : Main.idle main = true) :
    Kept (p.goto main) := (goto_silent p main).main_kept hk rfl rfl rfl hcleaning hidle

theorem modifySlot_kept (hk : Kept p) (i : ℕ) {f : Slot → Slot}
    (hfd : ∀ c, (f c).socketFd = c.socketFd) (hunreset : ∀ c, (f c).unreset = c.unreset) :
    Kept (p.modifySlot i f) :=
  (modifySlot_silent p i hfd hunreset).kept hk Iff.rfl hk.absent hk.scanned hk.created

theorem setHandler_kept (hk : Kept p) {handler : Handler}
    (hpresent : (p.handlers h).position ≠ .absent) (hfollows : Follows (p.handlers h) handler) :
    Kept (p.setHandler h handler) := by
  have hsilent : Silent p (p.setHandler h handler) := by
    refine ⟨rfl, rfl, fun _ ↦ rfl, fun _ _ ↦ rfl, fun k ↦ ?_⟩
    by_cases hkh : k = h
    · rw [hkh, setHandler_self]
      exact hfollows
    · rw [setHandler_other _ hkh]
      exact .refl _
  have habsent := (setHandler_turn p h handler).absent hk hpresent
  exact hsilent.kept hk Iff.rfl habsent hk.scanned hk.created

theorem create_kept (hk : Kept p) {fd : Fd} {i : ℕ} (hmain : p.main = .creating fd i) :
    Kept { p.setHandler p.handlerCount ⟨i, .serving, none⟩ with
      handlerCount := p.handlerCount + 1, main := .testing } := by
  have hnew : (p.handlers p.handlerCount).closed = none := by
    refine hk.unclosed ?_
    rw [hk.absent p.handlerCount le_rfl]
    rfl
  have hother : ∀ k, k ≠ p.handlerCount →
      (p.setHandler p.handlerCount ⟨i, .serving, none⟩).handlers k = p.handlers k :=
    fun k hne ↦ setHandler_other _ hne
  have hsilent : Silent p { p.setHandler p.handlerCount ⟨i, .serving, none⟩ with
      handlerCount := p.handlerCount + 1, main := .testing } := by
    refine ⟨rfl, rfl, fun _ ↦ rfl, fun _ _ ↦ rfl, fun k ↦ ?_⟩
    show Follows _ ((p.setHandler p.handlerCount ⟨i, .serving, none⟩).handlers k)
    by_cases hk : k = p.handlerCount
    · rw [hk, setHandler_self]
      exact .early hnew rfl
    · rw [hother k hk]
      exact .refl _
  refine hsilent.kept hk ?_ (fun k hcount ↦ ?_) (fun h ↦ (by cases h)) (fun h ↦ (by cases h))
  · rw [hmain]
    exact Iff.rfl
  · show ((p.setHandler p.handlerCount ⟨i, .serving, none⟩).handlers k).position = .absent
    rw [hother k (Nat.ne_of_gt hcount)]
    exact hk.absent k (Nat.le_of_succ_le hcount)

theorem mainStep_kept (hk : Kept p) (ok : Bool) : Kept (mainStep p ok) := by
  have hgoto : ∀ {main : Main}, Main.cleaning main = Main.cleaning p.main →
      Main.idle main = true → Kept (p.goto main) := goto_kept hk
  have hdrop : ∀ {main : Main} (i : ℕ), Main.cleaning main = Main.cleaning p.main →
      Main.idle main = true →
      Kept ((p.modifySlot i (fun c ↦ { c with connected := false })).goto main) := by
    intro main i hcleaning hidle
    have hkept : Kept (p.modifySlot i (fun c ↦ { c with connected := false })) :=
      modifySlot_kept hk i (fun _ ↦ rfl) (fun _ ↦ rfl)
    exact goto_kept hkept hcleaning hidle
  unfold mainStep
  cases hmain : p.main with
  | testing =>
    rw [hmain] at hgoto
    dsimp only
    split
    · exact hgoto rfl rfl
    · exact hgoto rfl rfl
  | accepting =>
    rw [hmain] at hgoto
    dsimp only
    split
    · exact accept_kept hk hmain
    · exact hgoto rfl rfl
  | scanning fd i =>
    dsimp only
    split
    · exact refuse_kept hk hmain
    · split
      · refine (goto_silent p _).kept hk ?_ hk.absent (fun h ↦ ?_) (fun h ↦ (by cases h))
        · rw [hmain]
          exact Iff.rfl
        · obtain ⟨rfl, _⟩ := Main.scanning.inj h
          exact hk.scanned hmain
      · exact place_kept hk hmain _
  | creating fd i =>
    dsimp only
    split
    · exact create_kept hk hmain
    · have hinstalled := hk.created hmain
      exact spend_kept hk hinstalled.issued hinstalled.placed (by rw [hmain]; rfl) rfl
  | abandoning i =>
    rw [hmain] at hdrop
    exact hdrop i rfl rfl
  | stopping =>
    have hsilent : Silent p { p with running := false, main := .closing } :=
      ⟨rfl, rfl, fun _ ↦ rfl, fun _ _ ↦ rfl, fun _ ↦ .refl _⟩
    exact hsilent.main_kept hk rfl rfl rfl (by rw [hmain]; rfl) rfl
  | closing => exact stop_kept hk (.inr rfl) (fun _ _ h ↦ (by cases h)) (fun _ _ h ↦ (by cases h))
  | sweeping i =>
    rw [hmain] at hgoto
    dsimp only
    split
    · exact hgoto rfl rfl
    · split
      · exact hgoto rfl rfl
      · exact hgoto rfl rfl
  | hangingUp i =>
    dsimp only
    cases hfd : (p.slots i).socketFd with
    | none =>
      have hsilent : Silent p (p.modifySlot i (fun c ↦ { c with unreset := true })) := by
        refine ⟨rfl, rfl, modifySlot_keeps Slot.socketFd (fun _ ↦ rfl), fun k hsome ↦ ?_,
          fun _ ↦ .refl _⟩
        have hki : k ≠ i := by
          rintro rfl
          exact hsome hfd
        rw [modifySlot_other _ hki]
      have hkept := hsilent.kept hk Iff.rfl hk.absent hk.scanned hk.created
      exact goto_kept hkept (congrArg Main.cleaning hmain).symm rfl
    | some fd =>
      refine spend_kept hk (hk.placed hfd) (fun k x hx ↦ ⟨?_, ?_⟩) (by rw [hmain]; rfl) rfl
      · rintro rfl
        exact Option.some.inj (hx.symm.trans hfd)
      · rintro rfl
        exact hk.apart hx hfd
  | forgetting i =>
    rw [hmain] at hdrop
    exact hdrop i rfl rfl
  | returned => exact hk

theorem signalStep_kept (hk : Kept p) : Kept (signalStep p) := by
  unfold signalStep
  cases hsignal : p.signal with
  | pending =>
    have hsilent : Silent p { p with running := false, signal := .closing } :=
      ⟨rfl, rfl, fun _ ↦ rfl, fun _ _ ↦ rfl, fun _ ↦ .refl _⟩
    refine hsilent.kept hk ?_ hk.absent hk.scanned hk.created
    rw [hsignal]
    exact or_congr_left ⟨fun h ↦ (by cases h), fun h ↦ (by cases h)⟩
  | closing => exact stop_kept hk (.inl rfl) (fun _ _ _ ↦ rfl) (fun _ _ _ ↦ rfl)
  | returned => exact hk

theorem handlerStep_kept (hk : Kept p) (h : ℕ) : Kept (handlerStep p h) := by
  have hmoves : ∀ {f : Slot → Slot} {handler : Handler},
      (∀ c, (f c).socketFd = c.socketFd) → (∀ c, (f c).unreset = c.unreset) →
      (p.handlers h).position ≠ .absent → Follows (p.handlers h) handler →
      Kept ((p.modifySlot (p.handlers h).slot f).setHandler h handler) :=
    fun hfd hunreset hpresent hfollows ↦
      setHandler_kept (modifySlot_kept hk _ hfd hunreset) hpresent hfollows
  unfold handlerStep
  dsimp only
  cases hposition : (p.handlers h).position with
  | absent => exact hk
  | serving =>
    have hnone := hk.unclosed (h := h) (by rw [hposition]; rfl)
    dsimp only
    split
    · exact hk
    · exact hmoves (fun _ ↦ rfl) (fun _ ↦ rfl) (by rw [hposition]; exact Position.noConfusion)
        (.early hnone hnone)
  | testing =>
    have hnone := hk.unclosed (h := h) (by rw [hposition]; rfl)
    exact setHandler_kept hk (by rw [hposition]; exact Position.noConfusion) (.early hnone hnone)
  | closing =>
    have hnone := hk.unclosed (h := h) (by rw [hposition]; rfl)
    dsimp only
    cases hfd : (p.slots (p.handlers h).slot).socketFd with
    | none =>
      exact setHandler_kept hk (by rw [hposition]; exact Position.noConfusion) (.early hnone rfl)
    | some fd => exact close_kept hk hposition hfd
  | resetting => exact reset_kept hk hposition
  | clearing =>
    refine hmoves (fun _ ↦ rfl) (fun _ ↦ rfl) (by rw [hposition]; exact Position.noConfusion)
      ⟨rfl, fun _ ↦ rfl, fun _ ↦ ?_, fun _ _ ↦ rfl⟩
    rw [hposition]
    exact ⟨fun h ↦ (by cases h), fun h ↦ (by cases h)⟩
  | unlocking =>
    refine hmoves (fun _ ↦ rfl) (fun _ ↦ rfl) (by rw [hposition]; exact Position.noConfusion)
      ⟨rfl, fun _ ↦ rfl, fun _ ↦ ?_, fun _ _ ↦ rfl⟩
    rw [hposition]
    exact ⟨fun h ↦ (by cases h), fun h ↦ (by cases h)⟩
  | returned => exact hk

theorem step_kept (hk : Kept p) (move : Move) : Kept (step p move) := by
  unfold step
  split
  · exact hk
  cases move with
  | main ok => exact mainStep_kept hk ok
  | signal => exact signalStep_kept hk
  | handler h => exact handlerStep_kept hk h
  | logout h =>
    unfold logoutStep
    dsimp only
    split
    · exact modifySlot_kept hk _ (fun _ ↦ rfl) (fun _ ↦ rfl)
    · exact hk

end CChat.Threads.Closings
