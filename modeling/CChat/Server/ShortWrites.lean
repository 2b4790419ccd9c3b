import CChat.Server.Network

namespace CChat.Server.ShortWrites

open CChat.Library CChat.Protocol.Types CChat.Protocol.Wire State Network

/-- One call of `send_network_message`, and how many bytes each of its `send`
calls takes (`none` for all of them). -/
structure Write where
  type : MessageType
  payload : Bytes
  sends : List (Option ℕ)
  fits : payload.length < 2 ^ 32

def Write.frame (c : Write) : Frame := (c.type.code, c.payload)

def Write.perform (fd : Fd) (w : World) (c : Write) : ℤ × World :=
  sendNetworkMessage { w with env := { w.env with sends := c.sends } } (some fd) c.type c.payload none

def performAll (fd : Fd) : World → List Write → List (Frame × ℤ) × World
  | w, [] => ([], w)
  | w, c :: cs =>
    let done := c.perform fd w
    ((c.frame, done.1) :: (performAll fd done.2 cs).1, (performAll fd done.2 cs).2)

def Write.headerTaken (c : Write) : ℕ := ((c.sends.getD 0 none).getD 5).min 5

def Write.payloadTaken (c : Write) : ℕ :=
  ((c.sends.getD 1 none).getD c.payload.length).min c.payload.length

def Write.accepted (c : Write) : ℕ :=
  if c.headerTaken < 5 then c.headerTaken else 5 + c.payloadTaken

def Write.Whole (c : Write) : Prop := c.accepted = 5 + c.payload.length

instance (c : Write) : Decidable c.Whole :=
  inferInstanceAs (Decidable (c.accepted = 5 + c.payload.length))

def Write.Cut (c : Write) : Prop := 0 < c.accepted ∧ ¬ c.Whole

instance (c : Write) : Decidable c.Cut := inferInstanceAs (Decidable (0 < c.accepted ∧ ¬ c.Whole))

def Write.bytes (c : Write) : Bytes := (Framing.encode codec c.frame).take c.accepted

theorem Write.headerTaken_le (c : Write) : c.headerTaken ≤ 5 := Nat.min_le_right _ _

theorem Write.payloadTaken_le (c : Write) : c.payloadTaken ≤ c.payload.length := Nat.min_le_right _ _

theorem Write.accepted_le (c : Write) : c.accepted ≤ 5 + c.payload.length := by
  have hpayload := c.payloadTaken_le
  unfold Write.accepted
  split <;> omega

theorem Write.bytes_nil {c : Write} (h : c.accepted = 0) : c.bytes = [] := by
  rw [Write.bytes, h, List.take_zero]

theorem Write.bytes_whole {c : Write} (h : c.Whole) : c.bytes = Framing.encode codec c.frame :=
  List.take_of_length_le (by rw [h, Framing.encode_length]; exact Nat.le_refl _)

theorem send_taken (w : World) (fd : Fd) (n : ℕ) :
    (send w (some fd) n).1 = ((w.env.sends.getD 0 none).getD n).min n ∧
      (send w (some fd) n).2.env.sends = w.env.sends.tail := by
  unfold send
  cases h : w.env.sends with
  | nil => exact ⟨(Nat.min_self n).symm, h⟩
  | cons taken rest => exact ⟨rfl, rfl⟩

theorem wire_emit (fd : Fd) (w : World) (e : Event) :
    wire fd (w.emit e).out = wire fd w.out ++ Event.sent fd e := by
  rw [emit_out, wire_append]
  exact congrArg _ (List.append_nil _)

theorem wire_torn (fd : Fd) (w : World) (bytes : Bytes) :
    wire fd (sendNetworkMessage.tornOff w (some fd) bytes).out = wire fd w.out ++ bytes := by
  rw [sendNetworkMessage.tornOff, wire_emit]
  exact congrArg _ (if_pos rfl)

theorem wire_whole (fd : Fd) (w : World) (type : MessageType) (payload : Bytes)
    (entry : Option StoredMessage) :
    wire fd (sendNetworkMessage.whole w (some fd) type payload entry).out =
      wire fd w.out ++ packet type.code payload := by
  rw [sendNetworkMessage.whole, wire_emit]
  exact congrArg _ (if_pos rfl)

/-- The result of a call and its bytes on the stream follow from what the
operating system took. -/
theorem Write.perform_spec (fd : Fd) (w : World) (c : Write) :
    (c.perform fd w).1 = (if c.Whole then 0 else -1) ∧
      wire fd (c.perform fd w).2.out = wire fd w.out ++ c.bytes := by
  have hfive : (frameHeader c.type.code c.payload.length).length = 5 := by simp [frameHeader]
  have hheader := c.headerTaken_le
  have hpayload := c.payloadTaken_le
  obtain ⟨hfirst, hleft⟩ := send_taken { w with env := { w.env with sends := c.sends } } fd 5
  have hout := send_out { w with env := { w.env with sends := c.sends } } (some fd) 5
  unfold Write.perform sendNetworkMessage
  dsimp only
  rw [hfive]
  generalize send { w with env := { w.env with sends := c.sends } } (some fd) 5 = sent
    at hfirst hleft hout ⊢
  change sent.1 = c.headerTaken at hfirst
  obtain ⟨hsecond, _⟩ := send_taken sent.2 fd c.payload.length
  have hout' := (send_out sent.2 (some fd) c.payload.length).trans hout
  generalize send sent.2 (some fd) c.payload.length = sent' at hsecond hout' ⊢
  rw [hleft, List.getD_eq_getElem?_getD, List.getElem?_tail, ← List.getD_eq_getElem?_getD] at hsecond
  change sent'.1 = c.payloadTaken at hsecond
  rw [hfirst, hsecond]
  by_cases hshort : c.headerTaken = 5
  · have haccepted : c.accepted = 5 + c.payloadTaken := if_neg (by omega)
    rw [if_neg (not_not.mpr hshort)]
    by_cases hpos : c.payload.length > 0
    · rw [if_pos hpos]
      by_cases hbody : c.payloadTaken = c.payload.length
      · have hwhole : c.Whole := by rw [Write.Whole, haccepted, hbody]
        rw [if_neg (not_not.mpr hbody), if_pos hwhole, Write.bytes_whole hwhole, ← hout']
        exact ⟨rfl, wire_whole fd sent'.2 _ _ none⟩
      · have hpart : ¬ c.Whole := by
          rw [Write.Whole, haccepted]
          omega
        rw [if_pos hbody, if_neg hpart]
        refine ⟨rfl, ?_⟩
        dsimp only
        rw [wire_torn, hout', Write.bytes, haccepted, Framing.encode, ← hfive]
        exact congrArg _ (List.take_length_add_append _).symm
    · have hwhole : c.Whole := by
        rw [Write.Whole, haccepted]
        omega
      rw [if_neg hpos, if_pos hwhole, Write.bytes_whole hwhole, ← hout]
      exact ⟨rfl, wire_whole fd sent.2 _ _ none⟩
  · have haccepted : c.accepted = c.headerTaken := if_pos (by omega)
    have hpart : ¬ c.Whole := by
      rw [Write.Whole, haccepted]
      omega
    rw [if_pos hshort, if_neg hpart]
    refine ⟨rfl, ?_⟩
    dsimp only
    rw [wire_torn, hout, Write.bytes, haccepted]
    exact congrArg _ (List.take_append_of_le_length (by rw [hfive]; exact hheader)).symm

theorem performAll_spec (fd : Fd) (w : World) (cs : List Write) :
    (performAll fd w cs).1 = cs.map (fun c ↦ (c.frame, if c.Whole then 0 else -1)) ∧
      wire fd (performAll fd w cs).2.out = wire fd w.out ++ cs.flatMap Write.bytes := by
  induction cs generalizing w with
  | nil => exact ⟨rfl, (List.append_nil _).symm⟩
  | cons c cs ih =>
    obtain ⟨hresult, hwire⟩ := c.perform_spec fd w
    obtain ⟨hresults, hwires⟩ := ih (c.perform fd w).2
    refine ⟨?_, ?_⟩
    · rw [performAll, List.map_cons, hresult, hresults]
    · rw [performAll, hwires, hwire, List.flatMap_cons, List.append_assoc]

/-- No byte follows the bytes of a frame that was cut. -/
def NothingAfterCut (cs : List Write) : Prop := cs.Pairwise (fun c d ↦ c.Cut → d.accepted = 0)

instance (cs : List Write) : Decidable (NothingAfterCut cs) :=
  inferInstanceAs (Decidable (cs.Pairwise (fun c d ↦ c.Cut → d.accepted = 0)))

theorem decode_bytes {cs : List Write} (h : NothingAfterCut cs) :
    (Framing.decode codec (cs.flatMap Write.bytes)).1 =
      (cs.filter (fun c ↦ c.Whole)).map Write.frame := by
  induction cs with
  | nil => rfl
  | cons c cs ih =>
    obtain ⟨hlater, htail⟩ := List.pairwise_cons.mp h
    have hrest := ih htail
    rw [List.flatMap_cons]
    by_cases hwhole : c.Whole
    · have hfilter : (c :: cs).filter (fun c ↦ c.Whole) = c :: cs.filter (fun c ↦ c.Whole) :=
        List.filter_cons_of_pos (decide_eq_true hwhole)
      rw [hfilter, List.map_cons, ← hrest, Write.bytes_whole hwhole]
      exact congrArg Prod.fst (Framing.decode_encode codec c.frame c.fits _)
    · have hfilter : (c :: cs).filter (fun c ↦ c.Whole) = cs.filter (fun c ↦ c.Whole) :=
        List.filter_cons_of_neg (by simpa using hwhole)
      rw [hfilter]
      obtain hnone | hsome := Nat.eq_zero_or_pos c.accepted
      · rw [Write.bytes_nil hnone, List.nil_append, hrest]
      · have hsilent : ∀ d ∈ cs, d.accepted = 0 := fun d hd ↦ hlater d hd ⟨hsome, hwhole⟩
        have hempty : cs.flatMap Write.bytes = [] :=
          List.flatMap_eq_nil_iff.mpr (fun d hd ↦ Write.bytes_nil (hsilent d hd))
        have hshort : c.accepted < (Framing.encode codec c.frame).length := by
          rw [Framing.encode_length]
          exact Nat.lt_of_le_of_ne c.accepted_le hwhole
        have hcut := Framing.decodeOne_cut codec c.frame c.fits hshort
        rw [hempty, Framing.decode_nil] at hrest
        rw [hempty, List.append_nil, Write.bytes, Framing.decode_none codec hcut, ← hrest]

def extracted (fd : Fd) (w : World) (cs : List Write) : List Frame :=
  (Framing.decode codec ((wire fd (performAll fd w cs).2.out).drop (wire fd w.out).length)).1

/-- Every extracted frame was given to some call, and the frames of the calls
that returned 0 are all extracted, in order. -/
def Genuine (fd : Fd) (w : World) (cs : List Write) : Prop :=
  (∀ f ∈ extracted fd w cs, ∃ c ∈ cs, c.frame = f) ∧
    List.Sublist (((performAll fd w cs).1.filter (fun r ↦ r.2 = 0)).map Prod.fst)
      (extracted fd w cs)

theorem extracted_eq (fd : Fd) (w : World) {cs : List Write} (h : NothingAfterCut cs) :
    extracted fd w cs = (cs.filter (fun c ↦ c.Whole)).map Write.frame := by
  rw [extracted, (performAll_spec fd w cs).2, List.drop_left, decode_bytes h]

theorem performed_whole (fd : Fd) (w : World) (cs : List Write) :
    ((performAll fd w cs).1.filter (fun r ↦ r.2 = 0)).map Prod.fst =
      (cs.filter (fun c ↦ c.Whole)).map Write.frame := by
  have hsame : cs.filter ((fun r : Frame × ℤ ↦ decide (r.2 = 0)) ∘
      fun c ↦ (c.frame, if c.Whole then 0 else -1)) = cs.filter (fun c ↦ c.Whole) := by
    refine List.filter_congr (fun c _ ↦ ?_)
    by_cases hwhole : c.Whole <;> simp [hwhole]
  rw [(performAll_spec fd w cs).1, List.filter_map, List.map_map, hsame]
  rfl

theorem genuine_of_nothingAfterCut (fd : Fd) (w : World) {cs : List Write} (h : NothingAfterCut cs) :
    Genuine fd w cs := by
  have hextracted := extracted_eq fd w h
  refine ⟨fun f hf ↦ ?_, ?_⟩
  · rw [hextracted] at hf
    obtain ⟨c, hc, rfl⟩ := List.mem_map.mp hf
    exact ⟨c, List.mem_of_mem_filter hc, rfl⟩
  · rw [hextracted, performed_whole]

/-- Up to the bytes of the frame that was cut the stream is one of whole frames. -/
theorem bytes_cut {cs : List Write} {c : Write} (h : NothingAfterCut cs) (hc : c ∈ cs)
    (hcut : c.Cut) :
    cs.flatMap Write.bytes = ((cs.filter (fun c ↦ c.Whole)).map Write.frame).flatMap
      (Framing.encode codec) ++ c.bytes := by
  induction cs with
  | nil => cases hc
  | cons e cs ih =>
    obtain ⟨hlater, htail⟩ := List.pairwise_cons.mp h
    rw [List.flatMap_cons]
    by_cases hwhole : e.Whole
    · have hmem : c ∈ cs := by
        obtain rfl | hmem := List.mem_cons.mp hc
        · exact absurd hwhole hcut.2
        · exact hmem
      have hfilter : (e :: cs).filter (fun c ↦ c.Whole) = e :: cs.filter (fun c ↦ c.Whole) :=
        List.filter_cons_of_pos (decide_eq_true hwhole)
      rw [hfilter, List.map_cons, List.flatMap_cons, List.append_assoc, ← ih htail hmem,
        Write.bytes_whole hwhole]
    · have hfilter : (e :: cs).filter (fun c ↦ c.Whole) = cs.filter (fun c ↦ c.Whole) :=
        List.filter_cons_of_neg (by simpa using hwhole)
      rw [hfilter]
      obtain rfl | hmem := List.mem_cons.mp hc
      · have hsilent : ∀ d ∈ cs, d.accepted = 0 := fun d hd ↦ hlater d hd hcut
        have hempty : cs.flatMap Write.bytes = [] :=
          List.flatMap_eq_nil_iff.mpr (fun d hd ↦ Write.bytes_nil (hsilent d hd))
        have hnone : cs.filter (fun c ↦ c.Whole) = [] := by
          refine List.filter_eq_nil_iff.mpr (fun d hd hdw ↦ ?_)
          have hall : d.accepted = 5 + d.payload.length := of_decide_eq_true hdw
          have hzero := hsilent d hd
          omega
        rw [hempty, hnone, List.append_nil]
        rfl
      · have hsilent : e.accepted = 0 := by
          by_contra hpos
          have hzero := hlater c hmem ⟨Nat.pos_of_ne_zero hpos, hwhole⟩
          exact absurd hzero (Nat.ne_of_gt hcut.1)
        rw [Write.bytes_nil hsilent, List.nil_append, ih htail hmem]

theorem decode_short {stream : Bytes} (h : stream.length < 5) :
    (Framing.decode codec stream).1 = [] := by
  rw [Framing.decode_none codec ((Framing.decodeOne_none codec).mpr (.inl h))]

/-- The header that starts in at most four bytes ends in a zero. -/
theorem cut_type {bytes : Bytes} {code : UInt8} (hpos : 0 < bytes.length) (hshort : bytes.length < 5) :
    (readHeader ((bytes ++ [0, 0, 0, 0, code]).take 5)).1 = 0 := by
  match bytes, hpos, hshort with
  | [_], _, _ => rfl
  | [_, _], _, _ => rfl
  | [_, _, _], _, _ => rfl
  | [_, _, _, _], _, _ => rfl

/-- Behind a frame that was cut, a frame without payload is not read back. -/
theorem lost_behind_cut {c d : Write} (hcut : c.Cut) (hd : d.payload = [])
    (htype : d.type ≠ c.type) :
    d.frame ∉ (Framing.decode codec (c.bytes ++ Framing.encode codec d.frame)).1 := by
  have hheader : Framing.encode codec d.frame = [0, 0, 0, 0, d.type.code] := by
    rw [Write.frame, hd]
    simp [Framing.encode, codec, frameHeader, BigEndian.bytes]
  have hlen : c.bytes.length = c.accepted := by
    rw [Write.bytes, List.length_take, Framing.encode_length]
    exact Nat.min_eq_left c.accepted_le
  rw [hheader]
  cases hfirst : Framing.decodeOne codec (c.bytes ++ [0, 0, 0, 0, d.type.code]) with
  | none =>
    rw [Framing.decode_none codec hfirst]
    exact List.not_mem_nil
  | some p =>
    obtain ⟨x, rest⟩ := p
    obtain ⟨hsize, hrest⟩ := Framing.decodeOne_announced codec hfirst
    obtain ⟨_, _, hx, _⟩ := (Framing.decodeOne_some codec).mp hfirst
    have hkind : x.1 = (readHeader ((c.bytes ++ [0, 0, 0, 0, d.type.code]).take 5)).1 :=
      congrArg Prod.fst hx
    have hother : rest.length < 5 ∧ x.1 ≠ d.type.code := by
      rw [hrest, List.length_drop, List.length_append, hlen, hkind]
      obtain hlong | hshort := Nat.lt_or_ge c.accepted 5 |>.symm
      · have htake : (c.bytes ++ [0, 0, 0, 0, d.type.code]).take 5 =
            frameHeader c.type.code c.payload.length := by
          rw [List.take_append_of_le_length (by omega), Write.bytes, List.take_take,
            Nat.min_eq_left hlong]
          exact List.take_left' (codec.write_length _ _)
        have hread : readHeader (frameHeader c.type.code c.payload.length) =
            (c.type.code, c.payload.length) := codec.read_write _ _ c.fits
        have hannounced : x.2.length = c.payload.length := by
          rw [hsize]
          show (readHeader ((c.bytes ++ [0, 0, 0, 0, d.type.code]).take 5)).2 = _
          rw [htake, hread]
        rw [htake, hread, hannounced]
        have hpart : c.accepted < 5 + c.payload.length := Nat.lt_of_le_of_ne c.accepted_le hcut.2
        refine ⟨?_, fun h ↦ htype (MessageType.code_injective h).symm⟩
        show c.accepted + 5 - (5 + c.payload.length) < 5
        omega
      · refine ⟨?_, ?_⟩
        · show c.accepted + 5 - (5 + x.2.length) < 5
          omega
        · rw [cut_type (hlen ▸ hcut.1) (hlen ▸ hshort)]
          exact d.type.code_ne_zero.symm
    rw [Framing.decode_some codec hfirst, decode_short hother.1]
    intro hmem
    rw [← List.mem_singleton.mp hmem] at hother
    exact hother.2 rfl

/-- As long as nothing is written behind a frame that was cut, no frame is
forged and none is lost; but behind such a frame one is lost at once. -/
theorem frames_genuine (fd : Fd) (w : World) :
    (∀ cs, NothingAfterCut cs → Genuine fd w cs) ∧
      ∀ cs c d, NothingAfterCut cs → c ∈ cs → c.Cut → d.Whole → d.payload = [] →
        d.type ≠ c.type → ¬ Genuine fd w (cs ++ [d]) := by
  refine ⟨fun cs ↦ genuine_of_nothingAfterCut fd w, ?_⟩
  intro cs c d h hc hcut hwhole hd htype hgenuine
  have hstream : (cs ++ [d]).flatMap Write.bytes =
      ((cs.filter (fun c ↦ c.Whole)).map Write.frame).flatMap (Framing.encode codec) ++
        (c.bytes ++ Framing.encode codec d.frame) := by
    rw [List.flatMap_append, bytes_cut h hc hcut, List.append_assoc, List.flatMap_singleton,
      Write.bytes_whole hwhole]
  have hfits : ∀ f ∈ (cs.filter (fun c ↦ c.Whole)).map Write.frame, f.2.length < codec.limit := by
    intro f hf
    obtain ⟨e, _, rfl⟩ := List.mem_map.mp hf
    exact e.fits
  have hextracted : extracted fd w (cs ++ [d]) = (cs.filter (fun c ↦ c.Whole)).map Write.frame ++
      (Framing.decode codec (c.bytes ++ Framing.encode codec d.frame)).1 := by
    rw [extracted, (performAll_spec fd w _).2, List.drop_left, hstream,
      Framing.decode_stream codec _ hfits]
  have hlast : (cs ++ [d]).filter (fun c ↦ c.Whole) = cs.filter (fun c ↦ c.Whole) ++ [d] := by
    rw [List.filter_append]
    exact congrArg _ (List.filter_cons_of_pos (decide_eq_true hwhole))
  have hsub := hgenuine.2
  rw [performed_whole, hextracted, hlast, List.map_append, List.append_sublist_append_left,
    List.map_singleton, List.singleton_sublist] at hsub
  exact lost_behind_cut hcut hd htype hsub

def bobOnline : Bytes := 3 :: text "bob" ++ [1]

def cutLogin : Write := ⟨.loginResponse, [0], [some 3], by decide⟩

def refusedLogin : Write := ⟨.loginResponse, [0], [some 0], by decide⟩

theorem frames_genuine_cut :
    Genuine 0 World.initial [⟨.statusUpdate, bobOnline, [], by decide⟩, cutLogin, refusedLogin] ∧
      ¬ Genuine 0 World.initial ([cutLogin] ++ [⟨.statusUpdate, [], [], by decide⟩]) :=
  ⟨(frames_genuine 0 World.initial).1 _ (by decide),
    (frames_genuine 0 World.initial).2 [cutLogin] cutLogin ⟨.statusUpdate, [], [], by decide⟩
      (by decide) (List.mem_singleton_self _) (by decide) (by decide) rfl (by decide)⟩

/-- A message to bob is cut behind two bytes of its payload; two status updates
follow on the same socket. -/
def cutMessage : List Write :=
  [⟨.incomingMessage, [0, 0, 0, 1, 3, 98, 111, 98, 0, 0, 0, 0, 0, 1, 7], [none, some 2], by decide⟩,
    ⟨.statusUpdate, bobOnline, [], by decide⟩, ⟨.statusUpdate, bobOnline, [], by decide⟩]

theorem cutMessage_forges :
    extracted 0 World.initial cutMessage =
        [(MessageType.incomingMessage.code, [0, 0, 0, 0, 0, 5, 0x87, 3, 98, 111, 98, 1, 0, 0, 0])] ∧
      (performAll 0 World.initial cutMessage).1.map Prod.snd = [-1, 0, 0] ∧
      ¬ Genuine 0 World.initial cutMessage := by
  have hforged : extracted 0 World.initial cutMessage =
      [(MessageType.incomingMessage.code, [0, 0, 0, 0, 0, 5, 0x87, 3, 98, 111, 98, 1, 0, 0, 0])] := by
    decide +kernel
  refine ⟨hforged, by decide +kernel, fun h ↦ ?_⟩
  obtain ⟨c, hc, hframe⟩ := h.1 _ (hforged ▸ List.mem_singleton_self _)
  simp only [cutMessage, List.mem_cons, List.not_mem_nil, or_false] at hc
  obtain rfl | rfl | rfl := hc
  · exact absurd hframe (by decide)
  · exact absurd hframe (by decide)
  · exact absurd hframe (by decide)

end CChat.Server.ShortWrites
