import CChat.Library.Access
import CChat.Server.Encoders

namespace CChat.Server.Bounds

open CChat.Library CChat.Library.Access CChat.Library.Buffers CChat.Protocol.Types State Network
  Users Queue Handlers Encoders

/-- `send_error` of a handler that fails, with the stores to its allocation. -/
def refuse (w : World) (i : ℕ) (e : Refusal) : Checked (ℤ × World) := do
  let allocated := malloc w
  if !allocated.1 then return (-1, allocated.2)
  let msgLen := (text e.message).length
  let payload ← build (3 + msgLen) [(0, [e.code.code]), (1, [UInt8.ofNat (msgLen >>> 8)]),
    (2, [UInt8.ofNat msgLen]), (3, text e.message)] (3 + msgLen)
  return (-1, (sendNetworkMessage allocated.2 (w.server.clients i).socketFd .error payload none).2)

/-- The front of the four handlers whose payload starts with a name: its checks
in 32 bits, and the name in its array with a NUL behind it, read as a string. -/
def readName (least extra : UInt32) (tooShort badLength : String) (p : Span UInt8) :
    Checked (Except Refusal (Username × UInt8)) := do
  if p.pointer.isNone || p.len < least then return .error ⟨.invalidFormat, tooShort⟩
  let usernameLen ← load p 0
  if usernameLen = 0 ∨ usernameLen.toNat ≥ maxUsernameLen ∨
      p.len < 1 + usernameLen.toUInt32 + extra then
    return .error ⟨.invalidFormat, badLength⟩
  let bytes ← loadRange p 1 usernameLen.toNat
  let username ← storeAll [(0, bytes), (usernameLen.toNat, [0])] (fresh maxUsernameLen)
  let string ← readString 0 username
  return .ok (Username.ofBytes string, usernameLen)

/-- `handle_register_user`. The key is read where `add_user` is called. -/
def handleRegisterUser (w : World) (i : ℕ) (p : Span UInt8) : Checked (ℤ × World) := do
  match ← readName (1 + 32) 32 "Invalid registration data" "Invalid username length" p with
  | .error e => refuse w i e
  | .ok (username, usernameLen) =>
    if validateUsernameServer username.bytes < 0 then
      refuse w i ⟨.invalidUsername, "Invalid username format"⟩
    else
      let publicKey ← loadRange p (1 + usernameLen.toNat) publicKeySize
      let added := addUser w username (Block.read publicKeySize publicKey)
      let status : UInt8 × UInt8 := if added.1 = 0 then (1, 0)
        else if added.1 = -2 then (0, ErrorCode.userExists.code)
        else (0, ErrorCode.serverError.code)
      let response ← build 2 [(0, [status.1]), (1, [status.2])] 2
      return reply added.2 i .registerResponse response

/-- `handle_login_user`. The signature is read where `authenticate_user` is called. -/
def handleLoginUser (verify : Signature → Challenge → Key → Bool) (w : World) (i : ℕ)
    (p : Span UInt8) : Checked (ℤ × World) := do
  match ← readName (1 + 64) 64 "Invalid login data" "Invalid username length" p with
  | .error e => refuse w i e
  | .ok (username, usernameLen) =>
    let signature ← loadRange p (1 + usernameLen.toNat) signatureSize
    let result := authenticateUser verify w i username (Block.read signatureSize signature)
    if result.1 = 0 then
      let challenge := (result.2.server.clients i).challenge
      let response ← build (1 + challengeSize) [(0, [1]), (1, challenge.toList)] (1 + challengeSize)
      let delivered := deliverQueuedMessages result.2 i
      return reply delivered.2 i .loginResponse response
    else
      let response ← build (1 + challengeSize) [(0, [0])] 1
      return reply result.2 i .loginResponse response

def handleGetPublicKey (w : World) (i : ℕ) (p : Span UInt8) : Checked (ℤ × World) := do
  match ← readName 1 0 "Invalid public key request" "Invalid username length" p with
  | .error e => refuse w i e
  | .ok (username, _) =>
    match findUser w.server username with
    | some k =>
      let response ← build (1 + publicKeySize)
        [(0, [1]), (1, (w.server.users k).publicKey.toList)] (1 + publicKeySize)
      return reply w i .publicKeyResponse response
    | none =>
      let response ← build (1 + publicKeySize) [(0, [0])] 1
      return reply w i .publicKeyResponse response

/-- The message is copied into an allocation of its length by `queue_message`. -/
def queueFrom (w : World) (p : Span UInt8) (start : ℕ) (messageLen : UInt16)
    (recipient sender : Username) : Checked World := do
  let data ← loadRange p start messageLen.toNat
  let copied ← build messageLen.toNat [(0, data)] messageLen.toNat
  return (queueMessage w recipient sender copied).2

/-- The part of `handle_send_message` behind the format checks, up to the
status byte of the acknowledgement; the message starts at `start`. -/
def relay (w : World) (i : ℕ) (p : Span UInt8) (start : ℕ) (id : UInt32) (recipient : Username)
    (messageLen : UInt16) : Checked (UInt8 × World) := do
  let sender := (w.server.clients i).username
  match findClientByUsername w.server recipient with
  | some j =>
    let now := time w
    let allocated := malloc now.2
    if !allocated.1 then return (0, allocated.2)
    let data ← loadRange p start messageLen.toNat
    let size := incomingSize sender.bytes.length messageLen.toNat
    let payload ← build size (incomingStores id sender.bytes now.1 messageLen data) size
    let sent := sendNetworkMessage allocated.2 (w.server.clients j).socketFd .incomingMessage
      payload none
    if sent.1 = 0 then return (1, sent.2)
    return (2, ← queueFrom sent.2 p start messageLen recipient sender)
  | none => return (2, ← queueFrom w p start messageLen recipient sender)

def handleSendMessage (w : World) (i : ℕ) (p : Span UInt8) : Checked (ℤ × World) := do
  match ← readName 3 2 "Invalid message data" "Invalid recipient length" p with
  | .error e => refuse w i e
  | .ok (recipient, recipientLen) =>
    let high ← load p (1 + recipientLen.toNat)
    let low ← load p (1 + recipientLen.toNat + 1)
    let messageLen := (high.toUInt16 <<< 8) ||| low.toUInt16
    if messageLen = 0 ∨ p.len < 1 + recipientLen.toUInt32 + 2 + messageLen.toUInt32 then
      refuse w i ⟨.invalidFormat, "Invalid message length"⟩
    else
      match findUser w.server recipient with
      | none => refuse w i ⟨.userNotFound, "Recipient not found"⟩
      | some _ =>
        let drawn := drawMessageId w
        let start := 1 + recipientLen.toNat + 2
        let relayed ← relay drawn.2 i p start drawn.1 recipient messageLen
        let ackResponse ← build 5 (storeWord 0 drawn.1 ++ [(4, [relayed.1])]) 5
        let answered := reply relayed.2 i .messageAck ackResponse
        return if relayed.1 = 0 then (-1, answered.2) else answered

def handleSetStatus (w : World) (i : ℕ) (p : Span UInt8) : Checked (ℤ × World) := do
  if p.pointer.isNone || p.len < 1 then
    refuse w i ⟨.invalidFormat, "Invalid status data"⟩
  else
    let newStatus ← load p 0
    match UserStatus.ofByte newStatus with
    | none => refuse w i ⟨.invalidFormat, "Invalid status value"⟩
    | some status =>
      let username := (w.server.clients i).username
      match findUser w.server username with
      | none => return (0, w)
      | some k =>
        let w₁ := w.modifyUser k (fun u ↦ { u with status := status })
        let w₂ := w₁.modifyClient i (fun c ↦ { c with status := status })
        return (0, broadcastStatusUpdate w₂ username status)

theorem refuse_ok (w : World) (i : ℕ) (e : Refusal) :
    refuse w i e = .ok (Handlers.refuse w i e) := by
  have hwritten : written [(0, [e.code.code]), (1, [UInt8.ofNat ((text e.message).length >>> 8)]),
      (2, [UInt8.ofNat (text e.message).length]), (3, text e.message)] =
        errorPayload e.code (text e.message) := by
    simp [errorPayload, BigEndian.bytes, Nat.shiftRight_eq_div_pow]
  have hlength : 3 + (text e.message).length = (errorPayload e.code (text e.message)).length := by
    rw [← hwritten]
    simp only [written_cons, written_nil, List.length_append, List.length_singleton, List.length_nil]
    omega
  have hconsecutive : Consecutive 0
      [(0, [e.code.code]), (1, [UInt8.ofNat ((text e.message).length >>> 8)]),
        (2, [UInt8.ofNat (text e.message).length]), (3, text e.message)] :=
    ⟨rfl, rfl, rfl, rfl, trivial⟩
  have hbuild := @build_ok _ _ (3 + (text e.message).length) (3 + (text e.message).length)
    hconsecutive (by rw [hwritten, hlength]) (by rw [hwritten, hlength])
  unfold refuse Handlers.refuse sendError
  dsimp only
  cases (malloc w).1 with
  | false => rfl
  | true =>
    rw [hbuild, hwritten]
    rfl

/-- A comparison of a 32-bit length with a sum that does not wrap around. -/
theorem len_lt_iff {p : Span UInt8} {values : Bytes} (hp : p.pointer = some values) {n : UInt32} :
    p.len < n ↔ values.length < n.toNat := by
  rw [UInt32.lt_iff_toNat_lt, p.sized values hp]

theorem toNat_sum {n : UInt8} {extra : UInt32} (hextra : extra.toNat ≤ 64) :
    (1 + n.toUInt32 + extra).toNat = 1 + n.toNat + extra.toNat := by
  have hn := n.toNat_lt
  simp only [UInt32.toNat_add, UInt8.toNat_toUInt32, UInt32.reduceToNat]
  omega

/-- The front of a handler: the two readers refuse with the same error, or give
the same name, and then what follows it is in the payload. -/
inductive Front (extra : ℕ) (p : Span UInt8) (model : Except Refusal (Username × Bytes)) :
    Checked (Except Refusal (Username × UInt8)) → Prop
  | refused (e : Refusal) (hmodel : model = .error e) : Front extra p model (.ok (.error e))
  | named (username : Username) (n : UInt8) (values : Bytes) (hp : p.pointer = some values)
      (hn : n.toNat < maxUsernameLen) (hfits : 1 + n.toNat + extra ≤ values.length)
      (hmodel : model = .ok (username, values.drop (1 + n.toNat))) :
      Front extra p model (.ok (.ok (username, n)))

theorem storeName_ok {bytes : Bytes} (h : bytes.length < maxUsernameLen) :
    ∃ cells, storeAll [(0, bytes), (bytes.length, [0])] (fresh maxUsernameLen) = .ok cells ∧
      readString 0 cells = .ok (bytes.takeWhile (· ≠ 0)) := by
  have hconsecutive : Consecutive 0 [(0, bytes), (bytes.length, [0])] :=
    ⟨rfl, (Nat.zero_add _).symm, trivial⟩
  have hfits : (written [(0, bytes), (bytes.length, [0])]).length ≤ maxUsernameLen := by
    simp only [written_cons, written_nil, List.length_append, List.length_singleton, List.length_nil]
    omega
  refine ⟨_, storeAll_fresh hconsecutive hfits, ?_⟩
  have hwritten : written [(0, bytes), (bytes.length, [0])] = bytes ++ [0] := rfl
  rw [hwritten, List.map_append, List.append_assoc]
  exact readString_ok 0 bytes _

theorem ofBytes_takeWhile (bytes : Bytes) :
    Username.ofBytes (bytes.takeWhile (· ≠ 0)) = Username.ofBytes bytes := by
  simp [Username.ofBytes, CString.ofBytes, List.takeWhile_idem]

theorem readName_front (least extra : UInt32) (l x : ℕ) (hl : least.toNat = l)
    (hx : extra.toNat = x) (hleast : 0 < l) (hextra : x ≤ 64) (tooShort badLength : String)
    (p : Span UInt8) :
    Front x p (Handlers.readName l x tooShort badLength p.content)
      (readName least extra tooShort badLength p) := by
  subst hl hx
  unfold readName Handlers.readName
  cases hp : p.pointer with
  | none =>
    have hnothing : ([] : Bytes).length < least.toNat := hleast
    rw [Span.content, hp, Option.getD_none, if_pos hnothing]
    exact .refused _ rfl
  | some values =>
    rw [Span.content_some hp, Option.isNone_some, Bool.false_or]
    simp only [decide_eq_true_eq, len_lt_iff hp, toNat_sum hextra]
    by_cases hshort : values.length < least.toNat
    · rw [if_pos hshort, if_pos hshort]
      exact .refused _ rfl
    obtain ⟨usernameLen, rest, rfl⟩ : ∃ b rest, values = b :: rest := by
      cases values with
      | nil => exact absurd hleast hshort
      | cons b rest => exact ⟨b, rest, rfl⟩
    have hzero : usernameLen = 0 ↔ usernameLen.toNat = 0 := UInt8.toNat_inj.symm
    have hfirst : load p 0 = .ok usernameLen := load_ok hp (Nat.succ_pos _)
    rw [if_neg hshort, if_neg hshort, hfirst, ok_bind, List.headD_cons]
    simp only [hzero]
    by_cases hbad : usernameLen.toNat = 0 ∨ usernameLen.toNat ≥ maxUsernameLen ∨
        (usernameLen :: rest).length < 1 + usernameLen.toNat + extra.toNat
    · rw [if_pos hbad, if_pos hbad]
      exact .refused _ rfl
    rw [if_neg hbad, if_neg hbad]
    rw [not_or, not_or, Nat.not_le, Nat.not_lt] at hbad
    obtain ⟨_, hn, hfits⟩ := hbad
    have hbytes : loadRange p 1 usernameLen.toNat = .ok (rest.take usernameLen.toNat) :=
      loadRange_ok hp (by omega)
    have hlength : (rest.take usernameLen.toNat).length = usernameLen.toNat := by
      rw [List.length_cons] at hfits
      rw [List.length_take]
      omega
    obtain ⟨cells, hstored, hstring⟩ := storeName_ok (hlength.trans_lt hn)
    rw [hlength] at hstored
    rw [hbytes, ok_bind, hstored, ok_bind, hstring, ok_bind, ofBytes_takeWhile]
    exact .named _ _ _ hp hn hfits rfl

theorem read_take {n k : ℕ} {values : Bytes} (h : n ≤ values.length - k) :
    Block.read n ((values.drop k).take n) = Block.read n (values.drop k) := by
  have hlong : n ≤ (values.drop k).length := by rwa [List.length_drop]
  have hall : n ≤ ((values.drop k).take n).length := by rw [List.length_take, Nat.min_eq_left hlong]
  apply Subtype.ext
  show ((values.drop k).take n ++ _).take n = (values.drop k ++ _).take n
  rw [List.take_append_of_le_length hall, List.take_append_of_le_length hlong, List.take_take,
    Nat.min_self]

theorem handleRegisterUser_ok (w : World) (i : ℕ) (p : Span UInt8) :
    handleRegisterUser w i p = .ok (Handlers.handleRegisterUser w i p.content) := by
  have hfront := readName_front (1 + 32) 32 (1 + publicKeySize) publicKeySize rfl rfl (by decide)
    (by decide) "Invalid registration data" "Invalid username length" p
  unfold handleRegisterUser Handlers.handleRegisterUser parseRegister
  generalize Handlers.readName _ _ _ _ _ = model at hfront ⊢
  generalize readName _ _ _ _ _ = checked at hfront ⊢
  cases hfront with
  | refused e hmodel =>
    rw [hmodel]
    exact refuse_ok w i e
  | named username n values hp hn hfits hmodel =>
    rw [hmodel, ok_bind]
    dsimp only
    by_cases hinvalid : validateUsernameServer username.bytes < 0
    · rw [if_pos hinvalid, if_pos hinvalid]
      exact refuse_ok w i _
    have hbuild : ∀ a b : UInt8, build 2 [(0, [a]), (1, [b])] 2 = .ok [a, b] := fun a b ↦
      build_ok ⟨rfl, rfl, trivial⟩ (Nat.le_refl _) rfl
    rw [if_neg hinvalid, if_neg hinvalid, loadRange_ok hp hfits, ok_bind, hbuild, ok_bind,
      read_take (Nat.le_sub_of_add_le' hfits)]
    dsimp only
    split_ifs <;> rfl

/-- A response of a 1 and a block, and one of a 0 alone. -/
theorem buildAnswer_ok {n : ℕ} (block : Block n) :
    build (1 + n) [(0, [1]), (1, block.toList)] (1 + n) = .ok (1 :: block.toList) := by
  have hlength : (written [(0, [1]), (1, block.toList)]).length = 1 + n := by
    simp only [written_cons, written_nil, List.length_append, List.length_singleton,
      List.length_nil, List.Vector.toList_length, Nat.add_zero]
  have hbuild := build_ok (show Consecutive 0 [(0, [1]), (1, block.toList)] from ⟨rfl, rfl, trivial⟩)
    (Nat.le_of_eq hlength) hlength.symm
  simpa using hbuild

theorem buildRefusal_ok (n : ℕ) : build (1 + n) [(0, [(0 : UInt8)])] 1 = .ok [0] :=
  build_ok ⟨rfl, trivial⟩ (Nat.le_add_right 1 n) rfl

theorem handleLoginUser_ok (verify : Signature → Challenge → Key → Bool) (w : World) (i : ℕ)
    (p : Span UInt8) :
    handleLoginUser verify w i p = .ok (Handlers.handleLoginUser verify w i p.content) := by
  have hfront := readName_front (1 + 64) 64 (1 + signatureSize) signatureSize rfl rfl (by decide)
    (by decide) "Invalid login data" "Invalid username length" p
  unfold handleLoginUser Handlers.handleLoginUser parseLogin
  generalize Handlers.readName _ _ _ _ _ = model at hfront ⊢
  generalize readName _ _ _ _ _ = checked at hfront ⊢
  cases hfront with
  | refused e hmodel =>
    rw [hmodel]
    exact refuse_ok w i e
  | named username n values hp hn hfits hmodel =>
    rw [hmodel, ok_bind]
    dsimp only
    rw [loadRange_ok hp hfits, ok_bind, read_take (Nat.le_sub_of_add_le' hfits)]
    generalize authenticateUser verify w i username _ = result
    by_cases hauthenticated : result.1 = 0
    · rw [if_pos hauthenticated, if_pos hauthenticated, buildAnswer_ok, ok_bind]
      rfl
    · rw [if_neg hauthenticated, if_neg hauthenticated, buildRefusal_ok, ok_bind]
      rfl

theorem handleGetPublicKey_ok (w : World) (i : ℕ) (p : Span UInt8) :
    handleGetPublicKey w i p = .ok (Handlers.handleGetPublicKey w i p.content) := by
  have hfront := readName_front 1 0 1 0 rfl rfl (by decide) (by decide)
    "Invalid public key request" "Invalid username length" p
  unfold handleGetPublicKey Handlers.handleGetPublicKey parseGetPublicKey
  generalize Handlers.readName _ _ _ _ _ = model at hfront ⊢
  generalize readName _ _ _ _ _ = checked at hfront ⊢
  cases hfront with
  | refused e hmodel =>
    rw [hmodel]
    exact refuse_ok w i e
  | named username n values hp hn hfits hmodel =>
    rw [hmodel, ok_bind]
    dsimp only
    cases findUser w.server username with
    | some k =>
      dsimp only
      rw [buildAnswer_ok, ok_bind]
      rfl
    | none =>
      dsimp only
      rw [buildRefusal_ok, ok_bind]
      rfl

theorem messageLen_toNat (high low : UInt8) :
    ((high.toUInt16 <<< 8) ||| low.toUInt16).toNat = BigEndian.value [high, low] := by
  have hhigh := high.toNat_lt
  have hlow := low.toNat_lt
  have hshift : (high.toUInt16 <<< 8).toNat = high.toNat <<< 8 := by
    simp only [UInt16.toNat_shiftLeft, UInt8.toNat_toUInt16, UInt16.reduceToNat, Nat.reduceMod,
      Nat.shiftLeft_eq]
    omega
  rw [UInt16.toNat_or, hshift, UInt8.toNat_toUInt16, ← Nat.shiftLeft_add_eq_or_of_lt hlow,
    Nat.shiftLeft_eq]
  simp [BigEndian.value, Nat.mul_comm]

variable {p : Span UInt8} {values : Bytes} {start : ℕ} {messageLen : UInt16}

theorem queueFrom_ok (hp : p.pointer = some values)
    (hfits : start + messageLen.toNat ≤ values.length) (w : World) (recipient sender : Username) :
    queueFrom w p start messageLen recipient sender =
      .ok (queueMessage w recipient sender ((values.drop start).take messageLen.toNat)).2 := by
  have hlength : ((values.drop start).take messageLen.toNat).length = messageLen.toNat := by
    rw [List.length_take, List.length_drop]
    omega
  rw [queueFrom, loadRange_ok hp hfits, ok_bind, build_copy hlength, ok_bind]
  rfl

theorem relay_ok (hp : p.pointer = some values) (hfits : start + messageLen.toNat ≤ values.length)
    (w : World) (i : ℕ) (id : UInt32) (recipient : Username) :
    relay w i p start id recipient messageLen =
      .ok (Handlers.relay w i id recipient ((values.drop start).take messageLen.toNat)) := by
  have hlength : ((values.drop start).take messageLen.toNat).length = messageLen.toNat := by
    rw [List.length_take, List.length_drop]
    omega
  unfold relay Handlers.relay
  cases findClientByUsername w.server recipient with
  | none =>
    dsimp only
    rw [queueFrom_ok hp hfits, ok_bind]
    rfl
  | some j =>
    dsimp only
    cases (malloc (time w).2).1 with
    | false => rfl
    | true =>
      have hsize := @incomingStores_length (w.server.clients i).username.bytes
        ((values.drop start).take messageLen.toNat) id (time w).1 messageLen
      rw [hlength] at hsize
      have hpayload : written (incomingStores id (w.server.clients i).username.bytes (time w).1
          messageLen ((values.drop start).take messageLen.toNat)) =
            directPayload id (w.server.clients i).username (time w).1
              ((values.drop start).take messageLen.toNat) := by
        rw [incomingStores_written, directPayload, hlength]
        rfl
      rw [loadRange_ok hp hfits, ok_bind, build_ok (incomingStores_consecutive _ _ _ _ _)
        (Nat.le_of_eq hsize) hsize.symm, ok_bind, hpayload, queueFrom_ok hp hfits, ok_bind]
      have hroom : ¬ (!true) = true := Bool.false_ne_true
      rw [if_neg hroom, if_neg hroom]
      generalize sendNetworkMessage _ _ _ _ _ = sent
      by_cases hsent : sent.1 = 0
      · rw [if_pos hsent, if_pos hsent]
        rfl
      · rw [if_neg hsent, if_neg hsent]
        rfl

/-- The two bytes behind the name are the length of the message. -/
theorem lengthBytes_ok {n : UInt8} (hp : p.pointer = some values)
    (hfits : 1 + n.toNat + 2 ≤ values.length) :
    ∃ high low, load p (1 + n.toNat) = .ok high ∧ load p (1 + n.toNat + 1) = .ok low ∧
      ((high.toUInt16 <<< 8) ||| low.toUInt16).toNat =
        BigEndian.value ((values.drop (1 + n.toNat)).take 2) := by
  have hhigh : 1 + n.toNat < values.length := by omega
  have hlow : 1 + n.toNat + 1 < values.length := by omega
  refine ⟨_, _, load_ok hp hhigh, load_ok hp hlow, ?_⟩
  rw [messageLen_toNat, List.drop_eq_getElem_cons hhigh, List.drop_eq_getElem_cons hlow]
  rfl

theorem buildAck_ok (id : UInt32) (status : UInt8) :
    build 5 (storeWord 0 id ++ [(4, [status])]) 5 = .ok (ackPayload id status) := by
  have hconsecutive : Consecutive 0 (storeWord 0 id ++ [(4, [status])]) :=
    ⟨rfl, rfl, rfl, rfl, rfl, trivial⟩
  have hwritten : written (storeWord 0 id ++ [(4, [status])]) = ackPayload id status := by
    rw [written, List.flatMap_append, ← written, storeWord_written]
    rfl
  have hlength : (written (storeWord 0 id ++ [(4, [status])])).length = 5 := rfl
  rw [build_ok hconsecutive (Nat.le_of_eq hlength) hlength.symm, hwritten]

theorem handleSendMessage_ok (w : World) (i : ℕ) (p : Span UInt8) :
    handleSendMessage w i p = .ok (Handlers.handleSendMessage w i p.content) := by
  have hfront := readName_front 3 2 3 2 rfl rfl (by decide) (by decide)
    "Invalid message data" "Invalid recipient length" p
  unfold handleSendMessage Handlers.handleSendMessage parseSendMessage
  generalize Handlers.readName _ _ _ _ _ = model at hfront ⊢
  generalize readName _ _ _ _ _ = checked at hfront ⊢
  cases hfront with
  | refused e hmodel =>
    rw [hmodel]
    exact refuse_ok w i e
  | named recipient n values hp hn hfits hmodel =>
    obtain ⟨high, low, hhigh, hlow, hvalue⟩ := lengthBytes_ok hp hfits
    rw [hmodel, ok_bind]
    dsimp only
    rw [hhigh, ok_bind, hlow, ok_bind, ← hvalue]
    generalize (high.toUInt16 <<< 8) ||| low.toUInt16 = messageLen
    have hzero : messageLen = 0 ↔ messageLen.toNat = 0 := UInt16.toNat_inj.symm
    have hshort : p.len < 1 + n.toUInt32 + 2 + messageLen.toUInt32 ↔
        (values.drop (1 + n.toNat)).length < 2 + messageLen.toNat := by
      have hsum : (1 + n.toUInt32 + 2 + messageLen.toUInt32).toNat =
          1 + n.toNat + 2 + messageLen.toNat := by
        have hn := n.toNat_lt
        have hm := messageLen.toNat_lt
        simp only [UInt32.toNat_add, UInt8.toNat_toUInt32, UInt16.toNat_toUInt32,
          UInt32.reduceToNat]
        omega
      rw [len_lt_iff hp, hsum, List.length_drop]
      omega
    simp only [hzero, hshort]
    by_cases hbad : messageLen.toNat = 0 ∨
        (values.drop (1 + n.toNat)).length < 2 + messageLen.toNat
    · rw [if_pos hbad, if_pos hbad]
      exact refuse_ok w i _
    rw [if_neg hbad, if_neg hbad]
    rw [not_or, Nat.not_lt, List.length_drop] at hbad
    dsimp only
    cases findUser w.server recipient with
    | none => exact refuse_ok w i _
    | some k =>
      have hmessage : 1 + n.toNat + 2 + messageLen.toNat ≤ values.length := by omega
      dsimp only
      rw [relay_ok hp hmessage, ok_bind, List.drop_drop, buildAck_ok, ok_bind]
      rfl

theorem handleSetStatus_ok (w : World) (i : ℕ) (p : Span UInt8) :
    handleSetStatus w i p = .ok (Handlers.handleSetStatus w i p.content) := by
  unfold handleSetStatus Handlers.handleSetStatus parseSetStatus
  cases hp : p.pointer with
  | none =>
    rw [Span.content, hp]
    exact refuse_ok w i _
  | some values =>
    rw [Span.content_some hp, Option.isNone_some, Bool.false_or]
    simp only [decide_eq_true_eq, len_lt_iff hp]
    cases values with
    | nil => exact refuse_ok w i _
    | cons b rest =>
      have hlong : ¬ (b :: rest).length < 1 := Nat.not_lt.mpr (Nat.succ_pos _)
      have hfirst : load p 0 = .ok b := load_ok hp (Nat.succ_pos _)
      have hone : (1 : UInt32).toNat = 1 := rfl
      rw [hone, if_neg hlong, if_neg hlong, hfirst, ok_bind, List.headD_cons]
      cases UserStatus.ofByte b with
      | none => exact refuse_ok w i _
      | some status =>
        dsimp only
        cases findUser w.server (w.server.clients i).username with
        | none => rfl
        | some k => rfl

end CChat.Server.Bounds
