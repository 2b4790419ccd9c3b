import CChat.Client.Crypto

namespace CChat.Client.Chat

open CChat.Library CChat.Protocol.Types CChat.Protocol.Wire Network Crypto

structure SessionKeys where
  privateKey : Key
  partnerPublicKey : Key
  keysLoaded : Bool

def sendMessageSecure (sodium : Sodium) (initialized : Bool) (c : ClientState) (partner : Username)
    (message : Bytes) (keys : SessionKeys) : CchatError × ClientState :=
  if message.length = 0 then (.invalidArgs, c)
  else if !keys.keysLoaded then (.crypto, c)
  else
    match (encryptMessage sodium initialized message keys.partnerPublicKey).1 with
    | .error result => (result, c)
    | .ok encrypted =>
      let sent := sendMessageToServer c partner.bytes encrypted
      (.success, sent.2)

/-- One line of the chat loop of `start_chat` that is not `/exit`: whether it
prints "Failed to send message". -/
def chatLine (sodium : Sodium) (initialized : Bool) (c : ClientState) (partner : Username)
    (message : Bytes) (keys : SessionKeys) : Bool × ClientState :=
  if message.length > 0 then
    let sent := sendMessageSecure sodium initialized c partner message keys
    (decide (sent.1 ≠ .success), sent.2)
  else (false, c)

/-- The request is made, and the frame read for its answer is a `MESSAGE_ACK`
with a status other than 0. -/
def Acknowledged (c : ClientState) (recipient encrypted : Bytes) : Prop :=
  (c.connectedToServer = true ∧ recipient.length < maxUsernameLen ∧ 0 < encrypted.length ∧
    encrypted.length ≤ maxMessageLen + 100) ∧
  ∃ payload, (request c 0x04 (nameField recipient ++
      (BigEndian.bytes 2 encrypted.length ++ encrypted))).1 = .ok (0x84, payload) ∧
    5 ≤ payload.length ∧ payload.getD 4 0 ≠ 0

def Encrypts (sodium : Sodium) (initialized : Bool) (message : Bytes) (keys : SessionKeys)
    (encrypted : Bytes) : Prop :=
  keys.keysLoaded = true ∧
    (encryptMessage sodium initialized message keys.partnerPublicKey).1 = .ok encrypted

def Accepted (sodium : Sodium) (initialized : Bool) (c : ClientState) (partner : Username)
    (message : Bytes) (keys : SessionKeys) : Prop :=
  ∃ encrypted, Encrypts sodium initialized message keys encrypted ∧
    Acknowledged c partner.bytes encrypted

/-- Success is reported, and the failure branch of `start_chat` left out, for
the messages the server accepted and no others. -/
def ReportsFailure (sodium : Sodium) (initialized : Bool) (c : ClientState) (partner : Username)
    (message : Bytes) (keys : SessionKeys) : Prop :=
  ((sendMessageSecure sodium initialized c partner message keys).1 = .success ↔
    Accepted sodium initialized c partner message keys) ∧
  ((chatLine sodium initialized c partner message keys).1 = true ↔
    ¬ Accepted sodium initialized c partner message keys)

variable {sodium : Sodium} {initialized : Bool} {c : ClientState} {partner : Username}
  {message encrypted : Bytes} {keys : SessionKeys}

theorem readMessageAck_success {response : Frame} :
    readMessageAck response = .success ↔
      response.1 = 0x84 ∧ 5 ≤ response.2.length ∧ response.2.getD 4 0 ≠ 0 := by
  unfold readMessageAck
  split_ifs with hshape hstatus
  · refine iff_of_false (by decide) ?_
    rintro ⟨htype, hlength, _⟩
    exact hshape.elim (fun h ↦ h htype) (fun h ↦ Nat.not_lt_of_le hlength h)
  · exact iff_of_false (by decide) (fun h ↦ h.2.2 hstatus)
  · rw [not_or, not_not, Nat.not_lt] at hshape
    exact iff_of_true rfl ⟨hshape.1, hshape.2, hstatus⟩

theorem sendMessageToServer_success {recipient : Bytes} :
    (sendMessageToServer c recipient encrypted).1 = .success ↔
      Acknowledged c recipient encrypted := by
  unfold sendMessageToServer Acknowledged
  by_cases hguard : encrypted.length = 0 ∨ c.connectedToServer = false
  · rw [if_pos (by simpa using hguard)]
    refine iff_of_false (fun h ↦ CchatError.noConfusion h) ?_
    rintro ⟨⟨hconnected, _, hpos, _⟩, _⟩
    rw [hconnected] at hguard
    exact hguard.elim (Nat.ne_of_gt hpos) (fun h ↦ Bool.noConfusion h)
  · rw [if_neg (by simpa using hguard)]
    rw [not_or, Bool.not_eq_false] at hguard
    by_cases hlong : recipient.length ≥ maxUsernameLen ∨ encrypted.length > maxMessageLen + 100
    · rw [if_pos hlong]
      refine iff_of_false (fun h ↦ CchatError.noConfusion h) ?_
      rintro ⟨⟨_, hname, _, hfits⟩, _⟩
      omega
    · rw [if_neg hlong]
      dsimp only
      have hsent : c.connectedToServer = true ∧ recipient.length < maxUsernameLen ∧
          0 < encrypted.length ∧ encrypted.length ≤ maxMessageLen + 100 :=
        ⟨hguard.2, by omega, by omega, by omega⟩
      rw [and_iff_right hsent]
      cases hrequest : (request c 0x04 (nameField recipient ++
          (BigEndian.bytes 2 encrypted.length ++ encrypted))).1 with
      | error e =>
        have he := request_error hrequest
        refine iff_of_false ?_ ?_
        · rintro rfl
          exact he.elim (by decide) (by decide)
        · rintro ⟨_, hok, _⟩
          cases hok
      | ok response =>
        dsimp only
        rw [readMessageAck_success]
        constructor
        · rintro ⟨htype, hlength, hstatus⟩
          exact ⟨response.2, by rw [← htype], hlength, hstatus⟩
        · rintro ⟨payload, hok, hlength, hstatus⟩
          cases hok
          exact ⟨rfl, hlength, hstatus⟩

theorem sendMessageSecure_success (hmessage : message ≠ []) :
    (sendMessageSecure sodium initialized c partner message keys).1 = .success ↔
      ∃ encrypted, Encrypts sodium initialized message keys encrypted := by
  have hlength : message.length ≠ 0 := fun h ↦ hmessage (List.eq_nil_of_length_eq_zero h)
  unfold sendMessageSecure Encrypts
  rw [if_neg hlength]
  cases hkeys : keys.keysLoaded with
  | false => simp
  | true =>
    cases hencrypted : (encryptMessage sodium initialized message keys.partnerPublicKey).1 with
    | error result =>
      have herror := encryptMessage_error hencrypted
      simpa using herror
    | ok encrypted => simp

theorem chatLine_fails (hmessage : message ≠ []) :
    (chatLine sodium initialized c partner message keys).1 = true ↔
      (sendMessageSecure sodium initialized c partner message keys).1 ≠ .success := by
  have hlength : message.length > 0 := List.length_pos_of_ne_nil hmessage
  unfold chatLine
  rw [if_pos hlength]
  exact decide_eq_true_iff

/-- A message that is encrypted is reported as sent, so the report is right
when the server acknowledges what it gets. -/
theorem reports_failure_iff (hmessage : message ≠ []) :
    ReportsFailure sodium initialized c partner message keys ↔
      ∀ encrypted, Encrypts sodium initialized message keys encrypted →
        Acknowledged c partner.bytes encrypted := by
  unfold ReportsFailure
  rw [chatLine_fails hmessage, not_iff_not, and_self, sendMessageSecure_success hmessage]
  constructor
  · rintro hreports encrypted hencrypts
    obtain ⟨encrypted', hencrypts', hack⟩ := hreports.mp ⟨encrypted, hencrypts⟩
    obtain rfl := Except.ok.inj (hencrypts.2.symm.trans hencrypts'.2)
    exact hack
  · intro hall
    constructor
    · rintro ⟨encrypted, hencrypts⟩
      exact ⟨encrypted, hencrypts, hall encrypted hencrypts⟩
    · rintro ⟨encrypted, hencrypts, _⟩
      exact ⟨encrypted, hencrypts⟩

def loadedKeys : SessionKeys := ⟨Block.zero _, Block.zero _, true⟩

def bob : Username := ⟨[0x62, 0x6F, 0x62], by decide, by decide⟩

def lost : ClientState := ClientState.initial ⟨[], [], [], []⟩

theorem reports_failure_lost : [0x68, 0x69] ≠ ([] : Bytes) ∧
    (ReportsFailure plainSodium true lost bob [0x68, 0x69] loadedKeys ↔
      ∀ encrypted, Encrypts plainSodium true [0x68, 0x69] loadedKeys encrypted →
        Acknowledged lost bob.bytes encrypted) :=
  ⟨by decide, reports_failure_iff (by decide)⟩

/-- Success is reported for a message that was never sent. -/
theorem lost_reported_sent :
    (sendMessageSecure plainSodium true lost bob [0x68, 0x69] loadedKeys).1 = .success ∧
      ¬ ReportsFailure plainSodium true lost bob [0x68, 0x69] loadedKeys := by
  have hsuccess : (sendMessageSecure plainSodium true lost bob [0x68, 0x69] loadedKeys).1 =
      .success := by decide +kernel
  refine ⟨hsuccess, fun hreports ↦ ?_⟩
  obtain ⟨_, _, ⟨hconnected, _⟩, _⟩ := hreports.1.mp hsuccess
  cases hconnected

end CChat.Client.Chat
