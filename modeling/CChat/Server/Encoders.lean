import CChat.Library.Buffers
import CChat.Library.Fields
import CChat.Server.Handlers

namespace CChat.Server.Encoders

open CChat.Library CChat.Library.Buffers CChat.Library.Fields CChat.Protocol.Types State Queue Handlers

def storeWord (offset : ℕ) (v : UInt32) : List (ℕ × Bytes) :=
  [(offset, [((v >>> 24) &&& 0xFF).toUInt8]), (offset + 1, [((v >>> 16) &&& 0xFF).toUInt8]),
    (offset + 2, [((v >>> 8) &&& 0xFF).toUInt8]), (offset + 3, [(v &&& 0xFF).toUInt8])]

def storeHalf (offset : ℕ) (v : UInt16) : List (ℕ × Bytes) :=
  [(offset, [((v >>> 8) &&& 0xFF).toUInt8]), (offset + 1, [(v &&& 0xFF).toUInt8])]

/-- The stores both encoders make, in their order: `msgLen` is the length that
is written, `data` what is copied. -/
def incomingStores (messageId : UInt32) (sender : Bytes) (timestamp : ℤ) (msgLen : UInt16)
    (data : Bytes) : List (ℕ × Bytes) :=
  let senderLen := sender.length
  let ts := UInt32.ofNat (timestampBits timestamp)
  storeWord 0 messageId ++
    ((4, [UInt8.ofNat senderLen]) :: (5, sender) ::
      (storeWord (5 + senderLen) ts ++
        (storeHalf (5 + senderLen + 4) msgLen ++ [(5 + senderLen + 6, data)])))

/-- An allocation of `size` bytes is filled and `size` bytes of it are sent. -/
def encode (size : ℕ) (stores : List (ℕ × Bytes)) : Option Bytes :=
  (fill stores (fresh size)).bind (read size)

def incomingSize (senderLen messageLen : ℕ) : ℕ := 4 + 1 + senderLen + 4 + 2 + messageLen

/-- `message_payload` of `handle_send_message`, whose `message_len` has 16 bits. -/
def messagePayload (messageId : UInt32) (username : Username) (timestamp : ℤ) (messageLen : UInt16)
    (encryptedMessage : Bytes) : Option Bytes :=
  encode (incomingSize username.bytes.length messageLen.toNat)
    (incomingStores messageId username.bytes timestamp messageLen
      (encryptedMessage.take messageLen.toNat))

/-- `payload` of `deliver_queued_messages`, which narrows `encrypted_len`. -/
def deliveredPayload (m : StoredMessage) : Option Bytes :=
  encode (incomingSize m.sender.bytes.length m.encryptedLen)
    (incomingStores m.messageId m.sender.bytes m.timestamp (UInt16.ofNat m.encryptedLen)
      ((m.encryptedData.getD []).take m.encryptedLen))

structure Incoming where
  messageId : ℕ
  sender : Bytes
  timestamp : ℕ
  message : Bytes
deriving DecidableEq

def incoming : Reader Incoming := fun bs ↦
  (number 4 bs).bind fun id ↦
    (counted 1 id.2).bind fun sender ↦
      (number 4 sender.2).bind fun timestamp ↦
        (counted 2 timestamp.2).map fun message ↦
          (⟨id.1, sender.1, timestamp.1, message.1⟩, message.2)

def decodeIncoming (payload : Bytes) : Option Incoming := whole incoming payload

variable {sender data : Bytes} {messageId : UInt32} {timestamp : ℤ}

theorem low_byte_32 (v : UInt32) : (v &&& 0xFF).toUInt8 = UInt8.ofNat v.toNat := by
  apply UInt8.toNat_inj.mp
  have hmask : (v &&& 0xFF).toNat = v.toNat % 2 ^ 8 := by
    rw [UInt32.toNat_and]
    exact Nat.and_two_pow_sub_one_eq_mod v.toNat 8
  rw [UInt32.toNat_toUInt8, hmask, UInt8.toNat_ofNat', Nat.mod_mod]

theorem low_byte_16 (v : UInt16) : (v &&& 0xFF).toUInt8 = UInt8.ofNat v.toNat := by
  apply UInt8.toNat_inj.mp
  have hmask : (v &&& 0xFF).toNat = v.toNat % 2 ^ 8 := by
    rw [UInt16.toNat_and]
    exact Nat.and_two_pow_sub_one_eq_mod v.toNat 8
  rw [UInt16.toNat_toUInt8, hmask, UInt8.toNat_ofNat', Nat.mod_mod]

theorem storeWord_written (offset : ℕ) (v : UInt32) :
    written (storeWord offset v) = BigEndian.bytes 4 v.toNat := by
  simp only [storeWord, low_byte_32, UInt32.toNat_shiftRight, written_cons, written_nil,
    Nat.shiftRight_eq_div_pow]
  simp [BigEndian.bytes]

theorem storeHalf_written (offset : ℕ) (v : UInt16) :
    written (storeHalf offset v) = BigEndian.bytes 2 v.toNat := by
  simp only [storeHalf, low_byte_16, UInt16.toNat_shiftRight, written_cons, written_nil,
    Nat.shiftRight_eq_div_pow]
  simp [BigEndian.bytes]

theorem timestampBits_lt (t : ℤ) : timestampBits t < 2 ^ 32 := by
  unfold timestampBits
  omega

theorem incomingStores_written (messageId : UInt32) (sender : Bytes) (timestamp : ℤ)
    (msgLen : UInt16) (data : Bytes) :
    written (incomingStores messageId sender timestamp msgLen data) =
      BigEndian.bytes 4 messageId.toNat ++ (UInt8.ofNat sender.length :: (sender ++
        (BigEndian.bytes 4 (timestampBits timestamp) ++
          (BigEndian.bytes 2 msgLen.toNat ++ data)))) := by
  have hts : (UInt32.ofNat (timestampBits timestamp)).toNat = timestampBits timestamp := by
    rw [UInt32.toNat_ofNat', Nat.mod_eq_of_lt (timestampBits_lt timestamp)]
  have happend : ∀ a b : List (ℕ × Bytes), written (a ++ b) = written a ++ written b :=
    fun a b ↦ List.flatMap_append
  simp only [incomingStores, happend, storeWord_written, storeHalf_written, written_cons,
    written_nil, hts]
  simp

theorem incomingStores_consecutive (messageId : UInt32) (sender : Bytes) (timestamp : ℤ)
    (msgLen : UInt16) (data : Bytes) :
    Consecutive 0 (incomingStores messageId sender timestamp msgLen data) := by
  simp [incomingStores, storeWord, storeHalf, Consecutive]

theorem incomingStores_length (msgLen : UInt16) :
    (written (incomingStores messageId sender timestamp msgLen data)).length =
      incomingSize sender.length data.length := by
  rw [incomingStores_written]
  simp only [List.length_append, List.length_cons, BigEndian.bytes_length, incomingSize]
  omega

theorem encode_incoming (msgLen : UInt16) :
    encode (incomingSize sender.length data.length)
        (incomingStores messageId sender timestamp msgLen data) =
      some (written (incomingStores messageId sender timestamp msgLen data)) := by
  have hlength := @incomingStores_length sender data messageId timestamp msgLen
  have hfill := fill_fresh
    (incomingStores_consecutive messageId sender timestamp msgLen data) hlength.symm
  rw [encode, hfill, Option.bind_some, ← hlength, read_whole]

theorem incoming_append {sender data : Bytes} {id ts : ℕ} (hid : id < 2 ^ 32)
    (hsender : sender.length < 256) (hts : ts < 2 ^ 32) (hdata : data.length < 2 ^ 16)
    (rest : Bytes) :
    incoming (BigEndian.bytes 4 id ++ (BigEndian.bytes 1 sender.length ++ (sender ++
      (BigEndian.bytes 4 ts ++ (BigEndian.bytes 2 data.length ++ (data ++ rest)))))) =
      some (⟨id, sender, ts, data⟩, rest) := by
  rw [incoming, number_append hid, Option.bind_some, counted_append hsender, Option.bind_some,
    number_append hts, Option.bind_some, counted_append hdata]
  rfl

theorem incoming_some {bs rest : Bytes} {f : Incoming} (h : incoming bs = some (f, rest)) :
    bs = BigEndian.bytes 4 f.messageId ++ (BigEndian.bytes 1 f.sender.length ++ (f.sender ++
      (BigEndian.bytes 4 f.timestamp ++
        (BigEndian.bytes 2 f.message.length ++ (f.message ++ rest))))) := by
  obtain ⟨id, hid, h⟩ := Option.bind_eq_some_iff.mp h
  obtain ⟨sender, hsender, h⟩ := Option.bind_eq_some_iff.mp h
  obtain ⟨timestamp, htimestamp, h⟩ := Option.bind_eq_some_iff.mp h
  obtain ⟨message, hmessage, h⟩ := Option.map_eq_some_iff.mp h
  cases h
  rw [number_some hid, counted_some hsender, number_some htimestamp, counted_some hmessage]

theorem decodeIncoming_some {payload : Bytes} {f : Incoming}
    (h : decodeIncoming payload = some f) :
    payload = BigEndian.bytes 4 f.messageId ++ (BigEndian.bytes 1 f.sender.length ++ (f.sender ++
      (BigEndian.bytes 4 f.timestamp ++ (BigEndian.bytes 2 f.message.length ++ f.message)))) := by
  obtain ⟨⟨f', rest⟩, hread, hall⟩ := Option.bind_eq_some_iff.mp h
  obtain ⟨hrest, hf⟩ := Option.ite_none_right_eq_some.mp hall
  dsimp only at hrest hf
  obtain rfl := Option.some.inj hf
  have hbytes := incoming_some hread
  rwa [hrest, List.append_nil] at hbytes

theorem directPayload_layout (sender : Username) (timestamp : ℤ) (data : Bytes) :
    directPayload messageId sender timestamp data =
      BigEndian.bytes 4 messageId.toNat ++ (BigEndian.bytes 1 sender.bytes.length ++
        (sender.bytes ++ (BigEndian.bytes 4 (timestampBits timestamp) ++
          (BigEndian.bytes 2 data.length ++ data)))) := by
  simp [directPayload, BigEndian.bytes]

/-- The encoder of `handle_send_message` fills its allocation with the payload. -/
theorem messagePayload_eq (sender : Username) (timestamp : ℤ) (hlength : data.length < 2 ^ 16) :
    messagePayload messageId sender timestamp (UInt16.ofNat data.length) data =
      some (directPayload messageId sender timestamp data) := by
  have hlen : (UInt16.ofNat data.length).toNat = data.length := by
    rw [UInt16.toNat_ofNat', Nat.mod_eq_of_lt hlength]
  rw [messagePayload, hlen, List.take_length, encode_incoming, incomingStores_written, hlen]
  rfl

theorem deliveredPayload_eq (m : StoredMessage) {data : Bytes} (hdata : m.encryptedData = some data)
    (hlen : m.encryptedLen = data.length) (hlength : data.length < 2 ^ 16) :
    deliveredPayload m = some (queuedPayload m) := by
  have hhalf : (UInt16.ofNat data.length).toNat = data.length := by
    rw [UInt16.toNat_ofNat', Nat.mod_eq_of_lt hlength]
  rw [deliveredPayload, hdata, hlen, Option.getD_some, List.take_length, encode_incoming,
    incomingStores_written, hhalf, queuedPayload, hdata, hlen, Option.getD_some, List.take_length]
  rfl

/-- One byte string for both ways a message takes: it is as long as announced,
and it and no other decodes to the fields. -/
structure OnePayload (messageId : UInt32) (sender : Username) (timestamp : ℤ) (data : Bytes)
    (m : StoredMessage) (payload : Bytes) : Prop where
  direct : messagePayload messageId sender timestamp (UInt16.ofNat data.length) data = some payload
  delivered : deliveredPayload m = some payload
  modelled : payload = directPayload messageId sender timestamp data ∧ payload = queuedPayload m
  announced : payload.length = incomingSize sender.bytes.length data.length
  decoded : decodeIncoming payload =
    some ⟨messageId.toNat, sender.bytes, timestampBits timestamp, data⟩
  unique : ∀ other, decodeIncoming other =
    some ⟨messageId.toNat, sender.bytes, timestampBits timestamp, data⟩ → other = payload

/-- The two encoders of a message agree, whatever its fields. -/
theorem encoders_agree (messageId : UInt32) (sender recipient : Username) (timestamp : ℤ)
    (data : Bytes) (delivered : Bool) (hlength : data.length < 2 ^ 16) :
    OnePayload messageId sender timestamp data
      ⟨messageId, sender, recipient, timestamp, data.length, some data, delivered⟩
      (directPayload messageId sender timestamp data) := by
  have hqueued : queuedPayload
      ⟨messageId, sender, recipient, timestamp, data.length, some data, delivered⟩ =
        directPayload messageId sender timestamp data := by
    simp [queuedPayload, directPayload]
  have hlayout := @directPayload_layout messageId sender timestamp data
  have hsender : sender.bytes.length < 256 := Nat.lt_trans sender.fits (by decide)
  refine ⟨messagePayload_eq sender timestamp hlength, ?_, ⟨rfl, hqueued.symm⟩, ?_, ?_, ?_⟩
  · rw [deliveredPayload_eq _ rfl rfl hlength, hqueued]
  · rw [hlayout]
    simp only [List.length_append, BigEndian.bytes_length, incomingSize]
    omega
  · refine whole_of_append ?_
    rw [hlayout]
    simpa only [List.append_assoc] using
      incoming_append messageId.toNat_lt hsender (timestampBits_lt timestamp) hlength []
  · intro other hother
    rw [decodeIncoming_some hother, hlayout]

theorem encoders_agree_hello : OnePayload 7 (Username.ofBytes (text "alice")) (-1) (text "hello")
    ⟨7, Username.ofBytes (text "alice"), Username.ofBytes (text "bob"), -1, 5,
      some (text "hello"), false⟩
    (directPayload 7 (Username.ofBytes (text "alice")) (-1) (text "hello")) :=
  encoders_agree 7 _ _ (-1) (text "hello") false (by decide)

end CChat.Server.Encoders
