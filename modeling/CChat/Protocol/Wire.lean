import CChat.Library.Framing
import CChat.Protocol.Types

namespace CChat.Protocol.Wire

open CChat.Library CChat.Protocol.Types

def frameHeader (type : UInt8) (payloadLen : ℕ) : Bytes := BigEndian.bytes 4 payloadLen ++ [type]

theorem frameHeader_shifts (type : UInt8) (n : ℕ) :
    frameHeader type n =
      [UInt8.ofNat (n >>> 24), UInt8.ofNat (n >>> 16), UInt8.ofNat (n >>> 8), UInt8.ofNat n, type] := by
  simp [frameHeader, BigEndian.bytes, Nat.shiftRight_eq_div_pow]

def readHeader (header : Bytes) : UInt8 × ℕ :=
  (header.getD 4 0, BigEndian.value (header.take 4))

def codec : Framing.HeaderCodec UInt8 UInt8 where
  width := 5
  limit := 2 ^ 32
  write := frameHeader
  read := readHeader
  width_pos := by decide
  write_length k n := by simp [frameHeader]
  read_write k n hn := by
    have hl : (BigEndian.bytes 4 n).length = 4 := BigEndian.bytes_length 4 n
    have ht : (frameHeader k n).take 4 = BigEndian.bytes 4 n := by
      rw [frameHeader, List.take_append_of_le_length (by omega), List.take_of_length_le (by omega)]
    have hg : (frameHeader k n).getD 4 0 = k := by
      simp [frameHeader, List.getD_eq_getElem?_getD]
    rw [readHeader, ht, hg, BigEndian.value_bytes_of_lt (by norm_num; omega)]

abbrev Frame := UInt8 × Bytes

def packet (type : UInt8) (payload : Bytes) : Bytes := frameHeader type payload.length ++ payload

def nameField (name : Bytes) : Bytes := UInt8.ofNat name.length :: name

def registerPacket (name key : Bytes) : Bytes := packet 0x01 (nameField name ++ key)

def loginPacket (name signature : Bytes) : Bytes := packet 0x02 (nameField name ++ signature)

def sendPacket (recipient data : Bytes) : Bytes :=
  packet 0x04 (nameField recipient ++ (BigEndian.bytes 2 data.length ++ data))

/-- The `send()` calls of one frame: the header, then the payload if there is one. -/
def sendCalls (f : Frame) : List Bytes :=
  frameHeader f.1 f.2.length :: if f.2 = [] then [] else [f.2]

theorem sendCalls_flatten (f : Frame) : (sendCalls f).flatten = Framing.encode codec f := by
  by_cases h : f.2 = []
  · simp [sendCalls, Framing.encode, codec, h]
  · simp [sendCalls, Framing.encode, codec, h]

/-- A stream starts with the bytes of the frame it decodes to. -/
theorem encode_decodeOne {stream rest : Bytes} {f : Frame}
    (h : Framing.decodeOne codec stream = some (f, rest)) :
    stream = Framing.encode codec f ++ rest := by
  obtain ⟨hsize, hrest⟩ := Framing.decodeOne_announced codec h
  obtain ⟨hwide, _, hf, _⟩ := (Framing.decodeOne_some codec).mp h
  have hheader : codec.write f.1 f.2.length = stream.take 5 := by
    have hfive : (stream.take 5).length = 5 := by
      rw [List.length_take]
      exact Nat.min_eq_left hwide
    have hfour : ((stream.take 5).take 4).length = 4 := by
      rw [List.length_take, hfive]
      rfl
    have hvalue := BigEndian.bytes_value ((stream.take 5).take 4)
    rw [hfour] at hvalue
    have htype : f.1 = (stream.take 5).getD 4 0 := congrArg Prod.fst hf
    rw [hsize, htype]
    show BigEndian.bytes 4 (BigEndian.value ((stream.take 5).take 4)) ++ _ = _
    rw [hvalue]
    conv_rhs => rw [← List.take_append_drop 4 (stream.take 5)]
    congr 1
    generalize stream.take 5 = header at hfive
    match header, hfive with
    | [a, b, c, d, e], _ => rfl
  have hbody : f.2 = (stream.drop 5).take f.2.length := by
    conv_lhs => rw [hf]
    rw [hsize]
    rfl
  conv_lhs => rw [← List.take_append_drop 5 stream, ← List.take_append_drop f.2.length (stream.drop 5)]
  rw [Framing.encode, hheader, hrest, List.append_assoc, List.drop_drop, ← hbody]
  rfl

end CChat.Protocol.Wire
