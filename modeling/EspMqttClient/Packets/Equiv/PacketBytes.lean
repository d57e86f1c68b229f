/-
  The bytes of the packets that are built.

  As long as the remaining length can be encoded, a constructor that succeeds fills its buffer exactly:
  `publish_spec` and `ack_spec` give the contents.
-/
import EspMqttClient.Packets.Packet
import EspMqttClient.Packets.Equiv.Codec

namespace EspMqttClient

namespace Packet

variable {cfg : Config}

/-! ### Pieces -/

/-- The string of a PUBLISH: its length and its bytes. -/
def stringBytes (s : CString) : List Byte := bigEndian (UInt16.ofNat s.length) ++ s.bytes

theorem encodeString_of_le {s : CString} (h : s.length ≤ 65535) : encodeString s = stringBytes s := by
  rw [encodeString, if_neg (by omega), stringBytes]

@[simp] theorem length_stringBytes (s : CString) : (stringBytes s).length = 2 + s.length := by
  simp [stringBytes, CString.length]

theorem allocate_eq {alloc : Alloc} {remainingLength : ℕ} {check : Bool} {b : Buffer Byte}
    (h : allocate cfg alloc remainingLength check = some b) :
    b = .fill (cfg.wrap (1 + remainingLengthLength (remainingLength % 2 ^ 32) + remainingLength)) 0 := by
  rw [allocate] at h
  split_ifs at h
  exact (Option.some.inj h).symm

/-- A buffer for a remaining length that can be encoded. -/
theorem allocate_eq_fill {alloc : Alloc} {remainingLength : ℕ} {check : Bool} {b : Buffer Byte}
    (h : allocate cfg alloc remainingLength check = some b) (hmax : remainingLength ≤ 268435455) :
    b = .fill (1 + (encodeRemainingLength remainingLength).length + remainingLength) 0 := by
  have hsize := cfg.le_sizeMod
  have hlen := (length_lengthField (lengthField_encode hmax)).2
  rw [length_encode hmax] at hlen ⊢
  rw [allocate_eq h, Nat.mod_eq_of_lt (by omega), cfg.wrap_of_lt (by omega)]

theorem allocate_spec {alloc : Alloc} {remainingLength : ℕ} {check : Bool} {b : Buffer Byte}
    (h : allocate cfg alloc remainingLength check = some b) (hmax : remainingLength ≤ 268435455) :
    b.Holds (1 + (encodeRemainingLength remainingLength).length + remainingLength) [] := by
  rw [allocate_eq_fill h hmax]
  exact Buffer.holds_fill _ _

theorem putRemainingLength_eq (b : Buffer Byte) {remainingLength : ℕ} (h : remainingLength ≤ 268435455) :
    putRemainingLength b remainingLength = b.put (encodeRemainingLength remainingLength) := by
  rw [putRemainingLength, Nat.mod_eq_of_lt (by omega)]

/-! ### PUBLISH -/

/-- The first byte of a PUBLISH. -/
def publishByte (qos : Byte) (retain : Bool) : Byte :=
  PacketType.PUBLISH ||| (if retain then HeaderFlag.PUBLISH_RETAIN else 0) |||
    (if qos = 0 then HeaderFlag.PUBLISH_QOS0 else if qos = 1 then HeaderFlag.PUBLISH_QOS1
      else HeaderFlag.PUBLISH_QOS2)

/-- What stands between the topic and the payload. -/
def idBytes (packetId : UInt16) (qos : Byte) : List Byte := if qos = 0 then [] else bigEndian packetId

/-- The remaining length of a PUBLISH. -/
def publishRemainingLength (topic : CString) (payloadLength : ℕ) (qos : Byte) : ℕ :=
  2 + topic.length + (if qos = 0 then 0 else 2) + payloadLength

/-- The header of a PUBLISH. -/
def publishHeaderBytes (packetId : UInt16) (topic : CString) (payloadLength : ℕ) (qos : Byte)
    (retain : Bool) : List Byte :=
  publishByte qos retain :: (encodeRemainingLength (publishRemainingLength topic payloadLength qos) ++
    (stringBytes topic ++ idBytes packetId qos))

theorem length_idBytes (packetId : UInt16) (qos : Byte) :
    (idBytes packetId qos).length = if qos = 0 then 0 else 2 := by
  rw [idBytes]
  split_ifs <;> rfl

theorem publishLength_eq {packetId : UInt16} {topic : CString} {payloadLength : ℕ} {qos : Byte}
    (hmax : publishRemainingLength topic payloadLength qos ≤ 268435455) :
    publishLength cfg packetId topic payloadLength qos
      = (publishRemainingLength topic payloadLength qos, if qos = 0 then 0 else packetId) := by
  have hsize := cfg.le_sizeMod
  rw [publishRemainingLength] at hmax ⊢
  rw [publishLength]
  split_ifs at hmax ⊢ with hqos
  · rw [cfg.wrap_of_lt (by omega)]; rfl
  · rw [cfg.wrap_of_lt (by omega)]

theorem qos_cases {qos : Byte} (hqos : qos ≤ 2) : qos = 0 ∨ qos = 1 ∨ qos = 2 := by
  simp only [UInt8.le_iff_toNat_le, ← UInt8.toNat_inj] at hqos ⊢
  have h0 : UInt8.toNat 0 = 0 := rfl
  have h1 : UInt8.toNat 1 = 1 := rfl
  have h2 : UInt8.toNat 2 = 2 := rfl
  omega

theorem publishByte_type {qos : Byte} (hqos : qos ≤ 2) (retain : Bool) :
    publishByte qos retain &&& 0xF0 = PacketType.PUBLISH := by
  rcases qos_cases hqos with rfl | rfl | rfl <;> cases retain <;> decide

/-- The first byte, whatever the branch that writes it. -/
theorem put_publishByte (b : Buffer Byte) {qos : Byte} (hqos : qos ≤ 2) (retain : Bool) :
    (let header := PacketType.PUBLISH ||| (if retain then HeaderFlag.PUBLISH_RETAIN else 0)
     if qos = 0 then b.put [header ||| HeaderFlag.PUBLISH_QOS0]
     else if qos = 1 then b.put [header ||| HeaderFlag.PUBLISH_QOS1]
     else if qos = 2 then b.put [header ||| HeaderFlag.PUBLISH_QOS2]
     else (b.put [header]).rewind) = b.put [publishByte qos retain] := by
  rcases qos_cases hqos with rfl | rfl | rfl <;> rfl

theorem length_publishHeaderBytes (packetId : UInt16) (topic : CString) (payloadLength : ℕ) (qos : Byte)
    (retain : Bool) :
    (publishHeaderBytes packetId topic payloadLength qos retain).length + payloadLength =
      1 + (encodeRemainingLength (publishRemainingLength topic payloadLength qos)).length +
        publishRemainingLength topic payloadLength qos := by
  simp only [publishHeaderBytes, List.length_cons, List.length_append, length_stringBytes,
    length_idBytes, publishRemainingLength]
  omega

/-- `_fillPublishHeader` writes the header. -/
theorem fillPublishHeader_spec (packetId : UInt16) (retain : Bool) {b : Buffer Byte} {topic : CString}
    {payloadLength n : ℕ} {qos : Byte} (hb : b.Holds n []) (hqos : qos ≤ 2)
    (htopic : topic.length ≤ 65535) (hmax : publishRemainingLength topic payloadLength qos ≤ 268435455)
    (hn : (publishHeaderBytes packetId topic payloadLength qos retain).length ≤ n) :
    (fillPublishHeader b packetId topic (publishRemainingLength topic payloadLength qos) qos retain).Holds n
      (publishHeaderBytes packetId topic payloadLength qos retain) := by
  simp only [publishHeaderBytes, List.length_cons, List.length_append, length_stringBytes,
    length_idBytes] at hn
  have h1 := hb.put [publishByte qos retain] (by simp; omega)
  have h2 := h1.put (encodeRemainingLength (publishRemainingLength topic payloadLength qos))
    (by simp; omega)
  have h3 := h2.put (stringBytes topic) (by simp; omega)
  rw [fillPublishHeader, put_publishByte b hqos, putRemainingLength_eq _ hmax, encodeString_of_le htopic]
  rcases eq_or_ne qos 0 with rfl | hne
  · simpa [publishHeaderBytes, idBytes] using h3
  · have hpos : 0 < qos := by
      rwa [UInt8.pos_iff_ne_zero]
    have h4 := h3.put (bigEndian packetId) (by simp [hne] at hn ⊢; omega)
    rw [if_pos hpos]
    simpa [publishHeaderBytes, idBytes, hne] using h4

/-- **A PUBLISH**: its header and its payload fill the buffer. -/
theorem publish_spec {alloc : Alloc} {packetId : UInt16} {topic : CString} {payload : List Byte}
    {qos : Byte} {retain : Bool} {packet : Packet} (hqos : qos ≤ 2) (htopic : topic.length ≤ 65535)
    (hmax : publishRemainingLength topic payload.length qos ≤ 268435455)
    (h : publish cfg alloc packetId topic payload qos retain = (.SUCCESS, packet)) :
    packet = { init (if qos = 0 then 0 else packetId) none with
      data := publishHeaderBytes packetId topic payload.length qos retain ++ payload
      size := (publishHeaderBytes packetId topic payload.length qos retain ++ payload).length } := by
  rw [publish, publishLength_eq hmax] at h
  dsimp only at h
  have hlen := length_publishHeaderBytes packetId topic payload.length qos retain
  cases halloc : allocate cfg alloc (publishRemainingLength topic payload.length qos) true with
  | none => simp [halloc] at h
  | some b =>
    have hb := allocate_spec halloc hmax
    have hheader := fillPublishHeader_spec packetId retain hb hqos htopic hmax (by omega)
    have hfull := hheader.put payload (by omega)
    have hdata := hfull.data_eq (by simp; omega)
    simp only [halloc, ofBuffer, hdata, Prod.mk.injEq, true_and] at h
    exact h.symm

/-! ### Acknowledgements -/

/-- The first byte of PUBACK, PUBREC, PUBREL and PUBCOMP. -/
def ackByte (type : MQTTPacketType) : Byte :=
  if type = PacketType.PUBREL then type ||| HeaderFlag.PUBREL_RESERVED else type

/-- **An acknowledgement**. -/
theorem ack_spec {alloc : Alloc} {type : MQTTPacketType} {packetId : UInt16} {packet : Packet}
    (h : ack cfg alloc type packetId = (.SUCCESS, packet)) :
    packet = { init packetId none with
      data := ackByte type :: 2 :: bigEndian packetId
      size := 4 } := by
  have henc : encodeRemainingLength 2 = [2] := rfl
  rw [ack] at h
  cases halloc : allocate cfg alloc 2 true with
  | none => simp [halloc] at h
  | some b =>
    have hb := allocate_spec halloc (by decide)
    rw [henc] at hb
    have h1 := hb.put [ackByte type] (by simp)
    have h2 := h1.put [2] (by simp)
    have h3 := h2.put (bigEndian packetId) (by simp)
    have hdata := h3.data_eq (by simp)
    have hput (b : Buffer Byte) : putRemainingLength b 2 = b.put [2] := by
      rw [putRemainingLength_eq b (by omega), henc]
    simp only [halloc, ofBuffer, hput, Prod.mk.injEq, true_and] at h
    rw [← h, ← ackByte, hdata]
    rfl

end Packet

end EspMqttClient
