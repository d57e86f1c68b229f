/-
  A PUBLISH from the server.

  The parser takes at most `maxTopicLength` bytes of the topic and what comes next for the packet id
  (`Publish.header`), and it expects a payload of the right length behind that (`Publish.total_header`).
  So it takes the header for what it is only when the topic is not too long (`Publish.behind_of_le`).
-/
import EspMqttClient.Packets.Equiv.RoundTrip

namespace EspMqttClient

open EspMqttClient.Parser

/-- A PUBLISH as a server sends it. -/
structure Publish where
  qos : Byte
  retain : Bool
  dup : Bool
  /-- The remaining length. -/
  length : List Byte
  topic : List Byte
  packetId : UInt16
  payload : List Byte
  qos_le : qos ≤ 2
  packetId_ne : qos ≠ 0 → packetId ≠ 0
  topic_le : topic.length ≤ 65535
  isLengthField : IsLengthField length
  decode_length : (decodeRemainingLength length).toNat =
    2 + topic.length + (Packet.idBytes packetId qos).length + payload.length

namespace Publish

variable {cfg : Config} (m : Publish)

/-- The bytes behind the topic length. -/
def body : List Byte := m.topic ++ (Packet.idBytes m.packetId m.qos ++ m.payload)

def bytes : List Byte :=
  sentByte m.qos m.retain m.dup :: (m.length ++ (bigEndian (UInt16.ofNat m.topic.length) ++ m.body))

variable (cfg) in
/-- What comes behind the bytes that the parser takes for the topic. -/
def behindTopic : List Byte := m.body.drop (min m.topic.length cfg.maxTopicLength)

variable (cfg) in
/-- What comes behind the bytes that the parser takes for the header. -/
def behind : List Byte := (m.behindTopic cfg).drop (Packet.idBytes m.packetId m.qos).length

theorem toNat_ofNat_length : (UInt16.ofNat m.topic.length).toNat = m.topic.length := by
  have hle := m.topic_le
  exact UInt16.toNat_ofNat_of_lt (by show m.topic.length < 65536; omega)

/-- The parser's arithmetic does not wrap. -/
theorem sub_sub_length (cfg : Config) :
    cfg.sub (cfg.sub (decodeRemainingLength m.length).toNat 2) m.topic.length =
      (Packet.idBytes m.packetId m.qos).length + m.payload.length := by
  have hsize := cfg.le_sizeMod
  have hlt := (decode_lt m.isLengthField).2
  have hlength := m.decode_length
  have hinner : cfg.sub (decodeRemainingLength m.length).toNat 2 = (decodeRemainingLength m.length).toNat - 2 :=
    cfg.sub_of_le (by omega) (by omega)
  rw [hinner, cfg.sub_of_le (by omega) (by omega)]
  omega

theorem behindTopic_eq (cfg : Config) : m.behindTopic cfg =
    m.topic.drop cfg.maxTopicLength ++ (Packet.idBytes m.packetId m.qos ++ m.payload) := by
  rw [behindTopic, body, List.drop_append]
  have hsub : min m.topic.length cfg.maxTopicLength - m.topic.length = 0 := by omega
  rw [hsub, List.drop_zero]
  rcases Nat.le_total m.topic.length cfg.maxTopicLength with hle | hle
  · rw [Nat.min_eq_left hle, List.drop_length, List.drop_of_length_le hle]
  · rw [Nat.min_eq_right hle]

theorem length_behindTopic (cfg : Config) : (m.behindTopic cfg).length =
    m.topic.length - cfg.maxTopicLength + (Packet.idBytes m.packetId m.qos).length + m.payload.length := by
  rw [behindTopic_eq, List.length_append, List.length_append, List.length_drop, Nat.add_assoc]

/-- The bytes that the parser takes for the packet id begin with one of the topic or they are the packet id. -/
theorem exists_packetId (hnul : 0 ∉ m.topic.drop cfg.maxTopicLength) (hqos : m.qos ≠ 0) :
    ∃ a b, (m.behindTopic cfg).take (Packet.idBytes m.packetId m.qos).length = [a, b] ∧ joinBytes a b ≠ 0 := by
  have hne : ∀ {a b : Byte}, a ≠ 0 → joinBytes a b ≠ 0 := by
    intro a b ha hzero
    apply ha
    have hhi := (UInt16.or_eq_zero_iff.mp hzero).1
    have htoNat := congrArg UInt16.toNat hhi
    have hlt := a.toNat_lt
    simp only [UInt16.toNat_shiftLeft, UInt8.toNat_toUInt16, Nat.shiftLeft_eq] at htoNat
    apply UInt8.toNat_inj.mp
    change a.toNat * 2 ^ 8 % 2 ^ 16 = 0 at htoNat
    show a.toNat = 0
    omega
  rw [behindTopic_eq, Packet.idBytes, if_neg hqos, bigEndian]
  cases hdrop : m.topic.drop cfg.maxTopicLength with
  | nil => exact ⟨_, _, rfl, by rw [joinBytes_bigEndian]; exact m.packetId_ne hqos⟩
  | cons a rest =>
    rw [hdrop, List.mem_cons, not_or] at hnul
    have ha : a ≠ 0 := fun h => hnul.1 h.symm
    cases rest with
    | nil => exact ⟨_, _, rfl, hne ha⟩
    | cons b rest => exact ⟨_, _, rfl, hne ha⟩

/-- The topic fits into what is left of the packet. -/
theorem topicLength_le_topicRoom (htopic : 1 ≤ m.topic.length) :
    (joinBytes (UInt16.ofNat m.topic.length >>> 8).toUInt8 (UInt16.ofNat m.topic.length).toUInt8).toNat ≤
      topicRoom cfg (sentByte m.qos m.retain m.dup) (decodeRemainingLength m.length).toNat := by
  have hsize := cfg.le_sizeMod
  have hlt := (decode_lt m.isLengthField).2
  have hlength := m.decode_length
  rw [joinBytes_bigEndian, toNat_ofNat_length, topicRoom, (sentByte_spec m.qos_le m.retain m.dup).2.1]
  have hinner : cfg.sub (decodeRemainingLength m.length).toNat 2 = (decodeRemainingLength m.length).toNat - 2 :=
    cfg.sub_of_le (by omega) (by omega)
  rw [Packet.length_idBytes] at hlength
  rw [hinner]
  by_cases hzero : m.qos = 0
  · rw [if_pos hzero] at hlength
    rw [if_neg (by simp [hzero]), cfg.sub_of_le (by omega) (by omega)]
    omega
  · rw [if_neg hzero] at hlength
    rw [if_pos (by simp [hzero]), cfg.sub_of_le (by omega) (by omega)]
    omega

/-- How much of the topic is stored. -/
theorem length_take_topic (htopic : 1 ≤ m.topic.length) :
    (m.topic.take cfg.maxTopicLength).length = topicRead cfg
      (joinBytes (UInt16.ofNat m.topic.length >>> 8).toUInt8 (UInt16.ofNat m.topic.length).toUInt8).toNat := by
  rw [joinBytes_bigEndian, toNat_ofNat_length, topicRead, List.length_take]
  split_ifs with hle
  · exact Nat.min_eq_right hle.2
  · exact Nat.min_eq_left (by omega)

/-- There is something to be taken for the packet id when the parser looks for one. -/
theorem take_behindTopic (hnul : 0 ∉ m.topic.drop cfg.maxTopicLength) :
    if hasPacketId (sentByte m.qos m.retain m.dup) then
      ∃ a b, (m.behindTopic cfg).take (Packet.idBytes m.packetId m.qos).length = [a, b] ∧ joinBytes a b ≠ 0
    else (m.behindTopic cfg).take (Packet.idBytes m.packetId m.qos).length = [] := by
  rw [(sentByte_spec m.qos_le m.retain m.dup).2.1]
  by_cases hzero : m.qos = 0
  · rw [if_neg (by simp [hzero]), Packet.idBytes, if_pos hzero]
    rfl
  · rw [if_pos (by simp [hzero])]
    exact m.exists_packetId hnul hzero

/-- What the parser takes for the header. -/
def header (htopic : 1 ≤ m.topic.length) (hnul : 0 ∉ m.topic.drop cfg.maxTopicLength) : PublishHeader cfg where
  type := sentByte m.qos m.retain m.dup
  length := m.length
  hi := (UInt16.ofNat m.topic.length >>> 8).toUInt8
  lo := (UInt16.ofNat m.topic.length).toUInt8
  topic := m.topic.take cfg.maxTopicLength
  packetId := (m.behindTopic cfg).take (Packet.idBytes m.packetId m.qos).length
  startsPublish := (sentByte_spec m.qos_le m.retain m.dup).1
  isLengthField := m.isLengthField
  accepted := m.topicLength_le_topicRoom htopic
  topic_length := m.length_take_topic htopic
  packetId_eq := m.take_behindTopic hnul

section Header

variable (htopic : 1 ≤ m.topic.length) (hnul : 0 ∉ m.topic.drop cfg.maxTopicLength)

/-- What is left for the payload has the length of the payload. -/
theorem total_header : (m.header htopic hnul).total = m.payload.length := by
  have hsize := cfg.le_sizeMod
  have hlt := (decode_lt m.isLengthField).2
  have hlength := m.decode_length
  simp only [PublishHeader.total, PublishHeader.remainingLength, header, joinBytes_bigEndian, toNat_ofNat_length,
    sub_sub_length, (sentByte_spec m.qos_le m.retain m.dup).2.1]
  rw [Packet.length_idBytes] at hlength ⊢
  by_cases hzero : m.qos = 0
  · rw [if_neg (by simp [hzero]), if_pos hzero, Nat.zero_add]
  · rw [if_neg hzero] at hlength
    rw [if_pos (by simp [hzero]), if_neg hzero, cfg.sub_of_le (by omega) (by omega)]
    omega

theorem bytes_eq : m.bytes = (m.header htopic hnul).bytes ++ m.behind cfg := by
  have hbody : m.body = m.topic.take cfg.maxTopicLength ++ m.behindTopic cfg := by
    rw [behindTopic_eq, body, ← List.append_assoc (List.take _ _), List.take_append_drop]
  rw [bytes, hbody]
  simp [PublishHeader.bytes, header, behind, bigEndian]

end Header

theorem length_behind (cfg : Config) :
    (m.behind cfg).length = m.topic.length - cfg.maxTopicLength + m.payload.length := by
  rw [behind, List.length_drop, length_behindTopic]
  omega

/-- Behind the header is the payload when the topic is not too long. -/
theorem behind_of_le (hle : m.topic.length ≤ cfg.maxTopicLength) : m.behind cfg = m.payload := by
  rw [behind, behindTopic_eq, List.drop_of_length_le hle, List.nil_append, List.drop_left]

/-- Without a topic that is too long there is nothing behind it. -/
theorem nul_notMem_drop (hle : m.topic.length ≤ cfg.maxTopicLength) : 0 ∉ m.topic.drop cfg.maxTopicLength := by
  rw [List.drop_of_length_le hle]
  exact List.not_mem_nil

/-- What is reported of a PUBLISH whose topic is not too long. -/
theorem report_header (htopic : 1 ≤ m.topic.length) (hle : m.topic.length ≤ cfg.maxTopicLength)
    (payload : List Byte) :
    let r := (m.header htopic (m.nul_notMem_drop hle)).report payload
    r.packetType = sentByte m.qos m.retain m.dup ∧ r.topic = m.topic.takeWhile (· ≠ 0) ∧
      r.total = m.payload.length ∧ (m.qos ≠ 0 → r.packetId = m.packetId) := by
  refine ⟨rfl, ?_, m.total_header htopic _, ?_⟩
  · simp only [PublishHeader.report, header, List.take_of_length_le hle]
  · intro hqos
    have hid : (m.behindTopic cfg).take (Packet.idBytes m.packetId m.qos).length = bigEndian m.packetId := by
      rw [behindTopic_eq, List.drop_of_length_le hle, List.nil_append, List.take_left, Packet.idBytes,
        if_neg hqos]
    simp only [PublishHeader.report, header, hid, bigEndian, joinBytes_bigEndian]

end Publish

end EspMqttClient
