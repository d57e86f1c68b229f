/-
  What the client encodes, the parser decodes.

  A PUBLISH and the acknowledgements are fed to a parser in whatever buffers.  By `feed_alike` it is
  enough to walk over the whole packet, which gives one result; `tile_of_merge` goes back from there to
  the slices that the buffers really lead to.
-/
import EspMqttClient.Packets.Equiv.PacketBytes
import EspMqttClient.Packets.Equiv.ParserRuns

namespace EspMqttClient

namespace Parser

variable {cfg : Config}

/-! ### Slices that tile a payload -/

/-- The results are slices that follow each other from `index` on and hold `payload` together. -/
def Tile : ℕ → List Result → List Byte → Prop
  | _, [], payload => payload = []
  | index, r :: rs, payload => r.report.index = index ∧
      ∃ rest, payload = r.report.payload ++ rest ∧ Tile (index + r.report.payload.length) rs rest

theorem merge_eq_nil : ∀ {rs : List Result}, merge rs = [] → rs = []
  | [], _ => rfl
  | r :: rs, h => by
    rw [merge, slices.coalesce_cons] at h
    cases hrs : slices.coalesce rs with
    | nil => simp [hrs, Adjoining.glue] at h
    | cons s ss =>
      rw [hrs, Adjoining.glue] at h
      split_ifs at h

/-- What merges to one result is slices of it. -/
theorem tile_of_merge : ∀ {rs : List Result} {r : Result}, merge rs = [r] →
    Tile r.report.index rs r.report.payload ∧
      ∀ s ∈ rs, s.report = { r.report with index := s.report.index, payload := s.report.payload }
  | [], _, h => by simp [merge] at h
  | s :: rs, r, h => by
    rw [merge, slices.coalesce_cons] at h
    cases hrs : slices.coalesce rs with
    | nil =>
      obtain rfl := merge_eq_nil hrs
      obtain rfl : s = r := by simpa [hrs, Adjoining.glue] using h
      exact ⟨⟨rfl, [], by simp, rfl⟩, by simp⟩
    | cons t ts =>
      rw [hrs, Adjoining.glue] at h
      split_ifs at h with hnext
      · obtain ⟨rfl, rfl⟩ := List.cons_eq_cons.mp h
        obtain ⟨htile, hall⟩ := tile_of_merge (r := t) hrs
        obtain ⟨-, ht, -, hindex⟩ := Result.continuedBy_iff.mp hnext
        refine ⟨⟨rfl, t.report.payload, rfl, ?_⟩, ?_⟩
        · show Tile (s.report.index + s.report.payload.length) rs t.report.payload
          rwa [← hindex]
        · intro u hu
          rcases List.mem_cons.mp hu with rfl | hu
          · rfl
          · rw [hall u hu, ht]
            rfl
      · simp at h

/-- A result without a payload is not cut. -/
theorem eq_of_merge {rs : List Result} {r : Result} (h : merge rs = [r]) (hindex : r.report.index = 0)
    (hpayload : r.report.payload = []) : rs = [r] := by
  rcases rs with _ | ⟨s, rs⟩
  · simp [merge] at h
  · rw [merge, slices.coalesce_cons] at h
    cases hrs : slices.coalesce rs with
    | nil =>
      obtain rfl := merge_eq_nil hrs
      simpa [hrs, Adjoining.glue] using h
    | cons t ts =>
      rw [hrs, Adjoining.glue] at h
      split_ifs at h with hnext
      · obtain ⟨rfl, -⟩ := List.cons_eq_cons.mp h
        obtain ⟨-, -, hpos, ht⟩ := Result.continuedBy_iff.mp hnext
        have hs : s.report.index = 0 := hindex
        have hnil : s.report.payload = [] := (List.append_eq_nil_iff.mp hpayload).1
        rw [hs, hnil] at ht
        simp only [List.length_nil] at ht
        omega
      · simp at h

/-! ### PUBLISH -/

/-- The first byte of a PUBLISH that was marked as a duplicate or not. -/
def sentByte (qos : Byte) (retain dup : Bool) : Byte :=
  Packet.publishByte qos retain ||| (if dup ∧ qos ≠ 0 then HeaderFlag.PUBLISH_DUP else 0)

/-- The parser accepts the byte and reads the flags back. -/
theorem sentByte_spec {qos : Byte} (hqos : qos ≤ 2) (retain dup : Bool) :
    startsPublish (sentByte qos retain dup) ∧ hasPacketId (sentByte qos retain dup) = decide (qos ≠ 0) ∧
      publishQos (sentByte qos retain dup) = qos ∧ publishRetain (sentByte qos retain dup) = retain ∧
      publishDup (sentByte qos retain dup) = (dup && decide (qos ≠ 0)) := by
  rcases Packet.qos_cases hqos with rfl | rfl | rfl <;> revert retain dup <;> decide

/-- A buffered PUBLISH, marked as a duplicate or not. -/
theorem sent_data {alloc : Alloc} {packetId : UInt16} {topic : CString} {payload : List Byte} {qos : Byte}
    {retain : Bool} {packet : Packet} (hqos : qos ≤ 2) (hid : qos ≠ 0 → packetId ≠ 0)
    (htopic : topic.length ≤ 65535)
    (hmax : Packet.publishRemainingLength topic payload.length qos ≤ 268435455)
    (h : Packet.publish cfg alloc packetId topic payload qos retain = (.SUCCESS, packet)) (dup : Bool) :
    (if dup then packet.setDup else packet).data =
      sentByte qos retain dup :: (encodeRemainingLength
        (Packet.publishRemainingLength topic payload.length qos) ++
          (Packet.stringBytes topic ++ Packet.idBytes packetId qos)) ++ payload := by
  have hpacket := Packet.publish_spec hqos htopic hmax h
  have htype := Packet.publishByte_type hqos retain
  cases dup with
  | false => simp [hpacket, Packet.publishHeaderBytes, sentByte]
  | true =>
    rw [if_pos rfl, hpacket]
    simp only [Packet.setDup, Packet.packetType, Packet.publishHeaderBytes, List.cons_append, htype,
      Packet.init, ne_eq, not_true_eq_false, if_false, reduceCtorEq, ite_eq_left_iff]
    by_cases hzero : qos = 0
    · simp [hzero, sentByte]
    · simp [hzero, hid hzero, sentByte]

theorem joinBytes_bigEndian (n : UInt16) : joinBytes (n >>> 8).toUInt8 n.toUInt8 = n := bigEndian_or n

/-- The length of a topic goes into 16 bits. -/
theorem toNat_topicLength {cfg : TopicConfig} {topic : CString} (h : topic.length ≤ cfg.maxTopicLength) :
    (UInt16.ofNat topic.length).toNat = topic.length := by
  have hle := cfg.maxTopicLength_le
  exact UInt16.toNat_ofNat_of_lt (by show topic.length < 65536; omega)

/-- What the parser subtracts from the remaining length of a PUBLISH. -/
theorem sub_publishRemainingLength {topic : CString} {payloadLength : ℕ} {qos : Byte}
    (hmax : Packet.publishRemainingLength topic payloadLength qos ≤ 268435455) :
    cfg.sub (Packet.publishRemainingLength topic payloadLength qos) 2
      = topic.length + (if qos = 0 then 0 else 2) + payloadLength := by
  have hsize := cfg.le_sizeMod
  rw [Packet.publishRemainingLength] at hmax ⊢
  rw [cfg.sub_of_le (by omega) (by omega)]
  omega

/-- The topic fits into what is left of the packet. -/
theorem topicLength_le_topicRoom {cfg : TopicConfig} {qos : Byte} (hqos : qos ≤ 2) (retain dup : Bool)
    {topic : CString} (htopic₁ : 1 ≤ topic.length) (htopic₂ : topic.length ≤ cfg.maxTopicLength)
    {payloadLength : ℕ} (hmax : Packet.publishRemainingLength topic payloadLength qos ≤ 268435455) :
    (joinBytes (UInt16.ofNat topic.length >>> 8).toUInt8 (UInt16.ofNat topic.length).toUInt8).toNat ≤
      topicRoom cfg.toConfig (sentByte qos retain dup) (decodeRemainingLength
        (encodeRemainingLength (Packet.publishRemainingLength topic payloadLength qos))).toNat := by
  have hsize := cfg.le_sizeMod
  rw [joinBytes_bigEndian, toNat_topicLength htopic₂, decode_encode hmax, Int.toNat_natCast, topicRoom,
    (sentByte_spec hqos retain dup).2.1, sub_publishRemainingLength hmax]
  rw [Packet.publishRemainingLength] at hmax
  by_cases hzero : qos = 0
  all_goals
    simp only [hzero, if_true, if_false, ne_eq, not_true_eq_false, not_false_eq_true, decide_true,
      decide_false, Bool.false_eq_true] at hmax ⊢
    rw [cfg.sub_of_le (by omega) (by omega)]
    omega

/-- All of the topic is stored. -/
theorem length_eq_topicRead {cfg : TopicConfig} {topic : CString} (htopic₁ : 1 ≤ topic.length)
    (htopic₂ : topic.length ≤ cfg.maxTopicLength) : topic.bytes.length = topicRead cfg.toConfig
      (joinBytes (UInt16.ofNat topic.length >>> 8).toUInt8 (UInt16.ofNat topic.length).toUInt8).toNat := by
  rw [joinBytes_bigEndian, toNat_topicLength htopic₂, topicRead, if_pos ⟨htopic₁, htopic₂⟩]
  rfl

/-- The packet id is there when the parser looks for one. -/
theorem idBytes_sentByte {qos : Byte} (hqos : qos ≤ 2) (retain dup : Bool) {packetId : UInt16}
    (hid : qos ≠ 0 → packetId ≠ 0) : if hasPacketId (sentByte qos retain dup) then
      ∃ a b, Packet.idBytes packetId qos = [a, b] ∧ joinBytes a b ≠ 0
    else Packet.idBytes packetId qos = [] := by
  rw [(sentByte_spec hqos retain dup).2.1, Packet.idBytes]
  by_cases hzero : qos = 0
  · simp [hzero]
  · simp only [hzero, ne_eq, not_false_eq_true, decide_true, if_true, if_false]
    exact ⟨_, _, rfl, by rw [joinBytes_bigEndian]; exact hid hzero⟩

/-- What a PUBLISH begins with, as the parser takes it. -/
def sentHeader {cfg : TopicConfig} {qos : Byte} (hqos : qos ≤ 2) (retain dup : Bool) {topic : CString}
    (htopic₁ : 1 ≤ topic.length) (htopic₂ : topic.length ≤ cfg.maxTopicLength) {payloadLength : ℕ}
    (hmax : Packet.publishRemainingLength topic payloadLength qos ≤ 268435455) {packetId : UInt16}
    (hid : qos ≠ 0 → packetId ≠ 0) : PublishHeader cfg.toConfig where
  type := sentByte qos retain dup
  length := encodeRemainingLength (Packet.publishRemainingLength topic payloadLength qos)
  hi := (UInt16.ofNat topic.length >>> 8).toUInt8
  lo := (UInt16.ofNat topic.length).toUInt8
  topic := topic.bytes
  packetId := Packet.idBytes packetId qos
  startsPublish := (sentByte_spec hqos retain dup).1
  isLengthField := lengthField_encode hmax
  accepted := topicLength_le_topicRoom hqos retain dup htopic₁ htopic₂ hmax
  topic_length := length_eq_topicRead htopic₁ htopic₂
  packetId_eq := idBytes_sentByte hqos retain dup hid

section SentHeader

variable {cfg : TopicConfig} {qos : Byte} (hqos : qos ≤ 2) (retain dup : Bool) {topic : CString}
  (htopic₁ : 1 ≤ topic.length) (htopic₂ : topic.length ≤ cfg.maxTopicLength) {payloadLength : ℕ}
  (hmax : Packet.publishRemainingLength topic payloadLength qos ≤ 268435455) {packetId : UInt16}
  (hid : qos ≠ 0 → packetId ≠ 0)

/-- The parser takes what is left for the payload. -/
theorem total_sentHeader :
    (sentHeader hqos retain dup htopic₁ htopic₂ hmax hid).total = payloadLength := by
  have hsize := cfg.le_sizeMod
  simp only [PublishHeader.total, PublishHeader.remainingLength, sentHeader, joinBytes_bigEndian,
    toNat_topicLength htopic₂, decode_encode hmax, Int.toNat_natCast, sub_publishRemainingLength hmax,
    (sentByte_spec hqos retain dup).2.1]
  rw [Packet.publishRemainingLength] at hmax
  by_cases hzero : qos = 0
  · simp only [hzero, if_true, ne_eq, not_true_eq_false, decide_false, Bool.false_eq_true,
      if_false] at hmax ⊢
    rw [cfg.sub_of_le (by omega) (by omega)]
    omega
  · simp only [hzero, if_true, ne_eq, not_false_eq_true, decide_true, if_false] at hmax ⊢
    rw [cfg.sub_of_le (a := topic.length + 2 + payloadLength) (by omega) (by omega),
      cfg.sub_of_le (by omega) (by omega)]
    omega

/-- What the parser reports of a PUBLISH. -/
structure ReportsPublish (r : Report) (packetId : UInt16) (topic : CString) (total : ℕ) (qos : Byte)
    (retain dup : Bool) : Prop where
  isPublish : r.packetType &&& 0xF0 = PacketType.PUBLISH
  qos : publishQos r.packetType = qos
  retain : publishRetain r.packetType = retain
  dup : publishDup r.packetType = dup
  topic : r.topic = topic.bytes
  packetId : r.packetId = packetId
  total : r.total = total

theorem takeWhile_bytes (s : CString) : s.bytes.takeWhile (· ≠ 0) = s.bytes := by
  rw [List.takeWhile_eq_self_iff]
  intro b hb
  rw [decide_eq_true_eq]
  rintro rfl
  exact s.nul_notMem hb

theorem report_sentHeader (payload : List Byte) :
    ReportsPublish ((sentHeader hqos retain dup htopic₁ htopic₂ hmax hid).report payload)
      (if qos = 0 then 0 else packetId) topic payloadLength qos retain (dup && decide (qos ≠ 0)) where
  isPublish := (sentByte_spec hqos retain dup).1.1
  qos := (sentByte_spec hqos retain dup).2.2.1
  retain := (sentByte_spec hqos retain dup).2.2.2.1
  dup := (sentByte_spec hqos retain dup).2.2.2.2
  topic := takeWhile_bytes topic
  packetId := by
    by_cases hzero : qos = 0
    · simp [PublishHeader.report, sentHeader, Packet.idBytes, hzero]
    · simp [PublishHeader.report, sentHeader, Packet.idBytes, hzero, bigEndian, joinBytes_bigEndian]
  total := total_sentHeader hqos retain dup htopic₁ htopic₂ hmax hid

end SentHeader

/-! ### Acknowledgements -/

/-- The packets that consist of a packet id. -/
def IsAck (type : MQTTPacketType) : Prop :=
  type = PacketType.PUBACK ∨ type = PacketType.PUBREC ∨ type = PacketType.PUBREL ∨
    type = PacketType.PUBCOMP

/-- The parser on an acknowledgement. -/
theorem walk_ack {p : Parser cfg} (hp : p.parse = .fixedHeader) {type : MQTTPacketType}
    (htype : IsAck type ∨ type = PacketType.UNSUBACK) {packetId : UInt16} (hid : packetId ≠ 0) (start : ℕ) :
    ∃ (q : Parser cfg) (r : Report), walk start 0 p (Packet.ackByte type :: 2 :: bigEndian packetId)
        = ⟨[⟨r, start + 4, true⟩], start + 4, false, q⟩ ∧ q.parse = .fixedHeader ∧
      r.packetType &&& 0xF0 = type ∧ r.packetId = packetId ∧ r.index = 0 ∧ r.payload = [] := by
  have hor : (packetId >>> 8).toUInt8.toUInt16 <<< 8 ||| packetId.toUInt8.toUInt16 = packetId :=
    bigEndian_or packetId
  have hack : Packet.ackByte type &&& 0xF0 = type ∧ type ≠ PacketType.PUBLISH ∧
      type ≠ PacketType.CONNACK ∧ type ≠ PacketType.SUBACK ∧
      (p.fixedHeader (Packet.ackByte type)) = (.awaitData, { p with
        packet := { p.packet.reset with packetType := Packet.ackByte type }
        parse := .remainingLengthFixed }) := by
    rcases htype with (rfl | rfl | rfl | rfl) | rfl <;> exact ⟨by decide, by decide, by decide, by decide, rfl⟩
  obtain ⟨htype', hpublish, hconnack, hsuback, hfixed⟩ := hack
  -- one state function after the other
  have h₁ := ok_of_fixedHeader hp
  have h₂ := h₁.call (Packet.ackByte type) []
  rw [walk_byte h₁ (by simp [hp])]
  simp only [Parser.call, hp, hfixed] at h₂ ⊢
  have h₃ := h₂.call 2 []
  rw [walk_byte h₂ (by simp)]
  simp only [Parser.call, remainingLengthFixed, htype', show UInt8.toNat 2 = 2 from rfl, if_true, ne_eq,
    hconnack, not_false_eq_true] at h₃ ⊢
  have h₄ := h₃.call (packetId >>> 8).toUInt8 []
  rw [bigEndian, walk_byte h₃ (by simp)]
  simp only [Parser.call, varHeaderPacketId1, IncomingPacket.reset, UInt16.zero_or] at h₄ ⊢
  rw [walk_byte h₄ (by simp)]
  simp only [Parser.call, varHeaderPacketId2, hor, ne_eq, hid, not_false_eq_true, if_true, htype',
    hsuback, hpublish, if_false, walk]
  exact ⟨_, _, rfl, rfl, htype', rfl, rfl, by simp [report]⟩

/-! ### The round trip -/

/-- A PUBLISH in whatever buffers. -/
theorem feed_publish {cfg : TopicConfig} {alloc : Alloc} {packetId : UInt16} {topic : CString}
    {payload : List Byte} {qos : Byte} {retain : Bool} {packet : Packet} (htopic₁ : 1 ≤ topic.length)
    (htopic₂ : topic.length ≤ cfg.maxTopicLength) (hqos : qos ≤ 2) (hid : qos ≠ 0 → packetId ≠ 0)
    (hmax : Packet.publishRemainingLength topic payload.length qos ≤ 268435455)
    (hpacket : Packet.publish cfg.toConfig alloc packetId topic payload qos retain = (.SUCCESS, packet))
    (dup : Bool) (p : Parser cfg.toConfig) {buffers : List (List Byte)}
    (hflat : buffers.flatten = (if dup then packet.setDup else packet).data) :
    let fed := feed 0 p.reset buffers
    fed.error = false ∧ fed.consumed = packet.size ∧ fed.results ≠ [] ∧ Tile 0 fed.results payload ∧
      ∀ r ∈ fed.results, ReportsPublish r.report (if qos = 0 then 0 else packetId) topic payload.length
        qos retain (dup && decide (qos ≠ 0)) := by
  intro fed
  have hle := cfg.maxTopicLength_le
  have hdata := sent_data hqos hid (by omega) hmax hpacket dup
  have hspec := Packet.publish_spec hqos (by omega) hmax hpacket
  have hreport := report_sentHeader hqos retain dup htopic₁ htopic₂ hmax hid payload
  have htotal := total_sentHeader hqos retain dup htopic₁ htopic₂ hmax hid
  -- the packet is the header and the payload, for the parser too
  generalize hH : sentHeader hqos retain dup htopic₁ htopic₂ hmax hid = H at hreport htotal
  have hbytes : buffers.flatten = H.bytes ++ (payload ++ []) := by
    rw [hflat, hdata, ← hH]
    simp [PublishHeader.bytes, sentHeader, Packet.stringBytes, bigEndian]
  have hsize : packet.size = 0 + H.bytes.length + payload.length := by
    rw [hspec, ← hH]
    simp only [Packet.publishHeaderBytes, PublishHeader.bytes, sentHeader, Packet.stringBytes, bigEndian,
      List.length_cons, List.length_append, List.length_nil]
    omega
  obtain ⟨q, -, -, hwalk⟩ := walk_publish H (p := p.reset) rfl htotal.symm 0 []
  have halike : fed.Alike (walk 0 0 p.reset buffers.flatten) := feed_walk buffers 0 (reset_ok p)
  rw [hbytes, hwalk, walk] at halike
  obtain ⟨htile, hall⟩ := tile_of_merge halike.results
  refine ⟨halike.error, halike.consumed.trans hsize.symm, ?_, htile, ?_⟩
  · intro hnil
    have hmerge := halike.results
    rw [hnil] at hmerge
    exact List.cons_ne_nil _ _ hmerge.symm
  · intro r hr
    rw [hall r hr]
    exact ⟨hreport.isPublish, hreport.qos, hreport.retain, hreport.dup, hreport.topic,
      hreport.packetId, hreport.total⟩

/-- An acknowledgement in whatever buffers. -/
theorem feed_ack {alloc : Alloc} {type : MQTTPacketType} {packetId : UInt16} {packet : Packet}
    (htype : IsAck type) (hid : packetId ≠ 0)
    (hpacket : Packet.ack cfg alloc type packetId = (.SUCCESS, packet)) (p : Parser cfg)
    {buffers : List (List Byte)} (hflat : buffers.flatten = packet.data) :
    let fed := feed 0 p.reset buffers
    fed.error = false ∧ fed.consumed = packet.size ∧ ∃ r, fed.results = [r] ∧ r.complete ∧
      r.report.packetType &&& 0xF0 = type ∧ r.report.packetId = packetId := by
  intro fed
  have hspec := Packet.ack_spec hpacket
  obtain ⟨q, r, hwalk, -, hr, hrid, hindex, hpayload⟩ := walk_ack (p := p.reset) rfl (.inl htype) hid 0
  have halike : fed.Alike (walk 0 0 p.reset buffers.flatten) := feed_walk buffers 0 (reset_ok p)
  rw [hflat, hspec, hwalk] at halike
  have hsize : packet.size = 4 := by rw [hspec]
  exact ⟨halike.error, halike.consumed.trans hsize.symm, _,
    eq_of_merge halike.results hindex hpayload, rfl, hr, hrid⟩

/-- **What is encoded is decoded.** A buffered PUBLISH, marked as a duplicate or not, is read to its end
in whatever buffers it comes; every slice reports what the packet was built from, and the slices tile
the payload.  An acknowledgement comes back as the packet it is. -/
theorem feed_packet (cfg : TopicConfig) :
    (∀ (alloc : Alloc) (packetId : UInt16) (topic : CString) (payload : List Byte) (qos : Byte)
      (retain dup : Bool) (packet : Packet) (p : Parser cfg.toConfig) (buffers : List (List Byte)),
      1 ≤ topic.length → topic.length ≤ cfg.maxTopicLength → qos ≤ 2 → (qos ≠ 0 → packetId ≠ 0) →
      Packet.publishRemainingLength topic payload.length qos ≤ 268435455 →
      Packet.publish cfg.toConfig alloc packetId topic payload qos retain = (.SUCCESS, packet) →
      buffers.flatten = (if dup then packet.setDup else packet).data →
      let fed := feed 0 p.reset buffers
      fed.error = false ∧ fed.consumed = packet.size ∧ fed.results ≠ [] ∧ Tile 0 fed.results payload ∧
        ∀ r ∈ fed.results, ReportsPublish r.report (if qos = 0 then 0 else packetId) topic payload.length
          qos retain (dup && decide (qos ≠ 0))) ∧
    (∀ (alloc : Alloc) (type : MQTTPacketType) (packetId : UInt16) (packet : Packet) (p : Parser cfg.toConfig)
      (buffers : List (List Byte)),
      IsAck type → packetId ≠ 0 → Packet.ack cfg.toConfig alloc type packetId = (.SUCCESS, packet) →
      buffers.flatten = packet.data →
      let fed := feed 0 p.reset buffers
      fed.error = false ∧ fed.consumed = packet.size ∧ ∃ r, fed.results = [r] ∧ r.complete ∧
        r.report.packetType &&& 0xF0 = type ∧ r.report.packetId = packetId) := by
  constructor
  · intro alloc packetId topic payload qos retain dup packet p buffers htopic₁ htopic₂ hqos hid hmax
      hpacket hflat
    exact feed_publish htopic₁ htopic₂ hqos hid hmax hpacket dup p hflat
  · intro alloc type packetId packet p buffers htype hid hpacket hflat
    exact feed_ack htype hid hpacket p hflat

/-- A PUBLISH of quality 2 marked as a duplicate, in two buffers, and its PUBREC. -/
theorem feed_packet_publish :
    (let packet := (Packet.publish .linux ⟨20000, true, true⟩ 7 ⟨[97], by decide⟩ [1, 2, 3] 2 true).2
      let fed := feed 0 (new .linux).reset [packet.setDup.data.take 8, packet.setDup.data.drop 8]
      fed.error = false ∧ fed.consumed = packet.size ∧ fed.results ≠ [] ∧ Tile 0 fed.results [1, 2, 3] ∧
        ∀ r ∈ fed.results, ReportsPublish r.report 7 ⟨[97], by decide⟩ 3 2 true true) ∧
    (let packet := (Packet.ack .linux ⟨20000, true, true⟩ PacketType.PUBREC 7).2
      let fed := feed 0 (new .linux).reset [packet.data]
      fed.error = false ∧ fed.consumed = packet.size ∧ ∃ r, fed.results = [r] ∧ r.complete ∧
        r.report.packetType &&& 0xF0 = PacketType.PUBREC ∧ r.report.packetId = 7) :=
  ⟨(feed_packet .linux).1 ⟨20000, true, true⟩ 7 ⟨[97], by decide⟩ [1, 2, 3] 2 true true _ (new .linux) _
      (by decide) (by decide) (by decide) (by decide) (by decide) (Prod.ext rfl rfl) (by simp),
    (feed_packet .linux).2 ⟨20000, true, true⟩ PacketType.PUBREC 7 _ (new .linux) _
      (.inr (.inl rfl)) (by decide) (Prod.ext rfl rfl) (by simp)⟩

end Parser

end EspMqttClient
