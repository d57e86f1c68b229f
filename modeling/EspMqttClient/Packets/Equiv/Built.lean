/-
  What all packets that are built have in common, whatever the lengths.

  A packet that is sent from its buffer has as many bytes as the buffer, one with a payload callback has a
  header (`Formed`).  The first byte is the one that was written first, so the packet has the type it was
  built as unless the buffer came out empty, and the packet id is the one that was asked for.
-/
import EspMqttClient.Packets.Equiv.PacketBytes

namespace EspMqttClient

namespace Packet

variable {cfg : Config}

/-! ### The first byte -/

/-- The first byte of a buffer is written once. -/
theorem head_put {b : Buffer Byte} (hpos : 0 < b.pos) (xs : List Byte) :
    (b.put xs).data.head? = b.data.head? := by
  have htake := Buffer.take_data_put b xs (k := 1) hpos
  have hhead : ∀ l : List Byte, l.head? = (l.take 1).head? := by
    rintro (_ | ⟨a, l⟩) <;> rfl
  rw [hhead, htake, ← hhead]

/-- Its type is that of its first byte. -/
theorem packetType_eq (p : Packet) : p.packetType = (p.data.head?.map (· &&& 0xF0)).getD 0 := by
  rw [packetType]
  cases p.data <;> rfl

/-- A buffer that begins with a byte, if it has room for one. -/
def Begins (b : Buffer Byte) (byte : Byte) : Prop :=
  0 < b.pos ∧ (b.data = [] ∨ b.data.head? = some byte)

theorem begins_put (n : ℕ) (byte : Byte) :
    Begins ((Buffer.fill n (0 : Byte)).put [byte]) byte := by
  refine ⟨by simp, ?_⟩
  rcases n with _ | n
  · exact .inl rfl
  · exact .inr rfl

theorem Begins.put {b : Buffer Byte} {byte : Byte} (h : Begins b byte) (xs : List Byte) :
    Begins (b.put xs) byte := by
  refine ⟨by rw [Buffer.pos_put]; exact Nat.lt_of_lt_of_le h.1 (Nat.le_add_right _ _), ?_⟩
  rcases h.2 with hnil | hhead
  · refine .inl ?_
    rw [← List.length_eq_zero_iff, Buffer.length_data_put, hnil]
    rfl
  · exact .inr (by rw [head_put h.1, hhead])

theorem Begins.packetType {b : Buffer Byte} {byte : Byte} (h : Begins b byte) {p : Packet}
    (hp : p.data = b.data) : p.packetType = byte &&& 0xF0 ∨ p.packetType = 0 := by
  rw [packetType_eq, hp]
  rcases h.2 with hnil | hhead
  · exact .inr (by rw [hnil]; rfl)
  · exact .inl (by rw [hhead]; rfl)

/-! ### The constructors -/

/-- What the code relies on in a packet. -/
structure Formed (p : Packet) : Prop where
  buffered : p.getPayload = none → p.size = p.data.length
  chunked : p.getPayload.isSome → 0 < p.payloadIndex

/-- A packet that is sent from its buffer. -/
theorem formed_ofBuffer {packetId : UInt16} {b : Buffer Byte} {packet : Packet}
    (h : (init packetId none).ofBuffer b = (.SUCCESS, packet)) :
    packet.Formed ∧ packet.packetId = packetId ∧ packet.getPayload = none ∧ packet.data = b.data := by
  obtain rfl := (Prod.mk.inj h).2
  exact ⟨⟨fun _ => rfl, nofun⟩, rfl, rfl, rfl⟩

theorem fillConnect_begins (n : ℕ) (args : ConnectArgs) :
    Begins (fillConnect cfg (.fill n 0) args) (PacketType.CONNECT ||| HeaderFlag.CONNECT_RESERVED) := by
  have h := ((((((begins_put n (PacketType.CONNECT ||| HeaderFlag.CONNECT_RESERVED)).put
    (encodeRemainingLength (connectLength cfg args % 2 ^ 32))).put (encodeString PROTOCOL)).put
    [0x04]).put [args.flags]).put (bigEndian args.keepAlive)).put
    (encodeString (args.clientId.getD .empty))
  rw [fillConnect]
  split
  · exact (((h.put _).put _).put _).put _ |>.put _
  · exact (h.put _).put _

/-- **CONNECT**: what is built depends on the arguments only. -/
theorem connect_built {alloc : Alloc} {args : ConnectArgs} {packet : Packet}
    (h : connect cfg alloc args = (.SUCCESS, packet)) :
    packet.Formed ∧ packet.packetId = 0 ∧ packet.getPayload = none ∧
      (packet.packetType = PacketType.CONNECT ∨ packet.packetType = 0) ∧
      ∀ alloc' packet', connect cfg alloc' args = (.SUCCESS, packet') → packet' = packet := by
  have hbuilt : ∀ {alloc packet}, connect cfg alloc args = (.SUCCESS, packet) →
      (init 0 none).ofBuffer (fillConnect cfg (.fill (cfg.wrap (1 + remainingLengthLength
        (connectLength cfg args % 2 ^ 32) + connectLength cfg args)) 0) args) = (.SUCCESS, packet) := by
    intro alloc packet h
    rw [connect] at h
    split_ifs at h with hclient
    · cases h
    cases halloc : allocate cfg alloc (connectLength cfg args) false with
    | none => simp [halloc] at h
    | some b =>
      rw [halloc] at h
      rwa [← allocate_eq halloc]
  obtain ⟨hformed, hid, hnone, hdata⟩ := formed_ofBuffer (hbuilt h)
  refine ⟨hformed, hid, hnone, (fillConnect_begins _ args).packetType hdata, fun _ _ h' => ?_⟩
  exact (Prod.mk.inj ((hbuilt h').symm.trans (hbuilt h))).2

/-! #### PUBLISH -/

theorem encodeRemainingLength_ne_nil (n : ℕ) : encodeRemainingLength n ≠ [] := by
  rw [encodeRemainingLength, encodeRemainingLengthLoop]
  split_ifs <;> simp

/-- A header is not empty, and with a quality of service that there is it begins as a PUBLISH. -/
theorem fillPublishHeader_begins (n : ℕ) (packetId : UInt16) (topic : CString) (remainingLength : ℕ)
    (qos : Byte) (retain : Bool) :
    0 < (fillPublishHeader (.fill n 0) packetId topic remainingLength qos retain).pos ∧
      (qos ≤ 2 → Begins (fillPublishHeader (.fill n 0) packetId topic remainingLength qos retain)
        (publishByte qos retain)) := by
  have hlength := List.length_pos_iff.mpr (encodeRemainingLength_ne_nil (remainingLength % 2 ^ 32))
  constructor
  · rw [fillPublishHeader, putRemainingLength]
    split_ifs <;> simp only [Buffer.pos_put] <;> omega
  · intro hqos
    rw [fillPublishHeader, put_publishByte _ hqos, putRemainingLength]
    have h := ((begins_put n (publishByte qos retain)).put
      (encodeRemainingLength (remainingLength % 2 ^ 32))).put (encodeString topic)
    split_ifs
    · exact h.put _
    · exact h

/-- The packet id a PUBLISH is stored under. -/
theorem publishLength_snd (packetId : UInt16) (topic : CString) (payloadLength : ℕ) (qos : Byte) :
    (publishLength cfg packetId topic payloadLength qos).2 = if qos = 0 then 0 else packetId := by
  rw [publishLength]
  split_ifs <;> rfl

/-- The first byte of a PUBLISH, with a quality of service that there is. -/
theorem publish_begins {alloc : Alloc} {packetId : UInt16} {topic : CString} {payload : List Byte}
    {qos : Byte} {retain : Bool} {packet : Packet} (hqos : qos ≤ 2)
    (h : publish cfg alloc packetId topic payload qos retain = (.SUCCESS, packet)) :
    packet.data = [] ∨ packet.data.head? = some (publishByte qos retain) := by
  rw [publish] at h
  dsimp only at h
  cases halloc : allocate cfg alloc (publishLength cfg packetId topic payload.length qos).1 true with
  | none => simp [halloc] at h
  | some b =>
    simp only [halloc] at h
    obtain ⟨-, -, -, hdata⟩ := formed_ofBuffer h
    rw [hdata, allocate_eq halloc]
    exact (((fillPublishHeader_begins _ packetId topic _ qos retain).2 hqos).put payload).2

/-- The same with a payload callback. -/
theorem publishChunked_begins {alloc : Alloc} {packetId : UInt16} {topic : CString}
    {callback : PayloadCallback} {payloadLength : ℕ} {qos : Byte} {retain : Bool} {packet : Packet}
    (hqos : qos ≤ 2)
    (h : publishChunked cfg alloc packetId topic callback payloadLength qos retain = (.SUCCESS, packet)) :
    packet.data = [] ∨ packet.data.head? = some (publishByte qos retain) := by
  rw [publishChunked] at h
  dsimp only at h
  cases halloc : allocate cfg alloc (chunkedLength cfg
    (publishLength cfg packetId topic payloadLength qos).1 payloadLength) true with
  | none => simp [halloc] at h
  | some b =>
    simp only [halloc] at h
    obtain ⟨-, hbegins⟩ := allocate_eq halloc ▸ fillPublishHeader_begins _ packetId topic
      (publishLength cfg packetId topic payloadLength qos).1 qos retain
    obtain rfl := (Prod.mk.inj h).2
    exact (hbegins hqos).2

/-- A packet that begins so is a PUBLISH. -/
theorem packetType_of_begins {packet : Packet} {qos : Byte} {retain : Bool} (hqos : qos ≤ 2)
    (h : packet.data = [] ∨ packet.data.head? = some (publishByte qos retain)) :
    packet.packetType = PacketType.PUBLISH ∨ packet.packetType = 0 := by
  rw [packetType_eq]
  rcases h with h | h
  · exact .inr (by rw [h]; rfl)
  · exact .inl (by rw [h]; exact publishByte_type hqos retain)

/-- **PUBLISH** with its payload. -/
theorem publish_built {alloc : Alloc} {packetId : UInt16} {topic : CString} {payload : List Byte}
    {qos : Byte} {retain : Bool} {packet : Packet}
    (h : publish cfg alloc packetId topic payload qos retain = (.SUCCESS, packet)) :
    packet.Formed ∧ packet.packetId = (if qos = 0 then 0 else packetId) ∧ packet.getPayload = none ∧
      (qos ≤ 2 → packet.packetType = PacketType.PUBLISH ∨ packet.packetType = 0) := by
  have htype := fun hqos : qos ≤ 2 => packetType_of_begins hqos (publish_begins hqos h)
  rw [publish] at h
  dsimp only at h
  cases halloc : allocate cfg alloc (publishLength cfg packetId topic payload.length qos).1 true with
  | none => simp [halloc] at h
  | some b =>
    simp only [halloc] at h
    obtain ⟨hformed, hid, hnone, -⟩ := formed_ofBuffer h
    exact ⟨hformed, by rw [hid, publishLength_snd], hnone, htype⟩

/-- **PUBLISH** with a payload callback. -/
theorem publishChunked_built {alloc : Alloc} {packetId : UInt16} {topic : CString}
    {callback : PayloadCallback} {payloadLength : ℕ} {qos : Byte} {retain : Bool} {packet : Packet}
    (h : publishChunked cfg alloc packetId topic callback payloadLength qos retain = (.SUCCESS, packet)) :
    packet.Formed ∧ packet.packetId = (if qos = 0 then 0 else packetId) ∧
      packet.getPayload = some callback ∧
      (qos ≤ 2 → packet.packetType = PacketType.PUBLISH ∨ packet.packetType = 0) := by
  have htype := fun hqos : qos ≤ 2 => packetType_of_begins hqos (publishChunked_begins hqos h)
  rw [publishChunked] at h
  dsimp only at h
  cases halloc : allocate cfg alloc (chunkedLength cfg
    (publishLength cfg packetId topic payloadLength qos).1 payloadLength) true with
  | none => simp [halloc] at h
  | some b =>
    simp only [halloc] at h
    obtain ⟨hpos, -⟩ := allocate_eq halloc ▸ fillPublishHeader_begins _ packetId topic
      (publishLength cfg packetId topic payloadLength qos).1 qos retain
    obtain rfl := (Prod.mk.inj h).2
    exact ⟨⟨fun hnone => (by cases hnone), fun _ => hpos⟩, publishLength_snd _ _ _ _, rfl, htype⟩

/-! #### The others -/

theorem subscribe_begins {alloc : Alloc} {packetId : UInt16} {list : List (CString × Byte)}
    {packet : Packet} (h : subscribe cfg alloc packetId list = (.SUCCESS, packet)) :
    packet.Formed ∧ packet.packetId = packetId ∧ packet.getPayload = none ∧
      ∃ b, packet.data = b.data ∧ Begins b (PacketType.SUBSCRIBE ||| HeaderFlag.SUBSCRIBE_RESERVED) := by
  have hitems : ∀ (list : List (CString × Byte)) {b : Buffer Byte} {byte : Byte}, Begins b byte →
      Begins (list.foldl (fun b item => (b.put (encodeString item.1)).put [item.2]) b) byte := by
    intro list
    induction list with
    | nil => exact id
    | cons item list ih => exact fun h => ih ((h.put _).put _)
  rw [subscribe] at h
  dsimp only at h
  cases halloc : allocate cfg alloc (cfg.wrap (2 + (list.map fun item => 2 + item.1.length + 1).sum)) true with
  | none =>
    rw [halloc] at h
    cases h
  | some b =>
    simp only [halloc] at h
    obtain ⟨hformed, hid, hnone, hdata⟩ := formed_ofBuffer h
    rw [allocate_eq halloc] at hdata
    exact ⟨hformed, hid, hnone, _, hdata, hitems list (((begins_put _ _).put _).put (bigEndian packetId))⟩

/-- **SUBSCRIBE**. -/
theorem subscribe_built {alloc : Alloc} {packetId : UInt16} {list : List (CString × Byte)}
    {packet : Packet} (h : subscribe cfg alloc packetId list = (.SUCCESS, packet)) :
    packet.Formed ∧ packet.packetId = packetId ∧ packet.getPayload = none ∧
      (packet.packetType = PacketType.SUBSCRIBE ∨ packet.packetType = 0) := by
  obtain ⟨hformed, hid, hnone, b, hdata, hbegins⟩ := subscribe_begins h
  exact ⟨hformed, hid, hnone, hbegins.packetType hdata⟩

/-- It is a SUBSCRIBE if it has any bytes. -/
theorem packetType_subscribe {alloc : Alloc} {packetId : UInt16} {list : List (CString × Byte)}
    {packet : Packet} (h : subscribe cfg alloc packetId list = (.SUCCESS, packet)) (hne : packet.data ≠ []) :
    packet.packetType = PacketType.SUBSCRIBE := by
  obtain ⟨-, -, -, b, hdata, -, hhead⟩ := subscribe_begins h
  rw [packetType_eq, hdata, hhead.resolve_left fun hnil => hne (hdata.trans hnil)]
  rfl

/-- **UNSUBSCRIBE**. -/
theorem unsubscribe_built {alloc : Alloc} {packetId : UInt16} {list : List CString}
    {packet : Packet} (h : unsubscribe cfg alloc packetId list = (.SUCCESS, packet)) :
    packet.Formed ∧ packet.packetId = packetId ∧ packet.getPayload = none ∧
      (packet.packetType = PacketType.UNSUBSCRIBE ∨ packet.packetType = 0) := by
  have hitems : ∀ (list : List CString) {b : Buffer Byte} {byte : Byte}, Begins b byte →
      Begins (list.foldl (fun b topic => b.put (encodeString topic)) b) byte := by
    intro list
    induction list with
    | nil => exact id
    | cons item list ih => exact fun h => ih (h.put _)
  rw [unsubscribe] at h
  dsimp only at h
  cases halloc : allocate cfg alloc (cfg.wrap (2 + (list.map fun topic => 2 + topic.length).sum)) true with
  | none =>
    rw [halloc] at h
    cases h
  | some b =>
    simp only [halloc] at h
    obtain ⟨hformed, hid, hnone, hdata⟩ := formed_ofBuffer h
    rw [allocate_eq halloc] at hdata
    exact ⟨hformed, hid, hnone,
      (hitems list (((begins_put _ _).put _).put (bigEndian packetId))).packetType hdata⟩

/-- **PUBACK, PUBREC, PUBREL, PUBCOMP**. -/
theorem ack_built {alloc : Alloc} {type : MQTTPacketType} {packetId : UInt16} {packet : Packet}
    (h : ack cfg alloc type packetId = (.SUCCESS, packet)) :
    packet.Formed ∧ packet.packetId = packetId ∧ packet.getPayload = none ∧
      packet.packetType = ackByte type &&& 0xF0 := by
  rw [ack_spec h]
  exact ⟨⟨fun _ => rfl, nofun⟩, rfl, rfl, rfl⟩

/-- **PINGREQ, DISCONNECT**. -/
theorem control_built {alloc : Alloc} {type : MQTTPacketType} {packet : Packet}
    (h : control cfg alloc type = (.SUCCESS, packet)) :
    packet.Formed ∧ packet.packetId = 0 ∧ packet.getPayload = none ∧
      (packet.packetType = type &&& 0xF0 ∨ packet.packetType = 0) := by
  rw [control] at h
  cases halloc : allocate cfg alloc 0 true with
  | none => simp [halloc] at h
  | some b =>
    simp only [halloc] at h
    obtain ⟨hformed, hid, hnone, hdata⟩ := formed_ofBuffer h
    rw [allocate_eq halloc] at hdata
    exact ⟨hformed, hid, hnone, (begins_put _ type).packetType hdata⟩

/-- A **PINGREQ** and a **DISCONNECT** have two bytes. -/
theorem control_spec {alloc : Alloc} {type : MQTTPacketType} {packet : Packet}
    (h : control cfg alloc type = (.SUCCESS, packet)) :
    packet = { init 0 none with data := [type, 0], size := 2 } := by
  rw [control] at h
  cases halloc : allocate cfg alloc 0 true with
  | none => simp [halloc] at h
  | some b =>
    have hwrap : cfg.wrap (1 + remainingLengthLength (0 % 2 ^ 32) + 0) = 2 := by
      apply cfg.wrap_of_lt
      exact Nat.lt_of_lt_of_le (by decide) cfg.le_sizeMod
    have hb := allocate_eq halloc
    rw [hwrap] at hb
    simp only [halloc, hb, ofBuffer, Prod.mk.injEq, true_and] at h
    exact h.symm

end Packet

end EspMqttClient
