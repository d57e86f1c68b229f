/-
  SUBSCRIBE and UNSUBSCRIBE.

  One loop over the list computes the size and a second one writes.  With the write position as the
  invariant the second one writes as much as the first one counted (`subscribe_holds`,
  `unsubscribe_holds`), so the buffer is filled to its end, and by the grammar the packet says what
  it was built from (`lists_roundTrip`).
-/
import EspMqttClient.Packets.Equiv.Grammar

namespace EspMqttClient

namespace Packet

open Grammar

variable {cfg : Config}

/-! ### Requests -/

/-- What the buffered constructors with a topic are called with. -/
inductive Request
  | publish (packetId : UInt16) (topic : CString) (payload : List Byte) (qos : Byte) (retain : Bool)
  | subscribe (packetId : UInt16) (list : List (CString × Byte))
  | unsubscribe (packetId : UInt16) (list : List CString)

namespace Request

/-- The constructor. -/
def build (cfg : Config) (alloc : Alloc) : Request → Error × Packet
  | publish packetId topic payload qos retain => Packet.publish cfg alloc packetId topic payload qos retain
  | subscribe packetId list => Packet.subscribe cfg alloc packetId list
  | unsubscribe packetId list => Packet.unsubscribe cfg alloc packetId list

/-- The remaining length, as a number without a limit. -/
def length : Request → ℕ
  | publish _ topic payload qos _ => publishRemainingLength topic payload.length qos
  | subscribe _ list => 2 + (list.map fun item => 2 + item.1.length + 1).sum
  | unsubscribe _ list => 2 + (list.map fun topic => 2 + topic.length).sum

/-- The packet id that is stored. -/
def storedId : Request → UInt16
  | publish packetId _ _ qos _ => if qos = 0 then 0 else packetId
  | subscribe packetId _ => packetId
  | unsubscribe packetId _ => packetId

/-- The serialising part of the constructor. -/
def write (cfg : Config) (b : Buffer Byte) : Request → Buffer Byte
  | publish packetId topic payload qos retain =>
    (fillPublishHeader b packetId topic (publishLength cfg packetId topic payload.length qos).1 qos
      retain).put payload
  | subscribe packetId list =>
    let b := b.put [PacketType.SUBSCRIBE ||| HeaderFlag.SUBSCRIBE_RESERVED]
    let b := putRemainingLength b (cfg.wrap (2 + (list.map fun item => 2 + item.1.length + 1).sum))
    let b := b.put (bigEndian packetId)
    list.foldl (fun b item => (b.put (encodeString item.1)).put [item.2]) b
  | unsubscribe packetId list =>
    let b := b.put [PacketType.UNSUBSCRIBE ||| HeaderFlag.UNSUBSCRIBE_RESERVED]
    let b := putRemainingLength b (cfg.wrap (2 + (list.map fun topic => 2 + topic.length).sum))
    let b := b.put (bigEndian packetId)
    list.foldl (fun b topic => b.put (encodeString topic)) b

/-- Each constructor allocates for its remaining length and serialises into what it got. -/
theorem build_eq (alloc : Alloc) (request : Request) : request.build cfg alloc =
    match allocate cfg alloc (cfg.wrap request.length) true with
    | none => (.OUT_OF_MEMORY, init request.storedId none)
    | some b => (init request.storedId none).ofBuffer (request.write cfg b) := by
  cases request with
  | publish packetId topic payload qos retain =>
    have hlength : publishLength cfg packetId topic payload.length qos =
        (cfg.wrap (publishRemainingLength topic payload.length qos), if qos = 0 then 0 else packetId) := by
      rw [publishLength, publishRemainingLength]
      split_ifs <;> rfl
    rw [build, Packet.publish, hlength, length, storedId]
    dsimp only
    cases allocate cfg alloc (cfg.wrap (publishRemainingLength topic payload.length qos)) true with
    | none => rfl
    | some b => simp only [write, hlength]
  | subscribe packetId list => rfl
  | unsubscribe packetId list => rfl

end Request

/-- There is memory for a packet. -/
def Grants (cfg : Config) (alloc : Alloc) : Prop := cfg.minFreeMemory ≤ alloc.freeMemory ∧ alloc.malloc = true

theorem allocate_of_grants {alloc : Alloc} (h : Grants cfg alloc) (remainingLength : ℕ) :
    ∃ b, allocate cfg alloc remainingLength true = some b := by
  obtain ⟨hfree, hmalloc⟩ := h
  rw [allocate, if_neg (fun hlow => absurd hlow.2 (Nat.not_lt.mpr hfree)), if_pos hmalloc]
  exact ⟨_, rfl⟩

theorem allocate_of_not_grants {alloc : Alloc} (h : ¬ Grants cfg alloc) (remainingLength : ℕ) :
    allocate cfg alloc remainingLength true = none := by
  rw [allocate]
  split_ifs with hlow hmalloc
  · rfl
  · exact absurd ⟨Nat.not_lt.mp fun hlt => hlow ⟨rfl, hlt⟩, hmalloc⟩ h
  · rfl

/-! ### What is written -/

/-- A topic filter of a SUBSCRIBE. -/
def filterBytes (item : CString × Byte) : List Byte := stringBytes item.1 ++ [item.2]

/-- The bytes of a SUBSCRIBE behind its fixed header. -/
def subscribeBody (packetId : UInt16) (list : List (CString × Byte)) : List Byte :=
  bigEndian packetId ++ list.flatMap filterBytes

/-- The bytes of an UNSUBSCRIBE behind its fixed header. -/
def unsubscribeBody (packetId : UInt16) (list : List CString) : List Byte :=
  bigEndian packetId ++ list.flatMap stringBytes

theorem length_subscribeBody (packetId : UInt16) (list : List (CString × Byte)) :
    (subscribeBody packetId list).length = (Request.subscribe packetId list).length := by
  rw [subscribeBody, List.length_append, length_bigEndian, List.length_flatMap, Request.length]
  congr 3
  funext item
  rw [filterBytes, List.length_append, length_stringBytes]
  rfl

theorem length_unsubscribeBody (packetId : UInt16) (list : List CString) :
    (unsubscribeBody packetId list).length = (Request.unsubscribe packetId list).length := by
  rw [unsubscribeBody, List.length_append, length_bigEndian, List.length_flatMap, Request.length]
  congr 3
  funext topic
  exact length_stringBytes topic

/-- **A packet id and a list.** `f` writes an element of the list as `enc` says, so with the position as
the invariant the loop writes all of them. -/
theorem list_holds {β : Type} {f : Buffer Byte → β → Buffer Byte} {enc : β → List Byte} {list : List β}
    {behind : List Byte} {packetId : UInt16} (hbehind : behind = bigEndian packetId ++ list.flatMap enc)
    (hf : ∀ a ∈ list, ∀ (n : ℕ) b xs, b.Holds n xs → xs.length + (enc a).length ≤ n →
      (f b a).Holds n (xs ++ enc a)) (first : Byte) (hmax : behind.length ≤ 268435455) {b : Buffer Byte}
    (h : b.Holds (1 + (encodeRemainingLength behind.length).length + behind.length) []) :
    (list.foldl f ((putRemainingLength (b.put [first]) behind.length).put (bigEndian packetId))).Holds
      (1 + (encodeRemainingLength behind.length).length + behind.length)
      (first :: (encodeRemainingLength behind.length ++ behind)) := by
  have hlength : behind.length = 2 + (list.flatMap enc).length := by
    rw [hbehind, List.length_append, length_bigEndian]
  -- each write stays inside the buffer because all of them together just fill it
  have h1 := h.put [first] (by simp only [List.length_nil, List.length_singleton]; omega)
  have h2 := h1.put (encodeRemainingLength behind.length)
    (by simp only [List.length_append, List.length_nil, List.length_singleton]; omega)
  have h3 := h2.put (bigEndian packetId)
    (by simp only [List.length_append, List.length_nil, List.length_singleton, length_bigEndian]; omega)
  have h4 := Buffer.Holds.foldl (fun a ha => hf a ha _) h3
    (by simp only [List.length_append, List.length_nil, List.length_singleton, length_bigEndian]; omega)
  rw [putRemainingLength_eq _ hmax]
  have hbytes : [] ++ [first] ++ encodeRemainingLength behind.length ++ bigEndian packetId ++ list.flatMap enc =
      first :: (encodeRemainingLength behind.length ++ behind) := by
    simp [hbehind]
  rwa [hbytes] at h4

/-- The buffer of a request that is within the limits. -/
theorem allocate_holds {alloc : Alloc} {request : Request} (hmax : request.length ≤ 268435455) {b : Buffer Byte}
    (h : allocate cfg alloc (cfg.wrap request.length) true = some b) :
    b.Holds (1 + (encodeRemainingLength request.length).length + request.length) [] := by
  have hmod := cfg.le_sizeMod
  rw [cfg.wrap_of_lt (by omega)] at h
  exact allocate_spec h hmax

theorem subscribe_holds {packetId : UInt16} {list : List (CString × Byte)} {b : Buffer Byte}
    (htopics : ∀ item ∈ list, item.1.length ≤ 65535)
    (hmax : (Request.subscribe packetId list).length ≤ 268435455)
    (h : b.Holds (1 + (encodeRemainingLength (Request.subscribe packetId list).length).length +
      (Request.subscribe packetId list).length) []) :
    ((Request.subscribe packetId list).write cfg b).Holds
      (1 + (encodeRemainingLength (subscribeBody packetId list).length).length +
        (subscribeBody packetId list).length)
      (0x82 :: (encodeRemainingLength (subscribeBody packetId list).length ++ subscribeBody packetId list)) := by
  have hmod := cfg.le_sizeMod
  rw [← length_subscribeBody] at h hmax
  have hwrap : cfg.wrap (2 + (list.map fun item => 2 + item.1.length + 1).sum) =
      (subscribeBody packetId list).length := by
    rw [length_subscribeBody] at hmax ⊢
    exact cfg.wrap_of_lt (by rw [Request.length] at hmax; omega)
  rw [Request.write, hwrap]
  refine list_holds rfl (fun item hitem n b xs hb hfit => ?_) _ hmax h
  rw [filterBytes, List.length_append, List.length_singleton] at hfit
  rw [encodeString_of_le (htopics item hitem), filterBytes, ← List.append_assoc]
  exact (hb.put _ (by omega)).put [item.2] (by simp only [List.length_append, List.length_singleton]; omega)

theorem unsubscribe_holds {packetId : UInt16} {list : List CString} {b : Buffer Byte}
    (htopics : ∀ topic ∈ list, topic.length ≤ 65535)
    (hmax : (Request.unsubscribe packetId list).length ≤ 268435455)
    (h : b.Holds (1 + (encodeRemainingLength (Request.unsubscribe packetId list).length).length +
      (Request.unsubscribe packetId list).length) []) :
    ((Request.unsubscribe packetId list).write cfg b).Holds
      (1 + (encodeRemainingLength (unsubscribeBody packetId list).length).length +
        (unsubscribeBody packetId list).length)
      (0xA2 :: (encodeRemainingLength (unsubscribeBody packetId list).length ++
        unsubscribeBody packetId list)) := by
  have hmod := cfg.le_sizeMod
  rw [← length_unsubscribeBody] at h hmax
  have hwrap : cfg.wrap (2 + (list.map fun topic => 2 + topic.length).sum) =
      (unsubscribeBody packetId list).length := by
    rw [length_unsubscribeBody] at hmax ⊢
    exact cfg.wrap_of_lt (by rw [Request.length] at hmax; omega)
  rw [Request.write, hwrap]
  refine list_holds rfl (fun topic htopic n b xs hb hfit => ?_) _ hmax h
  rw [encodeString_of_le (htopics topic htopic)]
  exact hb.put _ hfit

/-! ### What it says -/

theorem decodes_filterBytes {item : CString × Byte} (htopic : item.1.length ≤ 65535) (hqos : item.2 ≤ 2) :
    filter.Decodes (filterBytes item) (item.1.bytes, item.2) := by
  have hvalue : (pure (item.1.bytes, item.2) : Decoder Byte _).Decodes [] (item.1.bytes, item.2) :=
    Decoder.decodes_pure _
  exact (decodes_stringBytes htopic).bind ((Decoder.decodes_item item.2).bind (hvalue.ensure hqos))

/-- The first byte says which packet it is. -/
theorem body_subscribe : body 0x82 = Grammar.subscribe := by
  rw [body, if_neg (by decide), if_pos rfl]

theorem body_unsubscribe : body 0xA2 = Grammar.unsubscribe := by
  rw [body, if_neg (by decide), if_neg (by decide), if_pos rfl]

theorem message_subscribe {packetId : UInt16} {list : List (CString × Byte)} (hlist : list ≠ [])
    (htopics : ∀ item ∈ list, item.1.length ≤ 65535) (hqos : ∀ item ∈ list, item.2 ≤ 2)
    (hmax : (subscribeBody packetId list).length ≤ 268435455) :
    message.whole (0x82 :: (encodeRemainingLength (subscribeBody packetId list).length ++
      subscribeBody packetId list)) =
      some (.subscribe packetId.toNat (list.map fun item => (item.1.bytes, item.2))) := by
  have hne : list.map (fun item => (item.1.bytes, item.2)) ≠ [] := fun h => hlist (List.map_eq_nil_iff.mp h)
  have henc : ∀ item, filterBytes item ≠ [] := fun item h => by simp [filterBytes] at h
  rw [Decoder.whole_eq_some, message_apply _ hmax, body_subscribe, Grammar.subscribe, subscribeBody,
    (decodes_bigEndian packetId).apply, Decoder.bind_apply,
    Decoder.many_eq_some henc fun item hitem => decodes_filterBytes (htopics item hitem) (hqos item hitem),
    Option.bind_some, Decoder.ensure_apply hne]
  rfl

theorem message_unsubscribe {packetId : UInt16} {list : List CString} (hlist : list ≠ [])
    (htopics : ∀ topic ∈ list, topic.length ≤ 65535)
    (hmax : (unsubscribeBody packetId list).length ≤ 268435455) :
    message.whole
        (0xA2 :: (encodeRemainingLength (unsubscribeBody packetId list).length ++
          unsubscribeBody packetId list)) =
      some (.unsubscribe packetId.toNat (list.map CString.bytes)) := by
  have hne : list.map CString.bytes ≠ [] := fun h => hlist (List.map_eq_nil_iff.mp h)
  have henc : ∀ topic, stringBytes topic ≠ [] := fun topic h => by simp [stringBytes, bigEndian] at h
  rw [Decoder.whole_eq_some, message_apply _ hmax, body_unsubscribe, Grammar.unsubscribe, unsubscribeBody,
    (decodes_bigEndian packetId).apply, Decoder.bind_apply,
    Decoder.many_eq_some henc fun topic htopic => decodes_stringBytes (htopics topic htopic),
    Option.bind_some, Decoder.ensure_apply hne]
  rfl

/-! ### Built packets -/

/-- The constructor succeeds, its last write ends where the buffer of `size()` bytes does, and by the grammar the
buffer says `message`. -/
def Fills (cfg : Config) (alloc : Alloc) (request : Request) (message : Message) : Prop :=
  ∃ packet b, allocate cfg alloc (cfg.wrap request.length) true = some b ∧
    request.build cfg alloc = (.SUCCESS, packet) ∧ packet.packetId = request.storedId ∧
    packet.data = (request.write cfg b).data ∧ (request.write cfg b).pos = packet.size ∧
    packet.data.length = packet.size ∧ Grammar.message.whole packet.data = some message

/-- A request whose serialised bytes are known. -/
theorem fills_of_holds {alloc : Alloc} (halloc : Grants cfg alloc) {request : Request} {message : Message}
    {n : ℕ}
    {bytes : List Byte} (hwrite : ∀ b, allocate cfg alloc (cfg.wrap request.length) true = some b →
      (request.write cfg b).Holds n bytes) (hn : bytes.length = n)
    (hmessage : Grammar.message.whole bytes = some message) : Fills cfg alloc request message := by
  obtain ⟨b, hb⟩ := allocate_of_grants halloc (cfg.wrap request.length)
  have hholds := hwrite b hb
  have hdata := hholds.data_eq hn
  refine ⟨(init request.storedId none).ofBuffer (request.write cfg b) |>.2, b, hb, ?_, rfl, rfl, ?_, rfl, ?_⟩
  · rw [Request.build_eq, hb]
    rfl
  · show (request.write cfg b).pos = (request.write cfg b).data.length
    rw [hholds.pos, hdata]
  · show Grammar.message.whole (request.write cfg b).data = some message
    rw [hdata, hmessage]

theorem subscribe_fills {alloc : Alloc} (halloc : Grants cfg alloc) {packetId : UInt16}
    {list : List (CString × Byte)}
    (hlist : list ≠ []) (hitems : ∀ item ∈ list, item.1.length ≤ 65535 ∧ item.2 ≤ 2)
    (hmax : (Request.subscribe packetId list).length ≤ 268435455) :
    Fills cfg alloc (.subscribe packetId list)
      (.subscribe packetId.toNat (list.map fun item => (item.1.bytes, item.2))) := by
  refine fills_of_holds halloc (fun b hb => subscribe_holds (fun item h => (hitems item h).1) hmax
    (allocate_holds hmax hb)) ?_ (message_subscribe hlist (fun item h => (hitems item h).1)
      (fun item h => (hitems item h).2) (by rwa [length_subscribeBody]))
  simp only [List.length_cons, List.length_append]
  omega

theorem unsubscribe_fills {alloc : Alloc} (halloc : Grants cfg alloc) {packetId : UInt16} {list : List CString}
    (hlist : list ≠ []) (htopics : ∀ topic ∈ list, topic.length ≤ 65535)
    (hmax : (Request.unsubscribe packetId list).length ≤ 268435455) :
    Fills cfg alloc (.unsubscribe packetId list) (.unsubscribe packetId.toNat (list.map CString.bytes)) := by
  refine fills_of_holds halloc (fun b hb => unsubscribe_holds htopics hmax (allocate_holds hmax hb)) ?_
    (message_unsubscribe hlist htopics (by rwa [length_unsubscribeBody]))
  simp only [List.length_cons, List.length_append]
  omega

/-- **SUBSCRIBE and UNSUBSCRIBE round-trip.** -/
theorem lists_roundTrip (cfg : Config) (alloc : Alloc) (halloc : Grants cfg alloc) (packetId : UInt16) :
    (∀ list : List (CString × Byte), list ≠ [] → (∀ item ∈ list, item.1.length ≤ 65535 ∧ item.2 ≤ 2) →
      (Request.subscribe packetId list).length ≤ 268435455 →
      Fills cfg alloc (.subscribe packetId list)
        (.subscribe packetId.toNat (list.map fun item => (item.1.bytes, item.2)))) ∧
    ∀ list : List CString, list ≠ [] → (∀ topic ∈ list, topic.length ≤ 65535) →
      (Request.unsubscribe packetId list).length ≤ 268435455 →
      Fills cfg alloc (.unsubscribe packetId list) (.unsubscribe packetId.toNat (list.map CString.bytes)) :=
  ⟨fun _ hlist hitems hmax => subscribe_fills halloc hlist hitems hmax,
    fun _ hlist htopics hmax => unsubscribe_fills halloc hlist htopics hmax⟩

/-- Two topics, one of them empty. -/
theorem lists_roundTrip_two :
    Fills .linux ⟨20000, true, true⟩ (.subscribe 7 [(⟨[0x61, 0x62], by decide⟩, 2), (.empty, 0)])
        (.subscribe 7 [([0x61, 0x62], 2), ([], 0)]) ∧
      Fills .linux ⟨20000, true, true⟩ (.unsubscribe 7 [⟨[0x61, 0x62], by decide⟩, .empty])
        (.unsubscribe 7 [[0x61, 0x62], []]) :=
  ⟨(lists_roundTrip .linux ⟨20000, true, true⟩ ⟨by decide, rfl⟩ 7).1 [(⟨[0x61, 0x62], by decide⟩, 2),
    (.empty, 0)]
      (by decide) (by decide) (by decide),
    (lists_roundTrip .linux ⟨20000, true, true⟩ ⟨by decide, rfl⟩ 7).2 [⟨[0x61, 0x62], by decide⟩, .empty]
      (by decide) (by decide) (by decide)⟩

end Packet

end EspMqttClient
