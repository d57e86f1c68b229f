/-
  The limits of a packet.

  A topic has between 1 and 65535 bytes, a remaining length is at most 268435455 and a quality of
  service at most 2.  Within these limits a constructor builds a well-formed packet
  (`fills_of_limits`).  It does not look at them: with memory it succeeds whatever it is called
  with, so it never builds a malformed packet silently if and only if there is no memory or the
  request is within the limits (`neverMalformed_iff`).
-/
import EspMqttClient.Packets.Equiv.Lists

namespace EspMqttClient

namespace Packet

open Grammar

variable {cfg : Config}

namespace Request

/-! ### Limits -/

def topics : Request → List CString
  | publish _ topic _ _ _ => [topic]
  | subscribe _ list => list.map Prod.fst
  | unsubscribe _ list => list

/-- The qualities of service. -/
def qualities : Request → List Byte
  | publish _ _ _ qos _ => [qos]
  | subscribe _ list => list.map Prod.snd
  | unsubscribe _ _ => []

/-- What a packet can be built for. -/
structure Encodable (request : Request) : Prop where
  topics : ∀ topic ∈ request.topics, topic.length ≤ 65535
  length : request.length ≤ 268435455
  qualities : ∀ qos ∈ request.qualities, qos ≤ 2

/-- The limits: what a packet can be built for, and no topic is empty. -/
structure WithinLimits (request : Request) : Prop extends Encodable request where
  nonempty : ∀ topic ∈ request.topics, topic.bytes ≠ []

/-- What the functions of the client call the constructors with: a packet id that is not 0, and a topic at
least. -/
def FromApi : Request → Prop
  | publish packetId _ _ _ _ => packetId ≠ 0
  | subscribe packetId list => packetId ≠ 0 ∧ list ≠ []
  | unsubscribe packetId list => packetId ≠ 0 ∧ list ≠ []

/-- What the packet is to say. -/
def message : Request → Message
  | publish packetId topic payload qos retain =>
    .publish false qos retain topic.bytes (if qos = 0 then none else some packetId.toNat) payload
  | subscribe packetId list => .subscribe packetId.toNat (list.map fun item => (item.1.bytes, item.2))
  | unsubscribe packetId list => .unsubscribe packetId.toNat (list.map CString.bytes)

end Request

/-! ### PUBLISH -/

/-- The bytes of a PUBLISH behind its fixed header. -/
def publishBody (packetId : UInt16) (topic : CString) (payload : List Byte) (qos : Byte) : List Byte :=
  stringBytes topic ++ (idBytes packetId qos ++ payload)

theorem length_publishBody (packetId : UInt16) (topic : CString) (payload : List Byte) (qos : Byte) :
    (publishBody packetId topic payload qos).length = publishRemainingLength topic payload.length qos := by
  simp only [publishBody, List.length_append, length_stringBytes, length_idBytes, publishRemainingLength]
  omega

/-- What the grammar makes of the first byte. -/
theorem publishByte_spec {qos : Byte} (hqos : qos ≤ 2) (retain : Bool) :
    body (publishByte qos retain) = Grammar.publish (publishByte qos retain) ∧
      (publishByte qos retain &&& 0x06) >>> 1 = qos ∧ publishByte qos retain &&& 0x08 = 0 ∧
      (decide (publishByte qos retain &&& 0x01 ≠ 0)) = retain := by
  rcases qos_cases hqos with rfl | rfl | rfl <;> cases retain <;>
    exact ⟨by rw [body, if_neg (by decide), if_neg (by decide), if_neg (by decide), if_pos (by decide)],
      by decide⟩

theorem decodes_idBytes (packetId : UInt16) (qos : Byte) :
    (Decoder.optional (decide (qos ≠ 0)) number).Decodes (idBytes packetId qos)
      (if qos = 0 then none else some packetId.toNat) := by
  by_cases hqos : qos = 0
  · simp only [hqos, idBytes, ne_eq, not_true_eq_false, decide_false, if_true]
    exact Decoder.decodes_pure none
  · simp only [hqos, idBytes, ne_eq, not_false_eq_true, decide_true, if_false]
    exact (decodes_bigEndian packetId).map some

theorem message_publish (packetId : UInt16) {topic : CString} {payload : List Byte} {qos : Byte} (retain : Bool)
    (hqos : qos ≤ 2) (htopic : topic.length ≤ 65535)
    (hmax : publishRemainingLength topic payload.length qos ≤ 268435455) :
    Grammar.message.whole (publishByte qos retain ::
        (encodeRemainingLength (publishBody packetId topic payload qos).length ++
          publishBody packetId topic payload qos)) =
      some (Request.publish packetId topic payload qos retain).message := by
  obtain ⟨hbody, hqosbits, hdup, hretain⟩ := publishByte_spec hqos retain
  rw [← length_publishBody packetId] at hmax
  rw [Decoder.whole_eq_some, message_apply _ hmax, hbody, Grammar.publish]
  rw [Decoder.ensure_apply ⟨by rw [hqosbits]; exact hqos, fun _ => hdup⟩, publishBody,
    (decodes_stringBytes htopic).apply, hqosbits, (decodes_idBytes packetId qos).apply, Decoder.rest_apply]
  simp only [hdup, ne_eq, not_true_eq_false, decide_false, Request.message, Decoder.pure_apply] at hretain ⊢
  rw [hretain]

theorem publish_holds {packetId : UInt16} {topic : CString} {payload : List Byte} {qos : Byte} {retain : Bool}
    {b : Buffer Byte} (hqos : qos ≤ 2) (htopic : topic.length ≤ 65535)
    (hmax : publishRemainingLength topic payload.length qos ≤ 268435455)
    (h : b.Holds (1 + (encodeRemainingLength (publishRemainingLength topic payload.length qos)).length +
      publishRemainingLength topic payload.length qos) []) :
    ((Request.publish packetId topic payload qos retain).write cfg b).Holds
      (1 + (encodeRemainingLength (publishRemainingLength topic payload.length qos)).length +
        publishRemainingLength topic payload.length qos)
      (publishHeaderBytes packetId topic payload.length qos retain ++ payload) := by
  have hlength := length_publishHeaderBytes packetId topic payload.length qos retain
  have hheader := fillPublishHeader_spec packetId retain h hqos htopic hmax (by omega)
  rw [Request.write, publishLength_eq hmax]
  exact hheader.put payload (by omega)

/-! ### Within the limits -/

/-- **What can be encoded is encoded.** -/
theorem fills_of_encodable {alloc : Alloc} (halloc : Grants cfg alloc) {request : Request}
    (hencodable : request.Encodable)
    (hapi : request.FromApi) : Fills cfg alloc request request.message := by
  obtain ⟨htopics, hmax, hqualities⟩ := hencodable
  cases request with
  | publish packetId topic payload qos retain =>
    have hqos : qos ≤ 2 := hqualities qos List.mem_cons_self
    have htopic : topic.length ≤ 65535 := htopics topic List.mem_cons_self
    have hmessage := message_publish packetId retain hqos htopic hmax
    rw [length_publishBody] at hmessage
    have hbytes : publishHeaderBytes packetId topic payload.length qos retain ++ payload =
        publishByte qos retain ::
        (encodeRemainingLength (publishRemainingLength topic payload.length qos) ++
          publishBody packetId topic payload qos) := by
      simp [publishHeaderBytes, publishBody]
    refine fills_of_holds halloc (fun b hb => publish_holds hqos htopic hmax (allocate_holds hmax hb)) ?_ ?_
    · rw [List.length_append, length_publishHeaderBytes]
    · rw [hbytes, hmessage]
  | subscribe packetId list =>
    refine subscribe_fills halloc hapi.2 (fun item hitem => ⟨?_, ?_⟩) hmax
    · exact htopics item.1 (List.mem_map_of_mem hitem)
    · exact hqualities item.2 (List.mem_map_of_mem hitem)
  | unsubscribe packetId list =>
    exact unsubscribe_fills halloc hapi.2 htopics hmax

/-! ### The condition -/

/-- No malformed packet is built silently: there is an error, or all writes are inside the buffer and the
buffer is one well-formed packet of `size()` bytes, whose topics, remaining length and qualities are
within what can be encoded. -/
def NeverMalformed (cfg : Config) (alloc : Alloc) (request : Request) : Prop :=
  (request.build cfg alloc).1 ≠ .SUCCESS ∨
    ((∀ b, allocate cfg alloc (cfg.wrap request.length) true = some b →
        (request.write cfg b).pos ≤ (request.write cfg b).data.length) ∧
      (request.build cfg alloc).2.data.length = (request.build cfg alloc).2.size ∧
      WellFormed (request.build cfg alloc).2.data ∧ request.Encodable)

theorem build_of_grants {alloc : Alloc} (halloc : Grants cfg alloc) (request : Request) :
    (request.build cfg alloc).1 = .SUCCESS := by
  obtain ⟨b, hb⟩ := allocate_of_grants halloc (cfg.wrap request.length)
  rw [Request.build_eq, hb]
  rfl

theorem build_of_not_grants {alloc : Alloc} (halloc : ¬ Grants cfg alloc) (request : Request) :
    (request.build cfg alloc).1 = .OUT_OF_MEMORY := by
  rw [Request.build_eq, allocate_of_not_grants halloc]

/-- A packet says nothing illegal if and only if no topic is empty. -/
theorem legal_message_iff {request : Request} (hapi : request.FromApi) :
    request.message.Legal ↔ ∀ topic ∈ request.topics, topic.bytes ≠ [] := by
  have hne : ∀ {packetId : UInt16}, packetId ≠ 0 → packetId.toNat ≠ 0 := by
    intro packetId hid hzero
    exact hid (UInt16.toNat_inj.mp hzero)
  cases request with
  | publish packetId topic payload qos retain =>
    have hid : (if qos = 0 then none else some packetId.toNat) ≠ some 0 := by
      split_ifs
      · simp
      · exact fun h => hne hapi (Option.some.inj h)
    simp [Request.message, Message.Legal, Request.topics, hid]
  | subscribe packetId list =>
    constructor
    · rintro ⟨-, hall⟩ topic htopic
      obtain ⟨item, hitem, rfl⟩ := List.mem_map.mp htopic
      exact hall _ (List.mem_map_of_mem hitem)
    · intro hall
      refine ⟨hne hapi.1, fun filter hfilter => ?_⟩
      obtain ⟨item, hitem, rfl⟩ := List.mem_map.mp hfilter
      exact hall item.1 (List.mem_map_of_mem hitem)
  | unsubscribe packetId list => simp [Request.message, Message.Legal, Request.topics, hne hapi.1]

/-- **Exactly within the limits, or without memory, no malformed packet is built silently.**  The limits are on
lengths, numbers and qualities; the bytes of a topic are taken as they are. -/
theorem neverMalformed_iff (cfg : Config) (alloc : Alloc) (request : Request) (hapi : request.FromApi) :
    NeverMalformed cfg alloc request ↔ ¬ Grants cfg alloc ∨ request.WithinLimits := by
  by_cases halloc : Grants cfg alloc
  · -- the constructor succeeds
    have hsuccess := build_of_grants halloc request
    have hlimits : NeverMalformed cfg alloc request ↔ request.WithinLimits := by
      constructor
      · -- what the packet is decoded as is what was asked for
        rintro (hfail | ⟨-, -, ⟨m, hm, hlegal⟩, hencodable⟩)
        · exact absurd hsuccess hfail
        · obtain ⟨packet, b, -, hbuild, -, -, -, -, hwhole⟩ := fills_of_encodable halloc hencodable hapi
          rw [hbuild, hwhole] at hm
          obtain rfl := Option.some.inj hm
          exact ⟨hencodable, (legal_message_iff hapi).mp hlegal⟩
      · rintro ⟨hencodable, hnonempty⟩
        obtain ⟨packet, b, hb, hbuild, -, hdata, hpos, hsize, hwhole⟩ :=
          fills_of_encodable halloc hencodable hapi
        refine .inr ⟨?_, ?_, ?_, hencodable⟩
        · intro b' hb'
          obtain rfl := Option.some.inj (hb.symm.trans hb')
          rw [hpos, ← hdata, hsize]
        · rw [hbuild]
          exact hsize
        · rw [hbuild]
          exact ⟨_, hwhole, (legal_message_iff hapi).mpr hnonempty⟩
    rw [hlimits]
    exact ⟨.inr, fun h => h.resolve_left fun hno => hno halloc⟩
  · -- without memory there is an error
    refine ⟨fun _ => .inl halloc, fun _ => .inl ?_⟩
    rw [build_of_not_grants halloc]
    decide

/-- A message of quality 1. -/
theorem neverMalformed_iff_publish :
    NeverMalformed .linux ⟨20000, true, true⟩ (.publish 7 ⟨[0x61], by decide⟩ [0, 1] 1 false) ↔
      ¬ Grants .linux ⟨20000, true, true⟩ ∨
        (Request.publish 7 ⟨[0x61], by decide⟩ [0, 1] 1 false).WithinLimits :=
  neverMalformed_iff .linux ⟨20000, true, true⟩ (.publish 7 ⟨[0x61], by decide⟩ [0, 1] 1 false)
    (by decide : (7 : UInt16) ≠ 0)

/-- A message of quality 3 is built as if it could be sent. -/
theorem not_neverMalformed_all : ¬ ∀ (alloc : Alloc) (request : Request), request.FromApi →
    NeverMalformed .linux alloc request := by
  intro h
  have hapi : (Request.publish 1 ⟨[0x61], by decide⟩ [0x62] 3 false).FromApi :=
    (by decide : (1 : UInt16) ≠ 0)
  rcases h ⟨20000, true, true⟩ _ hapi with hfail | ⟨-, -, -, hencodable⟩
  · exact hfail (by decide)
  · exact absurd (hencodable.qualities 3 List.mem_cons_self) (by decide)

end Packet

end EspMqttClient
