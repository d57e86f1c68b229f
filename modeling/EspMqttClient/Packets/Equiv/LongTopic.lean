/-
  Topics that are too long.

  The parser stores `maxTopicLength` bytes of a topic and then takes what comes next for the packet id and the
  payload, although the topic goes on.  So a PUBLISH with a longer topic ends for the parser as many bytes too
  early as the topic is too long (`merge_longTopic`), in whatever buffers it comes (`not_truncates`).
-/
import EspMqttClient.Packets.Equiv.Publish
import EspMqttClient.Packets.Equiv.Slices

namespace EspMqttClient

namespace Parser

variable {cfg : Config}

/-- Of a PUBLISH only the topic is cut off: it is reported where it ends, with the first bytes of its topic, and
what follows is parsed as if it stood alone. -/
def Truncates (m : Publish) (p : Parser cfg) (buffers rest : List (List Byte)) : Prop :=
  let fed := feed 0 p buffers
  let alone := feed m.bytes.length p.reset rest
  ∃ r : Report, r.packetType = sentByte m.qos m.retain m.dup ∧ r.topic = m.topic.take cfg.maxTopicLength ∧
    (m.qos ≠ 0 → r.packetId = m.packetId) ∧ r.payload = m.payload ∧
    merge fed.results = ⟨r, m.bytes.length, true⟩ :: merge alone.results ∧ fed.error = alone.error

/-- What the parser makes of a PUBLISH: behind the bytes it stored of the topic it takes the next ones for the
packet id and the payload. -/
theorem merge_longTopic (m : Publish) (htopic : 1 ≤ m.topic.length) (hnul : 0 ∉ m.topic.drop cfg.maxTopicLength)
    {p : Parser cfg} (hp : p.parse = .fixedHeader) {buffers : List (List Byte)} {after : List Byte}
    (hflat : buffers.flatten = m.bytes ++ after) :
    ∃ rs, merge (feed 0 p buffers).results =
      ⟨(m.header htopic hnul).report ((m.behind cfg).take m.payload.length),
        m.bytes.length - (m.topic.length - cfg.maxTopicLength), true⟩ :: rs := by
  have hlength := m.length_behind cfg
  have htake : ((m.behind cfg).take m.payload.length).length = m.payload.length :=
    List.length_take_of_le (by omega)
  have hbytes : buffers.flatten = (m.header htopic hnul).bytes ++ ((m.behind cfg).take m.payload.length ++
      ((m.behind cfg).drop m.payload.length ++ after)) := by
    rw [hflat, m.bytes_eq htopic hnul, ← List.append_assoc (List.take _ _), List.take_append_drop,
      List.append_assoc]
  obtain ⟨q, -, hq, hwalk⟩ := walk_publish (m.header htopic hnul) hp
    (htake.trans (m.total_header htopic hnul).symm) 0 ((m.behind cfg).drop m.payload.length ++ after)
  have halike := feed_walk buffers 0 (ok_of_fixedHeader hp)
  rw [hbytes, hwalk, Fed.cons, htake] at halike
  have hstop : 0 + (m.header htopic hnul).bytes.length + m.payload.length =
      m.bytes.length - (m.topic.length - cfg.maxTopicLength) := by
    rw [m.bytes_eq htopic hnul, List.length_append, hlength]
    omega
  rw [hstop] at halike
  exact ⟨_, halike.results.trans (merge_cons_of_complete rfl _)⟩

/-- A topic is just cut off only if nothing is cut off. -/
theorem Truncates.topic_le {m : Publish} {p : Parser cfg} {buffers rest : List (List Byte)}
    (h : Truncates m p buffers rest) (hnul : 0 ∉ m.topic) (hp : p.parse = .fixedHeader)
    (hflat : buffers.flatten = m.bytes ++ rest.flatten) : m.topic.length ≤ cfg.maxTopicLength := by
  by_contra hlong
  obtain ⟨r, -, -, -, -, hresults, -⟩ := h
  have hbytes : m.topic.length ≤ m.bytes.length := by
    simp only [Publish.bytes, Publish.body, List.length_cons, List.length_append]
    omega
  obtain ⟨rs, hfirst⟩ := merge_longTopic m (by omega) (fun h => hnul (List.mem_of_mem_drop h)) hp hflat
  rw [hfirst] at hresults
  have hstop : m.bytes.length - (m.topic.length - cfg.maxTopicLength) = m.bytes.length :=
    congrArg Result.stop (List.cons.inj hresults).1
  omega

/-- **A topic that is too long** is never just cut off. -/
theorem not_truncates (m : Publish) (hlong : cfg.maxTopicLength < m.topic.length) (hnul : 0 ∉ m.topic)
    {p : Parser cfg} (hp : p.parse = .fixedHeader) {buffers rest : List (List Byte)}
    (hflat : buffers.flatten = m.bytes ++ rest.flatten) : ¬ Truncates m p buffers rest :=
  fun h => absurd (h.topic_le hnul hp hflat) (Nat.not_le.mpr hlong)

/-- A PUBLISH whose topic is one byte too long for the default. -/
def longPublish : Publish where
  qos := 2
  retain := false
  dup := false
  length := [0x87, 0x01]
  topic := .replicate 129 0x61
  packetId := 7
  payload := [1, 2]
  qos_le := by decide
  packetId_ne := by decide
  topic_le := by decide +kernel
  isLengthField := by decide
  decode_length := by decide +kernel

theorem not_truncates_long :
    ¬ Truncates longPublish (new .linux) [longPublish.bytes, [0xD0, 0]] [[0xD0, 0]] :=
  not_truncates longPublish (by decide +kernel) (by decide +kernel) rfl (by simp)

/-- It is reported one byte too early. -/
theorem not_truncates_all : ¬ ∀ (m : Publish) (p : Parser .linux) (buffers rest : List (List Byte)),
    Config.linux.maxTopicLength < m.topic.length → 0 ∉ m.topic → p.parse = .fixedHeader →
    buffers.flatten = m.bytes ++ rest.flatten → Truncates m p buffers rest := by
  intro h
  have hflat : [longPublish.bytes, [0xD0, 0]].flatten = longPublish.bytes ++ [[0xD0, 0]].flatten := by simp
  have htruncates := h longPublish (new .linux) [longPublish.bytes, [0xD0, 0]] [[0xD0, 0]] (by decide +kernel)
    (by decide +kernel) rfl hflat
  have hle := htruncates.topic_le (by decide +kernel) rfl hflat
  exact absurd hle (by decide +kernel)

end Parser

end EspMqttClient
