/-
  What comes in of what a server sends.

  The packets of the server that came in as a whole are read off a log: those of which all bytes were consumed,
  connection by connection (`Log.receivedPackets`).  A parser reports the packets that it comes to the end of, in
  slices or not, and they mean the same to the server and to the client (`signal_agrees`, `Reads.agrees`).
-/
import EspMqttClient.MqttClient.Equiv.Deliveries
import EspMqttClient.Packets.Equiv.ServerPacket

namespace EspMqttClient

/-! ### Packets and reports -/

/-- The packets that were reported. -/
def Event.reports : Event → List Parser.Report
  | .packet report => [report]
  | _ => []

namespace Log

/-- How many times the transport was told to connect. -/
def connections (log : Log) : ℕ := log.countP (·.event.isTransportConnect)

/-- The packets that were reported in this connection, oldest first. -/
def reports : Log → List Parser.Report := Trace.gather (·.event.isTransportConnect) (·.event.reports)

section Server

/-! `sent` says which packets the server sends in each connection, the first one being number 1. -/

variable (sent : ℕ → List ServerPacket)

/-- What is read in a connection is what the server sends in it, as far as it came. -/
def IsServed (log : Log) : Prop :=
  Trace.Always (fun r past =>
    Log.received (r :: past) <+: (sent (Log.connections (r :: past))).flatMap ServerPacket.bytes) log

/-- The packets of the server that came in as a whole in earlier connections, oldest first. -/
def receivedBefore : Log → List ServerPacket
  | [] => []
  | r :: past =>
    if r.event.isTransportConnect then
      receivedBefore past ++ ServerPacket.complete (Log.consumed past).length (sent (Log.connections past))
    else receivedBefore past

/-- The packets of the server that came in as a whole, oldest first. -/
def receivedPackets (log : Log) : List ServerPacket :=
  log.receivedBefore sent ++ ServerPacket.complete log.consumed.length (sent log.connections)

end Server

end Log

/-- The last slice of a message. -/
structure Publish.EndsIn (m : Publish) (report : Parser.Report) : Prop where
  packetType : report.packetType = Parser.sentByte m.qos m.retain m.dup
  topic : report.topic = m.topic.takeWhile (· ≠ 0)
  packetId : m.qos ≠ 0 → report.packetId = m.packetId
  total : report.total = m.payload.length
  payload : report.payload = m.payload.drop report.index
  last : report.index + report.payload.length = report.total

/-- A packet means the same to the server and to the client. -/
theorem signal_agrees {packet : ServerPacket} {r s : Parser.Result} (hreported : packet.IsReported r.report)
    (hends : r.EndsWith s) :
    Option.Rel (Signal.Agrees Publish.EndsIn) packet.signal s.report.signal := by
  have htype : s.report.packetType = r.report.packetType := by rw [hends.report]
  have hid : s.report.packetId = r.report.packetId := by rw [hends.report]
  have hother : ∀ {type : MQTTPacketType}, r.report.packetType &&& 0xF0 = type → type ≠ PacketType.PUBLISH →
      s.report.signal = if type = PacketType.PUBREL then some (.release r.report.packetId) else none := by
    rintro type rfl hpublish
    rw [← htype] at hpublish ⊢
    rw [signal_of_other hpublish, hid]
  cases packet with
  | connack =>
    rw [hother (by rw [hreported.1]) (by decide), if_neg (by decide)]
    exact .none
  | suback m =>
    rw [hother (by rw [hreported.type]) (by decide), if_neg (by decide)]
    exact .none
  | pingresp =>
    have hpingresp : r.report.packetType = PacketType.PINGRESP := hreported
    rw [hother (by rw [hpingresp]) (by decide), if_neg (by decide)]
    exact .none
  | ack type packetId isAck packetId_ne =>
    obtain ⟨hack, hpacketId⟩ := hreported
    have hpublish : type ≠ PacketType.PUBLISH := by
      rcases isAck with (rfl | rfl | rfl | rfl) | rfl <;> decide
    rw [hother hack hpublish, hpacketId, ServerPacket.signal]
    split_ifs
    · exact .some (.release packetId)
    · exact .none
  | publish m =>
    obtain ⟨hpublish, htopic, hpacketId, htotal, hindex, hpayload⟩ := hreported
    have hsub := hends.index_sub_le
    have hrest := hends.payload
    rw [hindex, Nat.sub_zero, hpayload] at hsub hrest
    have hlast : s.report.index + s.report.payload.length = s.report.total := by
      have hsame : s.report.total = r.report.total := by rw [hends.report]
      rw [hsame, htotal, hrest, List.length_drop]
      omega
    have hqos : publishQos s.report.packetType = m.qos := by
      rw [htype, hpublish]
      exact (Parser.sentByte_spec m.qos_le m.retain m.dup).2.2.1
    rw [ServerPacket.signal]
    split_ifs with htwo
    · have hne : m.qos ≠ 0 := by
        rw [htwo]
        decide
      rw [signal_of_isFinal (decide_eq_true ⟨hqos.trans htwo, hlast⟩), hid, hpacketId hne]
      refine .some (.message m.packetId
        ⟨htype.trans hpublish, ?_, fun _ => hid.trans (hpacketId hne), ?_, hrest, hlast⟩)
      · rw [hends.report]
        exact htopic
      · rw [hends.report]
        exact htotal
    · have hstarts : s.report.packetType &&& 0xF0 = PacketType.PUBLISH := by
        rw [htype, hpublish]
        exact (Parser.sentByte_spec m.qos_le m.retain m.dup).1.1
      have hnone : s.report.signal = none := by
        rw [Parser.Report.signal, if_neg, if_neg]
        · rw [hstarts]
          decide
        · intro hfinal
          exact htwo (hqos.symm.trans (of_decide_eq_true hfinal).1)
      rw [hnone]
      exact .none

/-! ### The parser -/

namespace Parser

variable {cfg : Config} {p q q' : Parser cfg} {bytes input : List Byte} {rs : List Result} {n : ℕ}

/-- A parser that was `p` at first consumed these bytes, and these are its results. -/
structure Reads (p : Parser cfg) (bytes : List Byte) (rs : List Result) : Prop where
  results : merge rs = merge (walk 0 0 p bytes).results
  consumed : (walk 0 0 p bytes).consumed = bytes.length
  unfinished : ∀ r ∈ rs, r.complete = false → r.report.signal = none

/-- It is as good as `q` now. -/
structure Reaches (p : Parser cfg) (bytes : List Byte) (q : Parser cfg) : Prop where
  error : (walk 0 0 p bytes).error = false
  parser : (walk 0 0 p bytes).parser.Similar q

theorem reads_nil (p : Parser cfg) : p.Reads [] [] := ⟨rfl, rfl, fun _ hr => absurd hr List.not_mem_nil⟩

theorem reaches_nil (p : Parser cfg) : p.Reaches [] p := ⟨rfl, .refl p⟩

/-- What is not the last slice is nothing to an exchange. -/
theorem signal_of_incomplete (hq : q.Sound) (hparse : q.parseInput input = (.packet, n, q'))
    (hincomplete : q'.parse ≠ .fixedHeader) : q'.report.signal = none := by
  have hpublish : q'.report.packetType &&& 0xF0 = PacketType.PUBLISH :=
    hq.parseInput_incomplete hparse hincomplete
  have hsound : q'.Sound := by
    have hsound := (hq.parseInput input).1
    rwa [hparse] at hsound
  rw [Report.signal, if_neg, if_neg]
  · rw [hpublish]
    decide
  · intro hfinal
    have hlast := (of_decide_eq_true hfinal).2
    rw [hsound.length_payload] at hlast
    exact parseInput_incomplete hparse hincomplete hlast

/-- A call that has no result yet. -/
theorem Reads.awaitData (h : p.Reads bytes rs) (hreaches : p.Reaches bytes q) (hp : p.Ok) (hq : q.Ok)
    (hparse : q.parseInput input = (.awaitData, n, q')) :
    p.Reads (bytes ++ input.take n) rs ∧ p.Reaches (bytes ++ input.take n) q' := by
  obtain ⟨hlength, hwalk⟩ := walk_of_awaitData hq hparse bytes.length
  have halike := walk_continue hp hreaches.error hreaches.parser input
  rw [h.consumed, hwalk] at halike
  rw [hlength, List.take_length]
  refine ⟨⟨?_, ?_, h.unfinished⟩, halike.error, halike.parser⟩
  · rw [h.results, halike.results]
    exact congrArg merge (List.append_nil _).symm
  · rw [halike.consumed, List.length_append, ← hlength]
    rfl

/-- A call that returns a packet. -/
theorem Reads.packet (h : p.Reads bytes rs) (hreaches : p.Reaches bytes q) (hp : p.Ok) (hq : q.Sound)
    (hparse : q.parseInput input = (.packet, n, q')) :
    ∃ r : Result, r.report = q'.report ∧ p.Reads (bytes ++ input.take n) (rs ++ [r]) ∧
      p.Reaches (bytes ++ input.take n) q' := by
  obtain ⟨hle, q'', hsimilar, hreport, hwalk⟩ := walk_of_packet hq.toOk hparse bytes.length
  have halike := walk_continue hp hreaches.error hreaches.parser (input.take n)
  rw [h.consumed, hwalk] at halike
  refine ⟨q''.result (bytes.length + n), hreport, ⟨?_, ?_, ?_⟩, halike.error, halike.parser.trans hsimilar⟩
  · rw [halike.results]
    exact slices.coalesce_append h.results rfl
  · rw [halike.consumed, List.length_append, List.length_take_of_le hle]
    rfl
  · intro r hr hincomplete
    rcases List.mem_append.mp hr with hr | hr
    · exact h.unfinished r hr hincomplete
    · rw [List.mem_singleton] at hr
      subst hr
      rw [show (q''.result (bytes.length + n)).report = q'.report from hreport]
      refine signal_of_incomplete hq hparse fun heq => ?_
      rw [← hsimilar.parse] at heq
      exact absurd (decide_eq_true heq) (Bool.eq_false_iff.mp hincomplete)

/-- A call that ends with an error. -/
theorem Reads.protocolError (h : p.Reads bytes rs) (hreaches : p.Reaches bytes q) (hp : p.Ok) (hq : q.Ok)
    (hparse : q.parseInput input = (.protocolError, n, q')) : p.Reads (bytes ++ input.take n) rs := by
  obtain ⟨hle, hwalk⟩ := walk_of_error hq hparse bytes.length
  have halike := walk_continue hp hreaches.error hreaches.parser (input.take n)
  rw [h.consumed, hwalk] at halike
  refine ⟨?_, ?_, h.unfinished⟩
  · rw [h.results, halike.results]
    exact congrArg merge (List.append_nil _).symm
  · rw [halike.consumed, List.length_append, List.length_take_of_le hle]

/-- **The packets that came to their end** are those of the server. -/
theorem Reads.agrees (h : p.Reads bytes rs) (hp : p.parse = .fixedHeader) {sent : List ServerPacket}
    (hfits : ∀ packet ∈ sent, packet.Fits cfg) (hsent : bytes <+: sent.flatMap ServerPacket.bytes) :
    List.Forall₂ (Signal.Agrees Publish.EndsIn)
      ((ServerPacket.complete bytes.length sent).filterMap (·.signal))
      ((rs.map (·.report)).filterMap (·.signal)) := by
  have hstream := ServerPacket.walk_stream hfits hsent hp h.consumed
  have hends := endsWith_merge rs
  rw [h.results] at hends
  -- slices that are not the last ones do not count
  have hcomplete : (rs.map (·.report)).filterMap (·.signal) =
      (rs.filter (·.complete)).filterMap (·.report.signal) := by
    rw [List.filterMap_map, List.filterMap_filter]
    refine List.filterMap_congr fun r hr => ?_
    split_ifs with hlast
    · rfl
    · exact h.unfinished r hr (Bool.eq_false_iff.mpr hlast)
  rw [hcomplete]
  generalize (merge (walk 0 0 p bytes).results).filter (·.complete) = ends at hstream hends
  generalize rs.filter (·.complete) = lasts at hends
  generalize ServerPacket.complete bytes.length sent = packets at hstream
  induction hstream generalizing lasts with
  | nil =>
    cases hends
    exact .nil
  | cons hreported _ ih =>
    cases hends with
    | cons hlast hlasts =>
      have hsignal := signal_agrees hreported hlast
      rw [List.filterMap_cons, List.filterMap_cons]
      generalize ServerPacket.signal _ = a at hsignal ⊢
      generalize Report.signal _ = b at hsignal ⊢
      cases hsignal with
      | none => exact ih _ hlasts
      | some hagrees => exact .cons hagrees (ih _ hlasts)

end Parser

end EspMqttClient
