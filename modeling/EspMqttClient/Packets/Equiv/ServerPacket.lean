/-
  The packets of a server.

  At the start of a packet the parser reads it to its end and reports it once, but for a SUBACK with too many
  return codes, which is a protocol error (`ServerPacket.walk_bytes`).  So of the packets that a server sends one
  after the other it reports those of which all bytes came in, in their order (`walk_stream`).
-/
import EspMqttClient.Data.Handshake
import EspMqttClient.Packets.Equiv.Framing
import EspMqttClient.Packets.Equiv.Publish
import EspMqttClient.Packets.Equiv.Slices
import EspMqttClient.Packets.Equiv.Suback

namespace EspMqttClient

open EspMqttClient.Parser

/-- A packet as a server sends it.  An `ack` is one that consists of a packet id. -/
inductive ServerPacket
  | connack (sessionPresent : Bool) (returnCode : Fin 6)
  | publish (m : Publish)
  | ack (type : MQTTPacketType) (packetId : UInt16) (isAck : IsAck type ∨ type = PacketType.UNSUBACK)
      (packetId_ne : packetId ≠ 0)
  | suback (s : Suback)
  | pingresp

namespace ServerPacket

variable {cfg : Config}

def bytes : ServerPacket → List Byte
  | connack sessionPresent returnCode =>
    [PacketType.CONNACK, 2, if sessionPresent then 1 else 0, UInt8.ofNat returnCode]
  | publish m => m.bytes
  | ack type packetId _ _ => Packet.ackByte type :: 2 :: bigEndian packetId
  | suback s => s.bytes
  | pingresp => [PacketType.PINGRESP, 0]

/-- What a packet is in an exchange of quality 2. -/
def signal : ServerPacket → Option (Signal UInt16 Publish)
  | publish m => if m.qos = 2 then some (.message m.packetId m) else none
  | ack type packetId _ _ => if type = PacketType.PUBREL then some (.release packetId) else none
  | _ => none

/-- There is room for the topic. -/
def Fits (cfg : Config) : ServerPacket → Prop
  | publish m => 1 ≤ m.topic.length ∧ m.topic.length ≤ cfg.maxTopicLength
  | _ => True

instance (cfg : Config) : ∀ packet : ServerPacket, Decidable (packet.Fits cfg)
  | publish m => inferInstanceAs (Decidable (1 ≤ m.topic.length ∧ m.topic.length ≤ cfg.maxTopicLength))
  | connack .. => inferInstanceAs (Decidable True)
  | ack .. => inferInstanceAs (Decidable True)
  | suback .. => inferInstanceAs (Decidable True)
  | pingresp => inferInstanceAs (Decidable True)

/-- What a caller of `getPacket` is to read, if a PUBLISH is not cut. -/
def IsReported : ServerPacket → Report → Prop
  | connack sessionPresent returnCode, r => r.packetType = PacketType.CONNACK ∧
      r.sessionPresent = (if sessionPresent then 1 else 0) ∧ r.returnCode = UInt8.ofNat returnCode
  | publish m, r => r.packetType = sentByte m.qos m.retain m.dup ∧ r.topic = m.topic.takeWhile (· ≠ 0) ∧
      (m.qos ≠ 0 → r.packetId = m.packetId) ∧ r.total = m.payload.length ∧ r.index = 0 ∧ r.payload = m.payload
  | ack type packetId _ _, r => r.packetType &&& 0xF0 = type ∧ r.packetId = packetId
  | suback s, r => s.Reports r
  | pingresp, r => r.packetType = PacketType.PINGRESP

/-! ### One packet -/

/-- The parser on a CONNACK. -/
theorem walk_connack {p : Parser cfg} (hp : p.parse = .fixedHeader) {sessionPresent returnCode : Byte}
    (hsession : sessionPresent < 2) (hcode : returnCode ≤ 5) (start : ℕ) :
    ∃ (q : Parser cfg) (r : Report), walk start 0 p [PacketType.CONNACK, 2, sessionPresent, returnCode] =
        ⟨[⟨r, start + 4, true⟩], start + 4, false, q⟩ ∧ q.parse = .fixedHeader ∧
      r.packetType = PacketType.CONNACK ∧ r.sessionPresent = sessionPresent ∧ r.returnCode = returnCode := by
  have hfixed : p.fixedHeader PacketType.CONNACK = (.awaitData, { p with
      packet := { p.packet.reset with packetType := PacketType.CONNACK }
      parse := .remainingLengthFixed }) := rfl
  have htype : PacketType.CONNACK &&& 0xF0 = PacketType.CONNACK := by decide
  -- one state function after the other
  have h₁ := ok_of_fixedHeader hp
  have h₂ := h₁.call PacketType.CONNACK []
  rw [walk_byte h₁ (by simp [hp])]
  simp only [Parser.call, hp, hfixed] at h₂ ⊢
  have h₃ := h₂.call 2 []
  rw [walk_byte h₂ (by simp)]
  simp only [Parser.call, remainingLengthFixed, htype, show UInt8.toNat 2 = 2 from rfl, if_true, ne_eq,
    not_true_eq_false, if_false] at h₃ ⊢
  have h₄ := h₃.call sessionPresent []
  rw [walk_byte h₃ (by simp)]
  simp only [Parser.call, varHeaderConnack1, hsession, if_true] at h₄ ⊢
  rw [walk_byte h₄ (by simp)]
  simp only [Parser.call, varHeaderConnack2, hcode, if_true, walk]
  exact ⟨_, _, rfl, rfl, rfl, rfl, rfl⟩

/-- The parser on a PINGRESP. -/
theorem walk_pingresp {p : Parser cfg} (hp : p.parse = .fixedHeader) (start : ℕ) :
    ∃ (q : Parser cfg) (r : Report), walk start 0 p [PacketType.PINGRESP, 0] =
        ⟨[⟨r, start + 2, true⟩], start + 2, false, q⟩ ∧ q.parse = .fixedHeader ∧
      r.packetType = PacketType.PINGRESP := by
  have hfixed : p.fixedHeader PacketType.PINGRESP = (.awaitData, { p with
      packet := { p.packet.reset with packetType := PacketType.PINGRESP }
      parse := .remainingLengthNone }) := rfl
  have h₁ := ok_of_fixedHeader hp
  have h₂ := h₁.call PacketType.PINGRESP []
  rw [walk_byte h₁ (by simp [hp])]
  simp only [Parser.call, hp, hfixed] at h₂ ⊢
  rw [walk_byte h₂ (by simp)]
  simp only [Parser.call, remainingLengthNone, show UInt8.toNat 0 = 0 from rfl, if_true, walk]
  exact ⟨_, _, rfl, rfl, rfl⟩

/-- The parser on a PUBLISH that fits. -/
theorem walk_fitting (m : Publish) (hfits : (publish m).Fits cfg) {p : Parser cfg} (hp : p.parse = .fixedHeader)
    (start : ℕ) : ∃ (q : Parser cfg) (r : Report), walk start 0 p m.bytes =
        ⟨[⟨r, start + m.bytes.length, true⟩], start + m.bytes.length, false, q⟩ ∧ q.parse = .fixedHeader ∧
      (publish m).IsReported r := by
  obtain ⟨htopic, hle⟩ := hfits
  have hnul := m.nul_notMem_drop hle
  have hbytes : m.bytes = (m.header htopic hnul).bytes ++ (m.payload ++ []) := by
    rw [List.append_nil, m.bytes_eq htopic hnul, m.behind_of_le hle]
  have htotal := m.total_header htopic hnul
  obtain ⟨q, -, hparse, hwalk⟩ := walk_publish (m.header htopic hnul) hp htotal.symm start []
  obtain ⟨htype, htopic', htotal, hid⟩ := m.report_header htopic hle m.payload
  have hlength : start + (m.header htopic hnul).bytes.length + m.payload.length = start + m.bytes.length := by
    rw [hbytes, List.append_nil, List.length_append, Nat.add_assoc]
  rw [← hbytes, walk, hlength] at hwalk
  exact ⟨q, _, hwalk, hparse, htype, htopic', hid, htotal, rfl, rfl⟩

/-- **One packet** is read to its end and reported, or it is a protocol error before its end. -/
theorem walk_bytes {packet : ServerPacket} (hfits : packet.Fits cfg) {p : Parser cfg}
    (hp : p.parse = .fixedHeader) (start : ℕ) :
    (∃ (q : Parser cfg) (r : Report), walk start 0 p packet.bytes =
        ⟨[⟨r, start + packet.bytes.length, true⟩], start + packet.bytes.length, false, q⟩ ∧
      q.parse = .fixedHeader ∧ packet.IsReported r) ∨
    ∃ (q : Parser cfg) (n : ℕ), walk start 0 p packet.bytes = ⟨[], start + n, true, q⟩ ∧
      n < packet.bytes.length := by
  cases packet with
  | connack sessionPresent returnCode =>
    left
    have hsession : (if sessionPresent then 1 else 0 : Byte) < 2 := by cases sessionPresent <;> decide
    have hcode : ∀ code : Fin 6, UInt8.ofNat code ≤ 5 := by decide
    exact walk_connack hp hsession (hcode returnCode) start
  | publish m => exact .inl (walk_fitting m hfits hp start)
  | ack type packetId isAck packetId_ne =>
    left
    obtain ⟨q, r, hwalk, hparse, htype, hid, -⟩ := walk_ack hp isAck packetId_ne start
    exact ⟨q, r, hwalk, hparse, htype, hid⟩
  | suback s =>
    rcases Nat.lt_or_ge s.codes.length cfg.payloadBufferSize with hroom | hroom
    · left
      obtain ⟨q, r, hwalk, hparse, hreports, hcomplete, hstop⟩ := s.walk_bytes hp hroom start
      have hr : r = ⟨r.report, start + s.bytes.length, true⟩ := by
        rw [← hstop, ← hcomplete]
      rw [hr] at hwalk
      exact ⟨q, r.report, hwalk, hparse, hreports⟩
    · right
      obtain ⟨q, hwalk⟩ := s.walk_error hp hroom start
      refine ⟨q, s.length.length + 1, hwalk, ?_⟩
      simp only [bytes, Suback.bytes, List.length_cons, List.length_append, length_bigEndian]
      omega
  | pingresp => exact .inl (walk_pingresp hp start)

/-! ### One after the other -/

/-- The packets of which all bytes are among the first `n`. -/
def complete : ℕ → List ServerPacket → List ServerPacket
  | _, [] => []
  | n, packet :: packets =>
    if packet.bytes.length ≤ n then packet :: complete (n - packet.bytes.length) packets else []

/-- Behind the complete packets there is at most the beginning of one more. -/
theorem exists_rest {packets : List ServerPacket} {bs : List Byte} (h : bs <+: packets.flatMap bytes) :
    ∃ rest, bs = (complete bs.length packets).flatMap bytes ++ rest ∧ complete bs.length packets ⊆ packets ∧
      (rest = [] ∨ ∃ packet ∈ packets, rest <+: packet.bytes ∧ rest.length < packet.bytes.length) := by
  induction packets generalizing bs with
  | nil =>
    obtain rfl := List.prefix_nil.mp h
    exact ⟨[], rfl, List.Subset.refl _, .inl rfl⟩
  | cons packet packets ih =>
    rw [List.flatMap_cons] at h
    have hpacket : packet.bytes <+: packet.bytes ++ packets.flatMap bytes := List.prefix_append _ _
    rw [complete]
    split_ifs with hle
    · obtain ⟨bs, rfl⟩ := List.prefix_of_prefix_length_le hpacket h hle
      obtain ⟨rest, hbs, hsubset, hrest⟩ := ih ((List.prefix_append_right_inj _).mp h)
      rw [List.length_append, Nat.add_sub_cancel_left]
      refine ⟨rest, ?_, List.cons_subset_cons _ hsubset, ?_⟩
      · rw [List.flatMap_cons, List.append_assoc, ← hbs]
      · exact hrest.imp id fun ⟨next, hmem, hnext⟩ => ⟨next, List.mem_cons_of_mem _ hmem, hnext⟩
    · have hlt : bs.length < packet.bytes.length := Nat.lt_of_not_le hle
      exact ⟨bs, rfl, List.nil_subset _, .inr ⟨packet, List.mem_cons_self,
        List.prefix_of_prefix_length_le h hpacket hlt.le, hlt⟩⟩

/-- A result is behind bytes of the input. -/
theorem walk_stop_le (k : ℕ) {input : List Byte} (hk : input.length ≤ k) {p : Parser cfg} (h : p.Ok)
    (start : ℕ) : ∀ r ∈ (walk start 0 p input).results, r.stop ≤ start + input.length := by
  induction k generalizing input p start with
  | zero =>
    obtain rfl := List.length_eq_zero_iff.mp (Nat.le_zero.mp hk)
    exact fun r hr => absurd hr List.not_mem_nil
  | succ k ih =>
    rw [walk_parseInput h]
    cases input with
    | nil => exact fun r hr => absurd hr List.not_mem_nil
    | cons byte rest =>
      obtain ⟨hok, hpos, hle, -⟩ := h.parseInput byte rest
      generalize p.parseInput (byte :: rest) = c at hok hpos hle
      obtain ⟨result, n, q⟩ := c
      cases result with
      | awaitData => exact fun r hr => absurd hr List.not_mem_nil
      | protocolError => exact fun r hr => absurd hr List.not_mem_nil
      | packet =>
        dsimp only at hok hpos hle
        intro r hr
        have hdrop : ((byte :: rest).drop n).length = rest.length + 1 - n := List.length_drop
        rcases List.mem_cons.mp hr with rfl | hr
        · show start + n ≤ start + (rest.length + 1)
          omega
        · have hstop := ih (by rw [List.length_cons] at hk; omega) hok (start + n) r hr
          rw [List.length_cons]
          omega

/-- A packet is not reported before its last byte. -/
theorem walk_rest {packet : ServerPacket} (hfits : packet.Fits cfg) {p : Parser cfg}
    (hp : p.parse = .fixedHeader) {rest : List Byte} (hrest : rest <+: packet.bytes)
    (hlt : rest.length < packet.bytes.length) (start : ℕ) :
    firstPacketEnd (walk start 0 p rest).results = none := by
  obtain ⟨more, hmore⟩ := hrest
  have halike := walk_append more _ rest le_rfl start (ok_of_fixedHeader hp)
  have hends := halike.firstPacketEnd
  rw [hmore] at hends
  cases hend : firstPacketEnd (walk start 0 p rest).results with
  | none => rfl
  | some n =>
    exfalso
    obtain ⟨r, hr, hstop⟩ := Option.map_eq_some_iff.mp hend
    have hle := walk_stop_le _ le_rfl (ok_of_fixedHeader hp) start r (List.mem_of_find?_eq_some hr)
    -- what is behind does not change where the first one ends
    have hfirst : firstPacketEnd ((walk start 0 p rest).andThen fun start p => walk start 0 p more).results =
        some n := by
      rw [Fed.andThen]
      split_ifs
      · exact hend
      · rw [firstPacketEnd, List.find?_append, hr, Option.some_or, Option.map_some, hstop]
    rw [hfirst] at hends
    rcases walk_bytes hfits hp start with ⟨q, report, hwalk, -⟩ | ⟨q, m, hwalk, -⟩
    · rw [hwalk] at hends
      have heq : start + packet.bytes.length = n := Option.some.inj hends
      omega
    · rw [hwalk] at hends
      cases hends

/-- Packets that fit, all bytes of which are consumed, are reported one by one. -/
theorem walk_packets {packets : List ServerPacket} (hfits : ∀ packet ∈ packets, packet.Fits cfg)
    {p : Parser cfg} (hp : p.parse = .fixedHeader) (rest : List Byte) (start : ℕ)
    (hconsumed : (walk start 0 p (packets.flatMap bytes ++ rest)).consumed =
      start + (packets.flatMap bytes ++ rest).length) :
    ∃ (q : Parser cfg) (rs : List Result) (stop : ℕ), q.parse = .fixedHeader ∧
      List.Forall₂ (fun packet r => packet.IsReported r.report) packets rs ∧ (∀ r ∈ rs, r.complete) ∧
      merge (walk start 0 p (packets.flatMap bytes ++ rest)).results =
        rs ++ merge (walk stop 0 q rest).results := by
  induction packets generalizing p start with
  | nil => exact ⟨p, [], start, hp, .nil, fun r hr => absurd hr List.not_mem_nil, rfl⟩
  | cons packet packets ih =>
    rw [List.forall_mem_cons] at hfits
    rw [List.flatMap_cons, List.append_assoc] at hconsumed ⊢
    have halike := walk_append (packets.flatMap bytes ++ rest) _ packet.bytes le_rfl start (ok_of_fixedHeader hp)
    rw [List.length_append, halike.consumed] at hconsumed
    have hresults := halike.results
    rcases walk_bytes hfits.1 hp start with ⟨q, report, hwalk, hq, hreported⟩ | ⟨q, n, hwalk, hlt⟩
    · rw [hwalk, Fed.andThen, if_neg Bool.false_ne_true] at hconsumed hresults
      dsimp only at hconsumed hresults
      obtain ⟨q', rs, stop, hq', hrs, hall, hmerge⟩ := ih hfits.2 hq (start + packet.bytes.length) (by
        rw [hconsumed, Nat.add_assoc])
      refine ⟨q', ⟨report, start + packet.bytes.length, true⟩ :: rs, stop, hq', .cons hreported hrs, ?_, ?_⟩
      · rw [List.forall_mem_cons]
        exact ⟨rfl, hall⟩
      · rw [hresults, List.singleton_append, merge_cons_of_complete rfl, hmerge, List.cons_append]
    · -- the parser stops before the end of the packet
      rw [hwalk, Fed.andThen, if_pos rfl] at hconsumed
      dsimp only at hconsumed
      omega

/-- **What a server sends**: the packets of which all bytes came in are reported, and none twice. -/
theorem walk_stream {sent : List ServerPacket} (hfits : ∀ packet ∈ sent, packet.Fits cfg) {bs : List Byte}
    (hsent : bs <+: sent.flatMap bytes) {p : Parser cfg} (hp : p.parse = .fixedHeader)
    (hconsumed : (walk 0 0 p bs).consumed = bs.length) :
    List.Forall₂ (fun packet r => packet.IsReported r.report) (complete bs.length sent)
      ((merge (walk 0 0 p bs).results).filter (·.complete)) := by
  obtain ⟨rest, hbs, hsubset, hrest⟩ := exists_rest hsent
  generalize complete bs.length sent = packets at hbs hsubset ⊢
  have hfits' : ∀ packet ∈ packets, packet.Fits cfg := fun packet hmem => hfits packet (hsubset hmem)
  rw [hbs] at hconsumed ⊢
  obtain ⟨q, rs, stop, hq, hrs, hall, hmerge⟩ := walk_packets hfits' hp rest 0 (by rw [hconsumed, Nat.zero_add])
  have hnone : firstPacketEnd (walk stop 0 q rest).results = none := by
    rcases hrest with rfl | ⟨packet, hmem, hprefix, hlt⟩
    · rfl
    · exact walk_rest (hfits packet hmem) hq hprefix hlt stop
  have htail : (merge (walk stop 0 q rest).results).filter (·.complete) = [] := by
    rw [← firstPacketEnd_merge, firstPacketEnd, Option.map_eq_none_iff, List.find?_eq_none] at hnone
    exact List.filter_eq_nil_iff.mpr hnone
  rw [hmerge, List.filter_append, htail, List.append_nil, List.filter_eq_self.mpr hall]
  exact hrs

end ServerPacket

end EspMqttClient
