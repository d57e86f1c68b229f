/-
  The return codes of a subscription.

  A client that is fed a SUBACK in whatever buffers handles it once, behind its last byte
  (`receive_of_feed`).  If the SUBSCRIBE is in the queue, the callback gets the return codes, one
  for each topic.  The parser takes fewer codes than `payloadBufferSize`, so that is how many topics
  a SUBSCRIBE can have (`answered_iff`).
-/
import EspMqttClient.MqttClient.Loop
import EspMqttClient.Packets.Equiv.Built
import EspMqttClient.Packets.Equiv.Suback

namespace EspMqttClient

namespace MqttClient

variable {cfg : Config} (env : Env cfg)

/-! ### Buffers -/

/-- The loop of `_checkIncoming` on one buffer after the other. -/
def receive (c : MqttClient cfg) (buffers : List (List Byte)) : MqttClient cfg :=
  buffers.foldl (fun c buffer => c.checkIncomingLoop env buffer.length buffer) c

variable {env}

theorem checkIncomingLoop_nil (fuel : ℕ) (c : MqttClient cfg) : c.checkIncomingLoop env fuel [] = c := by
  cases fuel with
  | zero => rfl
  | succ fuel => rw [checkIncomingLoop, if_pos rfl]

theorem feedBuffer_nil (fuel start : ℕ) (p : Parser cfg) :
    Parser.feedBuffer fuel start p [] = .idle start p := by
  cases fuel <;> rfl

theorem receive_of_flatten_eq_nil {buffers : List (List Byte)} (h : buffers.flatten = []) (c : MqttClient cfg) :
    c.receive env buffers = c := by
  induction buffers with
  | nil => rfl
  | cons buffer buffers ih =>
    rw [List.flatten_cons, List.append_eq_nil_iff] at h
    rw [receive, List.foldl_cons, h.1]
    exact ih h.2

/-- **One packet.** When the last byte of the buffers completes a packet, and there was none before, the
client handles it once all of the buffers were read. -/
theorem receive_of_feed {buffers : List (List Byte)} {c : MqttClient cfg} (hok : c.parser.Ok) {start : ℕ}
    {r : Parser.Result} (herror : (Parser.feed start c.parser buffers).error = false)
    (hresults : (Parser.feed start c.parser buffers).results = [r])
    (hstop : r.stop = start + buffers.flatten.length) :
    ∃ (parser : Parser cfg) (log : Log), parser.report = r.report ∧
      c.receive env buffers = ({ c with parser, log }.handle env).2 := by
  induction buffers generalizing c start with
  | nil => cases hresults
  | cons buffer buffers ih =>
    rw [List.flatten_cons] at hstop
    cases buffer with
    | nil =>
      -- nothing was read
      exact ih hok herror hresults hstop
    | cons byte rest =>
      obtain ⟨hok', -, hle, hall⟩ := hok.parseInput byte rest
      rw [Parser.feed, List.length_cons, Parser.feedBuffer] at herror hresults
      rw [receive, List.foldl_cons, List.length_cons, checkIncomingLoop, if_neg (List.cons_ne_nil _ _)]
      generalize c.parser.parseInput (byte :: rest) = call at hok' hle hall herror hresults ⊢
      obtain ⟨result, n, q⟩ := call
      dsimp only at hok' hle hall herror hresults ⊢
      cases result with
      | awaitData =>
        -- the rest of the buffers brings the packet
        obtain rfl : n = rest.length + 1 := hall rfl
        have hnil : (byte :: rest).drop (rest.length + 1) = [] := List.drop_of_length_le (by simp)
        dsimp only at herror hresults ⊢
        rw [hnil, feedBuffer_nil, Parser.Fed.idle_andThen] at herror hresults
        rw [hnil, checkIncomingLoop_nil]
        have hstop' : r.stop = start + (rest.length + 1) + buffers.flatten.length := by
          rw [hstop, List.length_append, List.length_cons]
          omega
        exact ih hok' herror hresults hstop'
      | packet =>
        -- it is here, and nothing is left
        dsimp only at herror hresults ⊢
        rw [Parser.Fed.cons_andThen] at herror hresults
        obtain ⟨hr, -⟩ := List.cons.inj hresults
        have hn : start + n = start + (byte :: rest ++ buffers.flatten).length := by
          rw [← hstop, ← hr]
          rfl
        rw [List.length_append, List.length_cons] at hn
        have hnil : (byte :: rest).drop n = [] := List.drop_of_length_le (by rw [List.length_cons]; omega)
        have hflatten : buffers.flatten = [] := List.length_eq_zero_iff.mp (by omega)
        rw [hnil, checkIncomingLoop_nil, ite_self]
        refine ⟨q, ({ c with parser := q }.note (.parsed ((byte :: rest).take n))).log, ?_, ?_⟩
        · rw [← hr]
          rfl
        · exact receive_of_flatten_eq_nil hflatten _
      | protocolError => cases hresults

/-! ### The callback -/

/-- The return codes that a report says are those the handler passes on. -/
theorem take_payloadData {parser : Parser cfg} {s : Parser.Suback} (h : s.Reports parser.report) :
    parser.payloadData.take parser.packet.payload.total = s.codes := by
  have htotal : parser.packet.payload.total = s.codes.length := h.total
  have hpayload : parser.payloadData.take parser.packet.payload.length = s.codes := h.payload
  have hle : s.codes.length ≤ parser.packet.payload.length := by
    rw [← hpayload]
    exact List.length_take_le _ _
  have htake := congrArg (List.take s.codes.length) hpayload
  rwa [List.take_take, Nat.min_eq_left hle, List.take_length, ← htotal] at htake

/-- With the SUBSCRIBE in the queue a SUBACK leads to the callback. -/
theorem handle_suback {c : MqttClient cfg} {s : Parser.Suback} (hreports : s.Reports c.parser.report)
    (hstate : c.state ≠ .connectingMqtt)
    (hqueued : ∃ item ∈ c.outbox.items, item.isFor PacketType.SUBSCRIBE s.packetId) :
    ∃ it, c.outbox.find (·.isFor PacketType.SUBSCRIBE s.packetId) = some it ∧
      (c.handle env).2 = ((c.note (.packet c.parser.report)).remove it).callback env .onSubscribe
        (.onSubscribe s.packetId s.codes) := by
  have htype : c.incoming.packetType &&& 0xF0 = PacketType.SUBACK := by
    rw [show c.incoming.packetType = PacketType.SUBACK from hreports.type]
    decide
  have hid : (c.note (.packet c.parser.report)).incoming.packetId = s.packetId := hreports.packetId
  have hcodes := take_payloadData hreports
  obtain ⟨it, hfind⟩ : ∃ it, c.outbox.find (·.isFor PacketType.SUBSCRIBE s.packetId) = some it := by
    rw [← Option.isSome_iff_exists, CursorList.find, List.findIdx?_isSome, List.any_eq_true]
    exact hqueued
  refine ⟨it, hfind, ?_⟩
  -- of the branches of `_checkIncoming` only the one for a SUBACK is taken
  have hhandle : (c.handle env).2 = (c.note (.packet c.parser.report)).onSuback env := by
    rw [handle, if_neg fun h => hstate h.1]
    simp only [htype, show ¬ PacketType.SUBACK = PacketType.CONNACK by decide,
      show ¬ PacketType.SUBACK = PacketType.PUBLISH by decide,
      show ¬ PacketType.SUBACK = PacketType.PUBACK by decide,
      show ¬ PacketType.SUBACK = PacketType.PUBREC by decide,
      show ¬ PacketType.SUBACK = PacketType.PUBREL by decide,
      show ¬ PacketType.SUBACK = PacketType.PUBCOMP by decide, if_false, if_true]
  rw [hhandle, onSuback, hid]
  rw [show (c.note (.packet c.parser.report)).outbox = c.outbox from rfl, hfind]
  dsimp only
  exact congrArg (fun codes => MqttClient.callback env _ .onSubscribe (.onSubscribe s.packetId codes)) hcodes

/-- A SUBACK is accepted: in whatever buffers it comes, a parser between two packets returns it, and a
client that has the SUBSCRIBE in its queue ends with the callback, which gets one return code for each
topic. -/
def Accepts (cfg : Config) (list : List (CString × Byte)) (packet : Packet) (s : Parser.Suback) : Prop :=
  ∀ buffers : List (List Byte), buffers.flatten = s.bytes →
    (∀ (u : List Byte) (p : Parser cfg), Parser.Reached u p → p.parse = .fixedHeader →
      (Parser.feed 0 p buffers).error = false ∧ (Parser.feed 0 p buffers).consumed = s.bytes.length ∧
        ∃ r, (Parser.feed 0 p buffers).results = [r] ∧ r.complete ∧ s.Reports r.report) ∧
    ∀ (env : Env cfg) (u : List Byte) (c : MqttClient cfg),
      Parser.Reached u c.parser → c.parser.parse = .fixedHeader →
      c.state ≠ .connectingMqtt → (∃ item ∈ c.outbox.items, item.packet = packet) →
      s.codes.length = list.length ∧
        ∃ c' : MqttClient cfg, c.receive env buffers = c'.callback env .onSubscribe
          (.onSubscribe s.packetId s.codes)

/-- **The SUBACK for a SUBSCRIBE is accepted exactly if there are fewer topics than `payloadBufferSize`.** -/
theorem accepts_iff (cfg : Config) (alloc : Alloc) (list : List (CString × Byte)) (packet : Packet)
    (s : Parser.Suback) (hpacket : Packet.subscribe cfg alloc s.packetId list = (.SUCCESS, packet))
    (hdata : packet.data ≠ []) (hcodes : s.codes.length = list.length) :
    Accepts cfg list packet s ↔ list.length < cfg.payloadBufferSize := by
  rw [← hcodes]
  constructor
  · intro h
    -- in one buffer, to a parser between two packets
    by_contra hroom
    obtain ⟨herror, -⟩ := (h [s.bytes] (by simp)).1 [] _ (.reset (.new cfg)) rfl
    rw [s.feed_bytes_error rfl (Nat.not_lt.mp hroom) (by simp)] at herror
    exact Bool.noConfusion herror
  · intro hroom buffers hflat
    refine ⟨fun u p hreached hp => ?_, fun env u c hreached hp hstate hqueued => ⟨hcodes, ?_⟩⟩
    · obtain ⟨herror, hconsumed, r, hresults, hcomplete, -, hreports⟩ :=
        s.feed_bytes hreached.sound hp hroom hflat
      exact ⟨herror, hconsumed, r, hresults, hcomplete, hreports⟩
    · obtain ⟨herror, -, r, hresults, -, hstop, hreports⟩ := s.feed_bytes hreached.sound hp hroom hflat
      obtain ⟨parser, log, hreport, hreceive⟩ : ∃ (parser : Parser cfg) (log : Log), parser.report = r.report ∧
          c.receive env buffers = ({ c with parser, log }.handle env).2 :=
        receive_of_feed hreached.sound.toOk herror hresults (by rw [hstop, hflat, Nat.zero_add])
      obtain ⟨item, hitem, rfl⟩ := hqueued
      have hfor : item.isFor PacketType.SUBSCRIBE s.packetId := by
        rw [OutgoingPacket.isFor, decide_eq_true_eq, OutgoingPacket.isType, decide_eq_true_eq]
        exact ⟨Packet.packetType_subscribe hpacket hdata, (Packet.subscribe_built hpacket).2.1⟩
      rw [← hreport] at hreports
      have hhandle := @handle_suback cfg env { c with parser, log } s hreports hstate ⟨item, hitem, hfor⟩
      obtain ⟨it, -, hhandle⟩ := hhandle
      exact ⟨_, hreceive.trans hhandle⟩

/-- Two topics, of which one is refused. -/
theorem accepts_iff_two :
    let list := [(⟨[0x61], by decide⟩, 1), (⟨[0x62], by decide⟩, 2)]
    let s : Parser.Suback := ⟨[4], 7, [1, 0x80], by decide, by decide, by decide, by decide, by decide +kernel⟩
    Accepts .linux list (Packet.subscribe .linux ⟨20000, true, true⟩ 7 list).2 s ↔
      2 < Config.linux.payloadBufferSize :=
  accepts_iff .linux ⟨20000, true, true⟩ _ _ _ (Prod.ext rfl rfl) (by decide) rfl

/-- With 32 topics, as many as the array has places for, the SUBACK is a protocol error. -/
theorem not_accepts_all :
    ¬ ∀ (alloc : Alloc) (list : List (CString × Byte)) (packet : Packet) (s : Parser.Suback),
    Packet.subscribe .linux alloc s.packetId list = (.SUCCESS, packet) → s.codes.length = list.length →
      list.length ≤ Config.linux.payloadBufferSize → Accepts .linux list packet s := by
  intro h
  let list : List (CString × Byte) := .replicate 32 (⟨[0x61], by decide⟩, 0)
  let s : Parser.Suback := ⟨[34], 7, .replicate 32 0, by decide, by decide, by decide, by decide,
    by decide +kernel⟩
  obtain ⟨herror, -⟩ := (h ⟨20000, true, true⟩ list _ s (Prod.ext rfl rfl) rfl (by decide) [s.bytes] (by simp)).1
    [] _ (.reset (.new .linux)) rfl
  exact absurd herror (by decide +kernel)

end MqttClient

end EspMqttClient
