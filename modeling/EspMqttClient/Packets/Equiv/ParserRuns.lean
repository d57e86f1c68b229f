/-
  The parser on a whole PUBLISH.

  Each lemma runs the parser over one field: the remaining length (`walk_remainingLength`), the topic
  length (`walk_topicLength`), the topic (`walk_topic`), the packet id (`walk_packetId`).
  `walk_publishHeader` puts them together: what the parser holds when the payload is next.
-/
import EspMqttClient.Packets.Equiv.Codec
import EspMqttClient.Packets.Equiv.ParserSplit

namespace EspMqttClient

namespace Parser

variable {cfg : Config}

/-- A state function that reads one byte. -/
theorem walk_byte {p : Parser cfg} (h : p.Ok) (hp : p.parse ≠ .payloadPublish) (start : ℕ) (byte : Byte)
    (rest : List Byte) :
    walk start 0 p (byte :: rest) =
      match p.call byte [] with
      | (.awaitData, _, p) => walk (start + 1) 0 p rest
      | (.packet, _, p) => (walk (start + 1) 0 p rest).cons (p.result (start + 1))
      | (.protocolError, _, p) => ⟨[], start + 1, true, p⟩ := by
  rw [walk_cons h, call_byte hp]
  generalize p.call byte [] = c
  obtain ⟨result, n, q⟩ := c
  cases result <;> simp

/-! ### The fixed header -/

/-- The first bytes that begin a PUBLISH. -/
def startsPublish (type : Byte) : Prop :=
  type &&& 0xF0 = PacketType.PUBLISH ∧ (type &&& 0x0F ≤ 0x05 ∨ type &&& 0x0F ≥ 0x0A)

instance (type : Byte) : Decidable (startsPublish type) := inferInstanceAs (Decidable (_ ∧ _))

/-- The parser behind the first byte of a PUBLISH. -/
def startPublish (p : Parser cfg) (type : Byte) : Parser cfg :=
  { p with
    bytePos := 0
    parse := .remainingLengthVariable
    packet := { p.packet.reset with packetType := type } }

theorem walk_startPublish {p : Parser cfg} (hp : p.parse = .fixedHeader) {type : Byte}
    (htype : startsPublish type) (start : ℕ) (rest : List Byte) :
    walk start 0 p (type :: rest) = walk (start + 1) 0 (p.startPublish type) rest := by
  rw [walk_byte (ok_of_fixedHeader hp) (by simp [hp])]
  simp only [Parser.call, hp, fixedHeader, htype.1, htype.2, if_true]
  rfl

theorem startPublish_ok (p : Parser cfg) (type : Byte) : (p.startPublish type).Ok where
  payload := by simp [startPublish]
  topic := by simp [startPublish]
  start := by simp [startPublish, IncomingPacket.reset]

/-- A length field is bytes that continue and one that does not. -/
theorem lengthField_split : ∀ {n : ℕ} {ls : List Byte}, lengthField n ls = some ls →
    ∃ init last, ls = init ++ [last] ∧ (∀ b ∈ init, b &&& 0x80 ≠ 0) ∧ last &&& 0x80 = 0 ∧ init.length < n
  | n + 1, b :: bs, h => by
    rcases lengthField_cons h with ⟨hb, h⟩ | ⟨hb, rfl⟩
    · obtain ⟨init, last, rfl, hinit, hlast, hlen⟩ := lengthField_split h
      refine ⟨b :: init, last, rfl, ?_, hlast, by simpa using hlen⟩
      intro c hc
      rcases List.mem_cons.mp hc with rfl | hc
      · exact hb
      · exact hinit c hc
    · exact ⟨[], b, rfl, by simp, hb, by simp⟩

/-- An array with one element set, cut behind it. -/
theorem take_succ_set {α : Type} (xs : List α) {i : ℕ} (hi : i < xs.length) (b : α) :
    (xs.set i b).take (i + 1) = xs.take i ++ [b] := by
  rw [List.take_succ_eq_append_getElem (by simpa using hi), List.getElem_set_self,
    List.take_set_of_le (le_refl i)]

/-- The bytes of a remaining length that continue it are collected in the array. -/
theorem walk_continued (rest : List Byte) : ∀ (init : List Byte) {p : Parser cfg} (_ : p.Ok) (start : ℕ),
    p.parse = .remainingLengthVariable → p.bytePos + init.length < 4 → (∀ b ∈ init, b &&& 0x80 ≠ 0) →
      ∃ (q : Parser cfg) (raw : Vector Byte 4),
        q = { p with
          bytePos := p.bytePos + init.length
          packet := { p.packet with remainingLengthRaw := raw } } ∧ q.Ok ∧
        walk start 0 p (init ++ rest) = walk (start + init.length) 0 q rest ∧
        raw.toList.take (p.bytePos + init.length)
          = p.packet.remainingLengthRaw.toList.take p.bytePos ++ init := by
  intro init
  induction init with
  | nil => exact fun hok _ _ _ _ => ⟨_, _, rfl, hok, rfl, by simp⟩
  | cons b bs ih =>
    intro p h start hparse hpos hinit
    simp only [List.length_cons] at hpos ⊢
    have hlen : p.packet.remainingLengthRaw.toList.length = 4 := Vector.length_toList
    have htake := take_succ_set p.packet.remainingLengthRaw.toList (by omega : p.bytePos < _) b
    have hok := h.call b []
    rw [List.cons_append, walk_byte h (by simp [hparse])]
    simp only [Parser.call, hparse, remainingLengthVariable, hinit b List.mem_cons_self, ne_eq,
      not_false_eq_true, if_true, show ¬ p.bytePos + 1 = 4 by omega, if_false] at hok ⊢
    obtain ⟨q, raw, hq, hok', hwalk, hraw⟩ := ih hok (start + 1) rfl (by dsimp only; omega)
      fun c hc => hinit c (List.mem_cons_of_mem _ hc)
    have hcount : p.bytePos + 1 + bs.length = p.bytePos + (bs.length + 1) := by omega
    refine ⟨q, raw, ?_, hok', ?_, ?_⟩
    · rw [hq, ← hparse, ← hcount]
    · rw [hwalk, Nat.add_assoc, Nat.add_comm 1]
    · rw [← hcount, hraw]
      simp only [Vector.toList_setIfInBounds, htake, List.append_assoc, List.singleton_append]

/-- With the last byte the array holds the whole field, and nothing behind it is decoded. -/
theorem decode_lastByte {p : Parser cfg} (last : Byte) (hpos : p.bytePos < 4)
    (hfield : IsLengthField (p.packet.remainingLengthRaw.toList.take p.bytePos ++ [last])) :
    decodeRemainingLength (p.packet.remainingLengthRaw.setIfInBounds p.bytePos last).toList
      = decodeRemainingLength (p.packet.remainingLengthRaw.toList.take p.bytePos ++ [last]) := by
  have hlen : p.packet.remainingLengthRaw.toList.length = 4 := Vector.length_toList
  have htake := take_succ_set p.packet.remainingLengthRaw.toList (by omega : p.bytePos < _) last
  rw [Vector.toList_setIfInBounds, ← List.take_append_drop (p.bytePos + 1) (List.set _ _ _), htake]
  exact decode_append hfield _

/-- **The remaining length** up to its last byte, right behind the first byte of a packet. -/
theorem walk_remainingLength {p : Parser cfg} (hok : p.Ok) (hparse : p.parse = .remainingLengthVariable)
    (hpos : p.bytePos = 0) {ls : List Byte} (hls : IsLengthField ls) (start : ℕ) (rest : List Byte) :
    ∃ (q : Parser cfg) (raw : Vector Byte 4) (pos : ℕ) (last : Byte),
      q = { p with bytePos := pos, packet := { p.packet with remainingLengthRaw := raw } } ∧ q.Ok ∧
      last &&& 0x80 = 0 ∧ walk start 0 p (ls ++ rest) = walk (start + ls.length - 1) 0 q (last :: rest) ∧
      1 ≤ ls.length ∧
      decodeRemainingLength (raw.setIfInBounds pos last).toList = decodeRemainingLength ls := by
  obtain ⟨init, last, rfl, hinit, hlast, hlen⟩ := lengthField_split hls
  obtain ⟨q, raw, hq, hok', hwalk, hraw⟩ :=
    walk_continued (last :: rest) init hok start hparse (by omega) hinit
  refine ⟨q, raw, _, last, hq, hok', hlast, ?_, by simp, ?_⟩
  · rw [List.append_assoc, List.singleton_append, hwalk]
    simp
  · have hraw' : raw.toList.take (p.bytePos + init.length) ++ [last] = init ++ [last] := by
      rw [hraw, hpos]
      simp
    have := decode_lastByte last (p := q) (by rw [hq]; dsimp only; omega)
      (by rw [hq]; exact hraw' ▸ hls)
    rw [hq] at this
    rw [← hraw']
    exact this

/-! ### The topic -/

/-- The two bytes of a topic length. -/
def joinBytes (hi lo : Byte) : UInt16 := hi.toUInt16 <<< 8 ||| lo.toUInt16

/-- What the parser takes for the longest topic that fits. -/
def topicRoom (cfg : Config) (type : Byte) (remainingLength : ℕ) : ℕ :=
  cfg.sub (cfg.sub remainingLength 2) (if hasPacketId type then 2 else 0)

/-- A topic length is accepted when it is at most `topicRoom`. -/
theorem walk_topicLength {p : Parser cfg} (h : p.Ok) (hparse : p.parse = .varHeaderTopicLength1)
    (start : ℕ) (hi lo : Byte) (rest : List Byte) :
    walk start 0 p (hi :: lo :: rest) =
      let topicLength := joinBytes hi lo
      if topicLength.toNat ≤ topicRoom cfg p.packet.packetType p.packet.remainingLength then
        walk (start + 2) 0
          { p with
            bytePos := 0
            parse := .varHeaderTopic
            packet := { p.packet with
              topicLength
              payload := { p.packet.payload with
                total := cfg.sub (cfg.sub p.packet.remainingLength 2) topicLength.toNat } } } rest
      else ⟨[], start + 2, true,
        { p with parse := .fixedHeader, packet := { p.packet with topicLength } }⟩ := by
  have hok := h.call hi []
  rw [walk_byte h (by simp [hparse])]
  simp only [Parser.call, hparse, varHeaderTopicLength1] at hok ⊢
  rw [walk_byte hok (by simp)]
  simp only [Parser.call, varHeaderTopicLength2, topicRoom, joinBytes]
  split_ifs <;> rfl

/-- A C string in an array: what is in front of the delimiter. -/
theorem takeWhile_set_delimiter (xs : List Byte) {i : ℕ} (hi : i < xs.length) :
    (xs.set i 0).takeWhile (· ≠ 0) = (xs.take i).takeWhile (· ≠ 0) := by
  have hsplit : xs.set i 0 = xs.take i ++ 0 :: xs.drop (i + 1) := by
    rw [List.set_eq_take_append_cons_drop, if_pos hi]
  rw [hsplit, List.takeWhile_append]
  split_ifs with h
  · rw [List.takeWhile_cons_of_neg (by simp), List.append_nil]
    exact (List.takeWhile_prefix _).eq_of_length h |>.symm
  · rfl

/-- What comes behind the topic of a PUBLISH. -/
def behindTopic (p : Parser cfg) : ParserFunc :=
  if hasPacketId p.packet.packetType then .varHeaderPacketId1
  else if p.packet.payload.total = 0 then .fixedHeader else .payloadPublish

/-- **The topic**: the bytes up to the topic length or the end of the array, whichever `bytePos`
meets first. -/
theorem walk_topic (rest : List Byte) : ∀ (topic : List Byte) {p : Parser cfg} (_ : p.Ok) (start : ℕ),
    p.parse = .varHeaderTopic → topic ≠ [] → p.bytePos + topic.length ≤ cfg.maxTopicLength →
      (∀ j, p.bytePos < j → j < p.bytePos + topic.length → j ≠ p.packet.topicLength.toNat) →
      (p.bytePos + topic.length = p.packet.topicLength.toNat ∨
        p.bytePos + topic.length = cfg.maxTopicLength) →
      ∃ (q : Parser cfg) (pos : ℕ) (array : Vector Byte (cfg.maxTopicLength + 1)),
        q = { p with
          bytePos := pos
          parse := p.behindTopic
          packet := { p.packet with topic := array } } ∧ q.Ok ∧
        walk start 0 p (topic ++ rest) =
          (if p.behindTopic = .fixedHeader then
            (walk (start + topic.length) 0 q rest).cons (q.result (start + topic.length))
          else walk (start + topic.length) 0 q rest) ∧
        array.toList.takeWhile (· ≠ 0) =
          (p.packet.topic.toList.take p.bytePos ++ topic).takeWhile (· ≠ 0) := by
  intro topic
  -- one byte at a time; all but the last leave the parser in `varHeaderTopic`
  induction topic with
  | nil => exact fun _ _ _ h => absurd rfl h
  | cons b bs ih =>
    intro p h start hparse _ hmax hskip hend
    have hlen : p.packet.topic.toList.length = cfg.maxTopicLength + 1 := Vector.length_toList
    simp only [List.length_cons] at hmax hskip hend
    have hok := h.call b []
    have htake := take_succ_set p.packet.topic.toList (by omega : p.bytePos < _) b
    rw [List.cons_append, walk_byte h (by simp [hparse])]
    rcases bs with _ | ⟨c, cs⟩
    · -- the last byte, and the delimiter behind it
      have hstop : p.bytePos + 1 = p.packet.topicLength.toNat ∨ p.bytePos + 1 = cfg.maxTopicLength := hend
      have htopic : ((p.packet.topic.setIfInBounds p.bytePos b).setIfInBounds (p.bytePos + 1) 0).toList.takeWhile
          (· ≠ 0) = (p.packet.topic.toList.take p.bytePos ++ [b]).takeWhile (· ≠ 0) := by
        rw [Vector.toList_setIfInBounds, takeWhile_set_delimiter _ (by simp; omega),
          Vector.toList_setIfInBounds, htake]
      simp only [Parser.call, hparse, varHeaderTopic, hstop, if_true] at hok ⊢
      by_cases hid : hasPacketId p.packet.packetType
      · have hbehind : p.behindTopic = .varHeaderPacketId1 := by simp [behindTopic, hid]
        simp only [hid, if_true] at hok ⊢
        exact ⟨_, _, _, by rw [hbehind], hok, by rw [hbehind, if_neg (by simp)]; rfl, htopic⟩
      · by_cases htotal : p.packet.payload.total = 0
        · have hbehind : p.behindTopic = .fixedHeader := by simp [behindTopic, hid, htotal]
          simp only [hid, htotal, if_true, if_false, Bool.false_eq_true] at hok ⊢
          exact ⟨_, _, _, by rw [hbehind], hok, by rw [hbehind, if_pos rfl]; rfl, htopic⟩
        · have hbehind : p.behindTopic = .payloadPublish := by simp [behindTopic, hid, htotal]
          simp only [hid, htotal, if_false, Bool.false_eq_true] at hok ⊢
          exact ⟨_, _, _, by rw [hbehind], hok, by rw [hbehind, if_neg (by simp)]; rfl, htopic⟩
    · -- more follows
      have hgo : ¬ (p.bytePos + 1 = p.packet.topicLength.toNat ∨ p.bytePos + 1 = cfg.maxTopicLength) := by
        have := hskip (p.bytePos + 1) (by omega) (by simp)
        simp only [List.length_cons] at hmax
        omega
      simp only [Parser.call, hparse, varHeaderTopic, hgo, if_false] at hok ⊢
      obtain ⟨n, hn⟩ : ∃ n, n = (c :: cs).length := ⟨_, rfl⟩
      have hcount : start + 1 + n = start + (b :: c :: cs).length := by
        rw [List.length_cons, ← hn]
        omega
      rw [← hn] at hmax hskip hend
      obtain ⟨q, pos, array, hqeq, hq, hwalk, htopic⟩ := ih hok (start + 1) rfl (by simp)
        (by rw [← hn]; dsimp only; omega)
        (fun j (h1 : p.bytePos + 1 < j) (h2 : j < p.bytePos + 1 + (c :: cs).length) =>
          hskip j (by omega) (by rw [← hn] at h2; omega))
        (by rw [← hn]; dsimp only; omega)
      rw [← hn] at hwalk
      refine ⟨q, pos, array, hqeq, hq, by rw [hwalk, hcount]; rfl, ?_⟩
      rw [htopic]
      simp only [Vector.toList_setIfInBounds, htake, List.append_assoc, List.singleton_append]

/-! ### The packet id -/

/-- **The packet id** of a PUBLISH, two bytes of the payload's length. -/
theorem walk_packetId {p : Parser cfg} (h : p.Ok) (hparse : p.parse = .varHeaderPacketId1)
    (hpublish : p.isPublish) (hzero : p.packet.packetId = 0) (start : ℕ) (hi lo : Byte)
    (hid : joinBytes hi lo ≠ 0) (rest : List Byte) :
    ∃ q : Parser cfg, q.Ok ∧
      walk start 0 p (hi :: lo :: rest) =
        (if cfg.sub p.packet.payload.total 2 = 0 then (walk (start + 2) 0 q rest).cons (q.result (start + 2))
        else walk (start + 2) 0 q rest) ∧
      q = { p with
        parse := if cfg.sub p.packet.payload.total 2 = 0 then .fixedHeader else .payloadPublish
        packet := { p.packet with
          packetId := joinBytes hi lo
          payload := { p.packet.payload with total := cfg.sub p.packet.payload.total 2 } } } := by
  have hok := h.call hi []
  rw [walk_byte h (by simp [hparse])]
  simp only [Parser.call, hparse, varHeaderPacketId1, hzero, UInt16.zero_or] at hok ⊢
  have hok' := hok.call lo []
  have hpub : p.packet.packetType &&& 0xF0 = PacketType.PUBLISH := hpublish
  have hid' : hi.toUInt16 <<< 8 ||| lo.toUInt16 ≠ 0 := hid
  rw [walk_byte hok (by simp)]
  simp only [Parser.call, varHeaderPacketId2, hid', hpub, ne_eq, not_false_eq_true, if_true,
    show ¬ PacketType.PUBLISH = PacketType.SUBACK by decide, if_false] at hok' ⊢
  by_cases htotal : cfg.sub p.packet.payload.total 2 = 0
  · simp only [htotal, if_true] at hok' ⊢
    exact ⟨_, hok', rfl, rfl⟩
  · simp only [htotal, if_false] at hok' ⊢
    exact ⟨_, hok', rfl, rfl⟩

/-! ### A whole packet -/

/-- The parser behind the fixed header of a PUBLISH. -/
structure BehindFixedHeader (q : Parser cfg) (type : Byte) (remainingLength : ℕ) : Prop where
  ok : q.Ok
  parse : q.parse = .varHeaderTopicLength1
  packetType : q.packet.packetType = type
  remainingLength : q.packet.remainingLength = remainingLength
  sessionPresent : q.packet.sessionPresent = 0
  returnCode : q.packet.returnCode = 0
  packetId : q.packet.packetId = 0

theorem walk_publishFixedHeader {p : Parser cfg} (hp : p.parse = .fixedHeader) {type : Byte}
    (htype : startsPublish type) {ls : List Byte} (hls : IsLengthField ls) (start : ℕ)
    (rest : List Byte) :
    ∃ q : Parser cfg, BehindFixedHeader q type (decodeRemainingLength ls).toNat ∧
      walk start 0 p (type :: (ls ++ rest)) = walk (start + 1 + ls.length) 0 q rest := by
  obtain ⟨q, raw, pos, last, hq, hok, hlast, hwalk, hlen, hdecode⟩ :=
    walk_remainingLength (startPublish_ok p type) rfl rfl hls (start + 1) rest
  have hok' := hok.call last []
  have hparse : q.parse = .remainingLengthVariable := by rw [hq]; rfl
  have hpub : q.packet.packetType &&& 0xF0 = PacketType.PUBLISH := by rw [hq]; exact htype.1
  have hcount : start + 1 + ls.length - 1 + 1 = start + 1 + ls.length := by omega
  rw [walk_byte hok (by simp [hparse])] at hwalk
  simp only [Parser.call, hparse, remainingLengthVariable, hlast, ne_eq, not_true_eq_false, if_false,
    hpub, if_true, hcount] at hwalk hok'
  refine ⟨_, ?_, by rw [walk_startPublish hp htype, hwalk]⟩
  exact {
    ok := hok'
    parse := rfl
    packetType := by rw [hq]; rfl
    remainingLength := by
      rw [hq]
      dsimp only
      rw [hdecode]
    sessionPresent := by rw [hq]; rfl
    returnCode := by rw [hq]; rfl
    packetId := by rw [hq]; rfl }

/-- How many bytes the parser takes for a topic of the given length. -/
def topicRead (cfg : Config) (topicLength : ℕ) : ℕ :=
  if 1 ≤ topicLength ∧ topicLength ≤ cfg.maxTopicLength then topicLength else cfg.maxTopicLength

/-- The bytes of a PUBLISH that the parser takes for its header. -/
structure PublishHeader (cfg : Config) where
  type : Byte
  length : List Byte
  hi : Byte
  lo : Byte
  topic : List Byte
  packetId : List Byte
  startsPublish : startsPublish type
  isLengthField : IsLengthField length
  accepted : (joinBytes hi lo).toNat ≤ topicRoom cfg type (decodeRemainingLength length).toNat
  topic_length : topic.length = topicRead cfg (joinBytes hi lo).toNat
  packetId_eq : if hasPacketId type then ∃ a b, packetId = [a, b] ∧ joinBytes a b ≠ 0 else packetId = []

namespace PublishHeader

variable (H : PublishHeader cfg)

def bytes : List Byte := H.type :: (H.length ++ H.hi :: H.lo :: (H.topic ++ H.packetId))

def remainingLength : ℕ := (decodeRemainingLength H.length).toNat

/-- What the parser takes for the length of the payload. -/
def total : ℕ :=
  let total := cfg.sub (cfg.sub H.remainingLength 2) (joinBytes H.hi H.lo).toNat
  if hasPacketId H.type then cfg.sub total 2 else total

/-- What is reported, with a stretch of the payload from its front. -/
def report (payload : List Byte) : Report where
  packetType := H.type
  remainingLength := H.remainingLength
  topic := H.topic.takeWhile (· ≠ 0)
  sessionPresent := 0
  returnCode := 0
  packetId :=
    match H.packetId with
    | [a, b] => joinBytes a b
    | _ => 0
  payload
  index := 0
  total := H.total

end PublishHeader

/-- **The header**: the payload is next, or the packet is complete when there is none. -/
theorem walk_publishHeader (H : PublishHeader cfg) {p : Parser cfg} (hp : p.parse = .fixedHeader)
    (start : ℕ) (rest : List Byte) :
    ∃ q : Parser cfg, q.Ok ∧
      walk start 0 p (H.bytes ++ rest) =
        (if H.total = 0 then
          (walk (start + H.bytes.length) 0 q rest).cons (q.result (start + H.bytes.length))
        else walk (start + H.bytes.length) 0 q rest) ∧
      q.parse = (if H.total = 0 then .fixedHeader else .payloadPublish) ∧
      q.report = H.report [] ∧ q.packet.payload.index = 0 ∧ q.packet.payload.length = 0 ∧
      q.packet.payload.total = H.total := by
  obtain ⟨q, hq, hwalk⟩ := walk_publishFixedHeader hp H.startsPublish H.isLengthField start
    (H.hi :: H.lo :: (H.topic ++ (H.packetId ++ rest)))
  have hpub : q.isPublish := by rw [isPublish, hq.packetType]; exact H.startsPublish.1
  obtain ⟨hindex, hlength⟩ := hq.ok.start (by simp [hq.parse]) (by simp [hq.parse]) hpub
  have hlen := H.topic_length
  have hmax := cfg.maxTopicLength_pos
  -- the topic length
  rw [walk_topicLength hq.ok hq.parse, hq.packetType, hq.remainingLength] at hwalk
  dsimp only at hwalk
  rw [if_pos H.accepted] at hwalk
  generalize hq₂ : ({ q with
    bytePos := 0
    parse := .varHeaderTopic
    packet := { q.packet with
      topicLength := joinBytes H.hi H.lo
      payload := { q.packet.payload with
        total := cfg.sub (cfg.sub (decodeRemainingLength H.length).toNat 2) (joinBytes H.hi H.lo).toNat } } }
    : Parser cfg) = q₂ at hwalk
  have hok₂ : q₂.Ok := by
    subst hq₂
    exact ⟨by simp, fun _ => hpub, fun _ _ _ => ⟨hindex, hlength⟩⟩
  -- the topic
  obtain ⟨q₃, pos, array, hq₃, hok₃, hwalk₃, htopic⟩ := walk_topic (H.packetId ++ rest) H.topic hok₂
    (start + 1 + H.length.length + 2) (by subst hq₂; rfl)
    (by rw [← List.length_pos_iff, hlen, topicRead]; split_ifs <;> omega)
    (by subst hq₂; rw [hlen, topicRead]; dsimp only; split_ifs <;> omega)
    (by subst hq₂; rw [hlen, topicRead]; dsimp only; split_ifs <;> intro j <;> omega)
    (by subst hq₂; rw [hlen, topicRead]; dsimp only; split_ifs <;> omega)
  have hbytes : H.bytes ++ rest = H.type :: (H.length ++ H.hi :: H.lo :: (H.topic ++ (H.packetId ++ rest))) := by
    simp [PublishHeader.bytes]
  have hcount : start + H.bytes.length
      = start + 1 + H.length.length + 2 + H.topic.length + H.packetId.length := by
    simp [PublishHeader.bytes]
    omega
  have htopic' : array.toList.takeWhile (· ≠ 0) = H.topic.takeWhile (· ≠ 0) := by
    rw [htopic, ← hq₂]
    simp
  rw [hbytes, hcount, hwalk, hwalk₃]
  have hpacketId := H.packetId_eq
  by_cases hid : hasPacketId H.type
  · -- the packet id
    rw [if_pos hid] at hpacketId
    obtain ⟨a, b, hab, hne⟩ := hpacketId
    have hbehind : q₂.behindTopic = .varHeaderPacketId1 := by
      subst hq₂; simp [behindTopic, hq.packetType, hid]
    rw [hbehind] at hq₃
    obtain ⟨q₄, hok₄, hwalk₄, hq₄⟩ := walk_packetId hok₃ (by rw [hq₃])
      (by rw [hq₃, ← hq₂]; exact hpub) (by rw [hq₃, ← hq₂]; exact hq.packetId)
      (start + 1 + H.length.length + 2 + H.topic.length) a b hne rest
    have htotal : cfg.sub q₃.packet.payload.total 2 = H.total := by
      rw [hq₃, ← hq₂, PublishHeader.total, if_pos hid]
      rfl
    rw [htotal] at hwalk₄ hq₄
    refine ⟨q₄, hok₄, ?_, by rw [hq₄], ?_, ?_, ?_, by rw [hq₄]⟩
    · rw [hbehind, if_neg (by simp), hab]
      exact hwalk₄
    · rw [hq₄, hq₃, ← hq₂]
      simp only [Parser.report, PublishHeader.report, hq.packetType, hq.remainingLength,
        hq.sessionPresent, hq.returnCode, hindex, hlength, hab, htopic', List.take_zero]
      rfl
    · rw [hq₄, hq₃, ← hq₂]; exact hindex
    · rw [hq₄, hq₃, ← hq₂]; exact hlength
  · -- no packet id
    rw [if_neg hid] at hpacketId
    have htotal : q₂.packet.payload.total = H.total := by
      rw [← hq₂, PublishHeader.total, if_neg hid]
      rfl
    have hbehind : q₂.behindTopic = if H.total = 0 then .fixedHeader else .payloadPublish := by
      rw [← htotal]
      subst hq₂
      simp [behindTopic, hq.packetType, hid]
    refine ⟨q₃, hok₃, ?_, by rw [hq₃, hbehind], ?_, ?_, ?_, by rw [hq₃]; exact htotal⟩
    · rw [hbehind, hpacketId]
      by_cases hzero : H.total = 0 <;> simp [hzero]
    · rw [hq₃, ← hq₂]
      simp only [Parser.report, PublishHeader.report, hq.packetType, hq.remainingLength,
        hq.sessionPresent, hq.returnCode, hq.packetId, hindex, hlength, hpacketId, htopic',
        List.take_zero, PublishHeader.total, if_neg hid]
      rfl
    · rw [hq₃, ← hq₂]; exact hindex
    · rw [hq₃, ← hq₂]; exact hlength

/-- **The whole packet**, when the payload has the length the parser expects. -/
theorem walk_publish (H : PublishHeader cfg) {p : Parser cfg} (hp : p.parse = .fixedHeader)
    {payload : List Byte} (hpayload : payload.length = H.total) (start : ℕ) (rest : List Byte) :
    ∃ q : Parser cfg, q.Ok ∧ q.parse = .fixedHeader ∧
      walk start 0 p (H.bytes ++ (payload ++ rest)) =
        (walk (start + H.bytes.length + payload.length) 0 q rest).cons
          ⟨H.report payload, start + H.bytes.length + payload.length, true⟩ := by
  obtain ⟨q, hok, hwalk, hparse, hreport, hindex, hlength, htotal⟩ :=
    walk_publishHeader H hp start (payload ++ rest)
  rcases Nat.eq_zero_or_pos H.total with hzero | hpos
  · obtain rfl : payload = [] := List.length_eq_zero_iff.mp (hpayload.trans hzero)
    rw [if_pos hzero] at hwalk hparse
    refine ⟨q, hok, hparse, ?_⟩
    rw [hwalk, Parser.result, hreport]
    simp [hparse]
  · have hne : payload ++ rest ≠ [] := by
      rw [← List.length_pos_iff, List.length_append]
      omega
    have hnot : ¬ H.total = 0 := by omega
    rw [if_neg hnot] at hwalk hparse
    have hmin : min (payload ++ rest).length
        (q.packet.payload.total - (q.packet.payload.index + q.packet.payload.length)) = payload.length := by
      rw [htotal, hindex, hlength, List.length_append]
      omega
    rw [walk_payloadPublish hok hparse _ hne] at hwalk
    dsimp only at hwalk
    rw [hmin, List.drop_left] at hwalk
    have hdone : (q.afterSlice (payload ++ rest) payload.length).parse = .fixedHeader := by
      simp only [afterSlice, hindex, hlength, htotal, ← hpayload, Nat.zero_add, if_true]
    refine ⟨_, ok_of_fixedHeader hdone, hdone, ?_⟩
    rw [hwalk, Parser.result, report_afterSlice, hreport]
    simp [hdone, hindex, hlength, PublishHeader.report]

/-- A topic length that does not fit ends the walk. -/
theorem walk_topicLength_error {p : Parser cfg} (hp : p.parse = .fixedHeader) {type : Byte}
    (htype : startsPublish type) {ls : List Byte} (hls : IsLengthField ls) (start : ℕ) (hi lo : Byte)
    (hroom : topicRoom cfg type (decodeRemainingLength ls).toNat < (joinBytes hi lo).toNat)
    (rest : List Byte) :
    ∃ q, walk start 0 p (type :: (ls ++ hi :: lo :: rest)) = ⟨[], start + 1 + ls.length + 2, true, q⟩ := by
  obtain ⟨q, hq, hwalk⟩ := walk_publishFixedHeader hp htype hls start (hi :: lo :: rest)
  rw [walk_topicLength hq.ok hq.parse, hq.packetType, hq.remainingLength] at hwalk
  dsimp only at hwalk
  rw [if_neg (by omega)] at hwalk
  exact ⟨_, hwalk⟩

/-- One that is accepted leaves the parser waiting for the topic. -/
theorem walk_topicLength_await {p : Parser cfg} (hp : p.parse = .fixedHeader) {type : Byte}
    (htype : startsPublish type) {ls : List Byte} (hls : IsLengthField ls) (start : ℕ) (hi lo : Byte)
    (hroom : (joinBytes hi lo).toNat ≤ topicRoom cfg type (decodeRemainingLength ls).toNat) :
    (walk start 0 p (type :: (ls ++ [hi, lo]))).error = false := by
  obtain ⟨q, hq, hwalk⟩ := walk_publishFixedHeader hp htype hls start [hi, lo]
  rw [walk_topicLength hq.ok hq.parse, hq.packetType, hq.remainingLength] at hwalk
  dsimp only at hwalk
  rw [if_pos (by omega)] at hwalk
  rw [hwalk, walk]
  rfl

end Parser

end EspMqttClient
