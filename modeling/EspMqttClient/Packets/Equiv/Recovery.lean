/-
  The parser behind a protocol error.

  Behind an error the parser is the one that a reset leaves, but for `_bytePos` and the packet at
  hand.  The first state function clears the packet, and the position is set before it is used: no
  state function tells the two parsers apart (`Twin.call`).  Only the exit of
  `_remainingLengthVariable` on a fourth byte that goes on does not lead back to `_fixedHeader`; the
  next byte is written behind the array (`recovers_iff_not_overlong`).
-/
import EspMqttClient.Packets.Equiv.Midway

namespace EspMqttClient

namespace Parser

variable {cfg : Config}

/-! ### Writes -/

/-- The state function that is called next writes no array outside its bounds.  The topic gets a byte and the
delimiter behind it. -/
def WritesInside (p : Parser cfg) : Prop :=
  match p.parse with
  | .remainingLengthVariable => p.bytePos < 4
  | .varHeaderTopic => p.bytePos + 1 < cfg.maxTopicLength + 1
  | .payloadSuback => p.bytePos < cfg.payloadBufferSize
  | _ => True

/-- The parsers that state functions are called on, one after the other, until there is a protocol error. -/
inductive Called (p : Parser cfg) : Parser cfg → Prop
  | refl : Called p p
  | call {q : Parser cfg} (h : Called p q) (byte : Byte) (rest : List Byte)
      (hresult : (q.call byte rest).1 ≠ .protocolError) : Called p (q.call byte rest).2.2

theorem Midway.writesInside {u : List Byte} {p : Parser cfg} (h : Midway u p) : p.WritesInside := by
  unfold WritesInside
  unfold Midway at h
  split at h
  case h_4 hp => simpa only [hp] using h.1
  case h_11 hp => simpa only [hp] using Nat.succ_lt_succ h.2
  case h_12 hp =>
    have hroom := h.2.1.room
    have hpos := h.2.1.bytePos
    simp only [hp]
    omega
  all_goals simp only [*]

/-- From a parser that waits for a packet on nothing is written outside. -/
theorem Called.writesInside {p q : Parser cfg} (h : Called p q) (hp : p.parse = .fixedHeader) :
    q.WritesInside := by
  have hmidway : ∃ u, Midway u q := by
    induction h with
    | refl => exact ⟨[], by simp only [Midway, hp]⟩
    | @call q h byte rest hresult ih =>
      obtain ⟨u, hu⟩ := ih
      have hcall := hu.call byte rest
      generalize q.call byte rest = c at hcall hresult
      obtain ⟨result, n, q'⟩ := c
      cases result with
      | awaitData => exact ⟨_, hcall.2⟩
      | packet =>
        by_cases hfixed : q'.parse = .fixedHeader
        · exact ⟨[], by simp only [Midway, hfixed]⟩
        · exact ⟨_, hcall.2 hfixed⟩
      | protocolError => exact absurd rfl hresult
  obtain ⟨u, hu⟩ := hmidway
  exact hu.writesInside

/-! ### Twins -/

/-- The position in an array is set before it is used. -/
def IgnoresPos (p : Parser cfg) : Prop :=
  match p.parse with
  | .remainingLengthVariable | .varHeaderTopicLength1 | .varHeaderTopicLength2 | .varHeaderTopic
  | .payloadSuback => False
  | .remainingLengthFixed | .varHeaderPacketId1 | .varHeaderPacketId2 =>
      p.packet.packetType &&& 0xF0 ≠ PacketType.SUBACK
  | _ => True

/-- Two parsers that differ at most in a position that is not used and in a packet that is cleared. -/
structure Twin (p q : Parser cfg) : Prop where
  parse : p.parse = q.parse
  packet : p.packet = q.packet ∨ (p.parse = .fixedHeader ∧ p.packet.reset = q.packet.reset)
  payloadBuffer : p.payloadBuffer = q.payloadBuffer
  bytePos : p.bytePos = q.bytePos ∨ p.IgnoresPos

/-- Behind an error there is a twin of the reset parser. -/
theorem twin_reset {p : Parser cfg} (h : p.parse = .fixedHeader) : p.Twin p.reset where
  parse := h
  packet := .inr ⟨h, rfl⟩
  payloadBuffer := rfl
  bytePos := .inr (by simp only [IgnoresPos, h])

/-- Two outcomes with the same result, the same count and the same packet, and twins again. -/
structure TwinCall (r s : ParserResult × ℕ × Parser cfg) : Prop where
  result : r.1 = s.1
  read : r.2.1 = s.2.1
  packet : r.2.2.packet = s.2.2.packet
  twin : r.2.2.Twin s.2.2

theorem TwinCall.of_eq {result : ParserResult} {n : ℕ} {p q : Parser cfg} (hpacket : p.packet = q.packet)
    (hparse : p.parse = q.parse) (hbuffer : p.payloadBuffer = q.payloadBuffer)
    (hpos : p.bytePos = q.bytePos ∨ p.IgnoresPos) : TwinCall (result, n, p) (result, n, q) :=
  ⟨rfl, rfl, hpacket, hparse, .inl hpacket, hbuffer, hpos⟩

/-- **No state function tells twins apart.** -/
theorem Twin.call {p q : Parser cfg} (h : p.Twin q) (byte : Byte) (rest : List Byte) :
    TwinCall (p.call byte rest) (q.call byte rest) := by
  obtain ⟨pos, parse, packet, buffer⟩ := p
  obtain ⟨pos', parse', packet', buffer'⟩ := q
  obtain ⟨hparse, hpacket, hbuffer, hpos⟩ := h
  dsimp only at hparse hpacket hbuffer hpos
  subst hparse hbuffer
  cases parse
  case fixedHeader =>
    -- the packet is cleared
    have hreset : packet.reset = packet'.reset := hpacket.elim (congrArg _) And.right
    simp only [Parser.call, fixedHeader, hreset]
    split_ifs with h1 h2 h3 h4 h5
    · exact .of_eq rfl rfl rfl (.inl rfl)
    · exact .of_eq rfl rfl rfl (.inr trivial)
    · refine .of_eq rfl rfl rfl (.inr ?_)
      rcases h3 with rfl | rfl | rfl | rfl | rfl | rfl <;> simp only [IgnoresPos] <;> decide
    · exact .of_eq rfl rfl rfl (.inl rfl)
    · exact .of_eq rfl rfl rfl (.inr trivial)
    · exact .of_eq rfl rfl rfl (.inr trivial)
  all_goals
    obtain rfl : packet = packet' := hpacket.resolve_right fun h => (by cases h.1)
  case remainingLengthFixed =>
    simp only [Parser.call, remainingLengthFixed]
    split_ifs
    · exact .of_eq rfl rfl rfl hpos
    · exact .of_eq rfl rfl rfl (.inr trivial)
    · exact .of_eq rfl rfl rfl (.inr trivial)
  case remainingLengthNone =>
    simp only [Parser.call, remainingLengthNone]
    split_ifs <;> exact .of_eq rfl rfl rfl (.inr trivial)
  case varHeaderConnack1 =>
    simp only [Parser.call, varHeaderConnack1]
    split_ifs <;> exact .of_eq rfl rfl rfl (.inr trivial)
  case varHeaderConnack2 =>
    simp only [Parser.call, varHeaderConnack2]
    split_ifs <;> exact .of_eq rfl rfl rfl (.inr trivial)
  case varHeaderPacketId1 => exact .of_eq rfl rfl rfl hpos
  case varHeaderPacketId2 =>
    simp only [Parser.call, varHeaderPacketId2]
    split_ifs with hid hsuback
    · exact .of_eq rfl rfl rfl (.inl (hpos.resolve_right fun h => h hsuback))
    · exact .of_eq rfl rfl rfl (.inr trivial)
    · exact .of_eq rfl rfl rfl (.inr trivial)
    · exact .of_eq rfl rfl rfl (.inr trivial)
    · exact .of_eq rfl rfl rfl (.inr trivial)
  case payloadPublish =>
    simp only [Parser.call, payloadPublish]
    split_ifs <;> exact .of_eq rfl rfl rfl (.inr trivial)
  case remainingLengthVariable =>
    obtain rfl : pos = pos' := hpos.resolve_right id
    exact ⟨rfl, rfl, rfl, rfl, .inl rfl, rfl, .inl rfl⟩
  case varHeaderTopicLength1 =>
    obtain rfl : pos = pos' := hpos.resolve_right id
    exact ⟨rfl, rfl, rfl, rfl, .inl rfl, rfl, .inl rfl⟩
  case varHeaderTopicLength2 =>
    obtain rfl : pos = pos' := hpos.resolve_right id
    exact ⟨rfl, rfl, rfl, rfl, .inl rfl, rfl, .inl rfl⟩
  case varHeaderTopic =>
    obtain rfl : pos = pos' := hpos.resolve_right id
    exact ⟨rfl, rfl, rfl, rfl, .inl rfl, rfl, .inl rfl⟩
  case payloadSuback =>
    obtain rfl : pos = pos' := hpos.resolve_right id
    exact ⟨rfl, rfl, rfl, rfl, .inl rfl, rfl, .inl rfl⟩

theorem TwinCall.report {r s : ParserResult × ℕ × Parser cfg} (h : TwinCall r s) :
    r.2.2.report = s.2.2.report := by
  simp only [Parser.report, payloadData, h.packet, h.twin.payloadBuffer]

/-- Neither does `parse`. -/
theorem Twin.parseInput {p q : Parser cfg} (h : p.Twin q) (byte : Byte) (rest : List Byte) :
    TwinCall (p.parseInput (byte :: rest)) (q.parseInput (byte :: rest)) := by
  induction rest generalizing p q byte with
  | nil =>
    have hcall := h.call byte []
    rw [Parser.parseInput, Parser.parseInput]
    generalize p.call byte [] = c, q.call byte [] = d at hcall
    obtain ⟨result, n, p'⟩ := c
    obtain ⟨result', n', q'⟩ := d
    obtain ⟨hresult, hread, hpacket, htwin⟩ := hcall
    dsimp only at hresult hread hpacket htwin
    subst hresult hread
    cases result with
    | awaitData => exact ⟨rfl, rfl, hpacket, htwin⟩
    | packet => exact ⟨rfl, rfl, hpacket, htwin⟩
    | protocolError => exact ⟨rfl, rfl, hpacket, htwin⟩
  | cons next rest ih =>
    have hcall := h.call byte (next :: rest)
    rw [Parser.parseInput.eq_def p, Parser.parseInput.eq_def q]
    dsimp only
    generalize p.call byte (next :: rest) = c, q.call byte (next :: rest) = d at hcall
    obtain ⟨result, n, p'⟩ := c
    obtain ⟨result', n', q'⟩ := d
    obtain ⟨hresult, hread, hpacket, htwin⟩ := hcall
    dsimp only at hresult hread hpacket htwin
    subst hresult hread
    cases result with
    | awaitData =>
      obtain ⟨hresult', hread', hpacket', htwin'⟩ := ih htwin next
      exact ⟨hresult', congrArg (· + 1) hread', hpacket', htwin'⟩
    | packet => exact ⟨rfl, rfl, hpacket, htwin⟩
    | protocolError => exact ⟨rfl, rfl, hpacket, htwin⟩

/-! ### A stream -/

/-- The same results, the same count and the same error, twins again, and the same packet if `read`. -/
structure TwinFed (read : Prop) (f g : Fed cfg) : Prop where
  results : f.results = g.results
  consumed : f.consumed = g.consumed
  error : f.error = g.error
  packet : read → f.parser.packet = g.parser.packet
  twin : f.parser.Twin g.parser

theorem TwinFed.imp {read read' : Prop} {f g : Fed cfg} (h : TwinFed read f g) (himp : read' → read) :
    TwinFed read' f g :=
  ⟨h.results, h.consumed, h.error, fun hread => h.packet (himp hread), h.twin⟩

theorem TwinFed.cons {read : Prop} {f g : Fed cfg} (h : TwinFed read f g) {r s : Result} (hrs : r = s) :
    TwinFed read (f.cons r) (g.cons s) :=
  ⟨congrArg₂ _ hrs h.results, h.consumed, h.error, h.packet, h.twin⟩

theorem Twin.feedBuffer (fuel : ℕ) {p q : Parser cfg} (h : p.Twin q) (start : ℕ) (input : List Byte) :
    TwinFed (p.packet = q.packet ∨ (0 < fuel ∧ input ≠ []))
      (feedBuffer fuel start p input) (feedBuffer fuel start q input) := by
  induction fuel generalizing p q start input with
  | zero => exact ⟨rfl, rfl, rfl, fun hread => hread.resolve_right fun hlt => absurd hlt.1 (Nat.lt_irrefl 0), h⟩
  | succ fuel ih =>
    cases input with
    | nil => exact ⟨rfl, rfl, rfl, fun hread => hread.resolve_right fun hne => absurd rfl hne.2, h⟩
    | cons byte rest =>
      have hparse := h.parseInput byte rest
      have hreport := hparse.report
      rw [Parser.feedBuffer, Parser.feedBuffer]
      generalize p.parseInput (byte :: rest) = c, q.parseInput (byte :: rest) = d at hparse hreport ⊢
      obtain ⟨result, n, p'⟩ := c
      obtain ⟨result', n', q'⟩ := d
      obtain ⟨hresult, hread, hpacket, htwin⟩ := hparse
      dsimp only at hresult hread hpacket htwin hreport
      subst hresult hread
      have hrest : TwinFed (p.packet = q.packet ∨ (0 < fuel + 1 ∧ byte :: rest ≠ []))
          (Parser.feedBuffer fuel (start + n) p' ((byte :: rest).drop n))
          (Parser.feedBuffer fuel (start + n) q' ((byte :: rest).drop n)) :=
        (ih htwin _ _).imp fun _ => .inl hpacket
      cases result with
      | awaitData => exact hrest
      | packet => exact hrest.cons (by rw [Parser.result, Parser.result, hreport, htwin.parse])
      | protocolError => exact ⟨rfl, rfl, rfl, fun _ => hpacket, htwin⟩

/-- **A whole stream** is the same to twins. -/
theorem Twin.feed (buffers : List (List Byte)) {p q : Parser cfg} (h : p.Twin q) (start : ℕ) :
    TwinFed (p.packet = q.packet ∨ buffers.flatten ≠ []) (feed start p buffers) (feed start q buffers) := by
  induction buffers generalizing p q start with
  | nil => exact ⟨rfl, rfl, rfl, fun hread => hread.resolve_right fun hne => hne rfl, h⟩
  | cons buffer buffers ih =>
    cases buffer with
    | nil => exact ih h start
    | cons byte rest =>
      have hbuffer := h.feedBuffer (byte :: rest).length start (byte :: rest)
      have hpacket := hbuffer.packet (.inr ⟨Nat.succ_pos _, List.cons_ne_nil _ _⟩)
      have hrest := ih hbuffer.twin (Parser.feedBuffer (byte :: rest).length start p (byte :: rest)).consumed
      rw [Parser.feed, Parser.feed, Fed.andThen, Fed.andThen, ← hbuffer.error, ← hbuffer.consumed]
      split_ifs
      · exact ⟨hbuffer.results, hbuffer.consumed, hbuffer.error, fun _ => hpacket, hbuffer.twin⟩
      · exact ⟨congrArg₂ _ hbuffer.results hrest.results, hrest.consumed, hrest.error,
          fun _ => hrest.packet (.inl hpacket), hrest.twin⟩

/-! ### Behind an error -/

/-- The parser goes on as if it were reset: whatever it is fed it gives the same results, counts and
errors and has the same packet at hand, and it never writes an array outside its bounds. -/
structure Recovers (p : Parser cfg) : Prop where
  same : ∀ (start : ℕ) (buffers : List (List Byte)),
    (feed start p buffers).results = (feed start p.reset buffers).results ∧
      (feed start p buffers).consumed = (feed start p.reset buffers).consumed ∧
      (feed start p buffers).error = (feed start p.reset buffers).error ∧
      (buffers.flatten ≠ [] → (feed start p buffers).parser.packet = (feed start p.reset buffers).parser.packet)
  writes : ∀ q : Parser cfg, p.Called q → q.WritesInside

/-- All it takes is to wait for a packet. -/
theorem recovers_of_fixedHeader {p : Parser cfg} (h : p.parse = .fixedHeader) : p.Recovers where
  same start buffers := by
    have hfed := (twin_reset h).feed buffers start
    exact ⟨hfed.results, hfed.consumed, hfed.error, fun hne => hfed.packet (.inr hne)⟩
  writes _ hcalled := hcalled.writesInside h

/-- **Exactly the overlong lengths are not recovered from.** `u` are the bytes of the packet that were
read before, `input.take n` those that the call with the error read. -/
theorem recovers_iff_not_overlong {u : List Byte} {p : Parser cfg} (h : Reached u p) {input : List Byte} {n : ℕ}
    {q : Parser cfg} (hcall : p.parseInput input = (.protocolError, n, q)) :
    q.Recovers ↔ ¬ Overlong (u ++ input.take n) := by
  have hparse := h.midway.parseInput input
  rw [hcall] at hparse
  obtain ⟨hover, hfixed⟩ := hparse
  constructor
  · intro hrecovers hlong
    obtain ⟨hvariable, hpos⟩ := hover hlong
    have hwrites := hrecovers.writes q .refl
    dsimp only at hvariable hpos
    simp only [WritesInside, hvariable, hpos] at hwrites
    exact absurd hwrites (by decide)
  · intro hlong
    exact recovers_of_fixedHeader (hfixed hlong)

/-- Behind a topic that does not fit. -/
theorem recovers_iff_not_overlong_topic :
    ((new .linux).reset.parseInput [0x30, 0x03, 0x00, 0x02, 0x61]).2.2.Recovers ↔
      ¬ Overlong [0x30, 0x03, 0x00, 0x02] :=
  recovers_iff_not_overlong (.reset (new .linux))
    (show (new .linux).reset.parseInput [0x30, 0x03, 0x00, 0x02, 0x61] = (.protocolError, 4, _) from
      Prod.ext (by decide) (Prod.ext rfl rfl))

/-- Behind a remaining length that does not end, the PINGRESP that follows is not returned. -/
theorem not_recovers_all :
    ¬ ∀ (u : List Byte) (p : Parser .linux) (input : List Byte) (n : ℕ) (q : Parser .linux),
    Reached u p → p.parseInput input = (.protocolError, n, q) → q.Recovers := by
  intro h
  have hrecovers := h [] (new .linux).reset [0x30, 0x80, 0x80, 0x80, 0x80] 5
    ((new .linux).reset.parseInput [0x30, 0x80, 0x80, 0x80, 0x80]).2.2 (.reset _)
    (Prod.ext (by decide) (Prod.ext rfl rfl))
  have hresults := (hrecovers.same 0 [[0xD0, 0x00]]).1
  have hlength := congrArg List.length hresults
  exact absurd hlength (by decide +kernel)

end Parser

end EspMqttClient
