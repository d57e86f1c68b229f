/-
  Every access of the parser is in range.

  One position, `_bytePos`, goes through three arrays.  `Ready` is what holds between two state
  functions: where the parser is in the packet (`Midway`) bounds the position, and the bytes in front
  of it in `remainingLengthRaw` are those of the packet at hand.  A call of a state function is then
  what it is without the accesses (`Ready.performs`), and so are a call of `parse` (`Ready.parse`) and
  any calls of a caller that resets the parser after an error (`CheckedParser.run_inside`).
-/
import EspMqttClient.Packets.Checked
import EspMqttClient.Packets.Equiv.Midway

namespace EspMqttClient

/-! ### Accesses -/

theorem writeAt_of_lt {α : Type} {n : ℕ} (array : Vector α n) {index : ℕ} (h : index < n) (value : α) :
    writeAt array index value = some (array.setIfInBounds index value) := if_pos h

theorem fits_of_lt {bound n : ℕ} (h : n < bound) : fits bound n = some n := if_pos h

/-- Of a length field the loop reads the bytes and nothing behind them, and nothing overflows. -/
theorem decodeBytesLoop_eq : ∀ {n : ℕ} {ls : List Byte}, lengthField n ls = some ls →
    ∀ (multiplier acc : ℕ) (memory : List (Option Byte)), multiplier * 128 ^ n ≤ 128 ^ 4 → acc < multiplier →
      decodeBytesLoop multiplier acc (ls.map some ++ memory)
        = some (decodeRemainingLengthLoop multiplier acc ls)
  | n + 1, b :: bs, h, multiplier, acc, memory, hm, hacc => by
    have hb7 := and_127_lt b
    have hmul : multiplier * 128 * 128 ^ n ≤ 128 ^ 4 := by
      rwa [Nat.pow_succ', ← Nat.mul_assoc] at hm
    have hmax : multiplier * 128 ≤ 128 ^ 4 :=
      Nat.le_trans (Nat.le_mul_of_pos_right _ (Nat.pow_pos (by decide))) hmul
    have hdigit : (b &&& 127).toNat * multiplier ≤ 127 * multiplier :=
      Nat.mul_le_mul_right _ (Nat.le_of_lt_succ hb7)
    have hle : ¬ multiplier > 128 * 128 * 128 := by omega
    simp only [List.map_cons, List.cons_append, decodeBytesLoop, decodeRemainingLengthLoop, hle, if_false,
      Option.bind_eq_bind, Option.bind_some]
    rw [fits_of_lt (show (b &&& 127).toNat * multiplier < 2 ^ 32 by omega), Option.bind_some,
      fits_of_lt (show acc + (b &&& 127).toNat * multiplier < 2 ^ 31 by omega), Option.bind_some,
      fits_of_lt (show multiplier * 128 < 2 ^ 32 by omega), Option.bind_some]
    rcases lengthField_cons h with ⟨hb, h⟩ | ⟨hb, rfl⟩
    · rw [if_pos hb, if_pos hb]
      exact decodeBytesLoop_eq h _ _ memory hmul (by omega)
    · rw [if_neg (by simpa using hb), if_neg (by simpa using hb)]

theorem decodeBytes_eq {ls : List Byte} (h : IsLengthField ls) (memory : List (Option Byte)) :
    decodeBytes (ls.map some ++ memory) = some (decodeRemainingLength ls) :=
  decodeBytesLoop_eq h 1 0 memory (by decide) (by decide)

namespace Parser

variable {cfg : Config}

/-- Only the first two state functions lead to the length bytes. -/
theorem call_parse_ne {p : Parser cfg} (hfixed : p.parse ≠ .fixedHeader)
    (hlength : p.parse ≠ .remainingLengthVariable) (byte : Byte) (rest : List Byte) :
    (p.call byte rest).2.2.parse ≠ .remainingLengthVariable := by
  cases hp : p.parse with
  | fixedHeader => exact absurd hp hfixed
  | remainingLengthVariable => exact absurd hp hlength
  | remainingLengthFixed => simp only [Parser.call, hp, remainingLengthFixed]; split_ifs <;> simp
  | remainingLengthNone => simp only [Parser.call, hp, remainingLengthNone]; split_ifs <;> simp
  | varHeaderConnack1 => simp only [Parser.call, hp, varHeaderConnack1]; split_ifs <;> simp
  | varHeaderConnack2 => simp only [Parser.call, hp, varHeaderConnack2]; split_ifs <;> simp
  | varHeaderPacketId1 => simp [Parser.call, hp, varHeaderPacketId1]
  | varHeaderPacketId2 => simp only [Parser.call, hp, varHeaderPacketId2]; split_ifs <;> simp
  | varHeaderTopicLength1 => simp [Parser.call, hp, varHeaderTopicLength1]
  | varHeaderTopicLength2 => simp only [Parser.call, hp, varHeaderTopicLength2]; split_ifs <;> simp
  | varHeaderTopic => simp only [Parser.call, hp, varHeaderTopic]; split_ifs <;> simp
  | payloadSuback => simp only [Parser.call, hp, payloadSuback]; split_ifs <;> simp
  | payloadPublish => simp only [Parser.call, hp, payloadPublish]; split_ifs <;> simp

/-- There the position starts at the first one. -/
theorem call_fixedHeader_bytePos {p : Parser cfg} (hp : p.parse = .fixedHeader) (byte : Byte) (rest : List Byte)
    (hlength : (p.call byte rest).2.2.parse = .remainingLengthVariable) :
    (p.call byte rest).2.2.bytePos = 0 := by
  simp only [Parser.call, hp, fixedHeader] at hlength ⊢
  split_ifs at hlength ⊢ with h1 h2 h3 h4 h5 <;> simp_all

end Parser

namespace CheckedParser

variable {cfg : Config} {c : CheckedParser cfg} {u : List Byte}

/-- The bytes of the remaining length in front of the position are there. -/
def HasLength (c : CheckedParser cfg) : Prop :=
  c.parser.parse = .remainingLengthVariable →
    c.received.toList.take c.parser.bytePos
      = (c.parser.packet.remainingLengthRaw.toList.take c.parser.bytePos).map some

/-- A parser between two state functions; `u` are the bytes that it read of the packet at hand. -/
structure Ready (c : CheckedParser cfg) (u : List Byte) : Prop where
  midway : Parser.Midway u c.parser
  ok : c.parser.Ok
  length : c.HasLength

theorem ready_of_fixedHeader (h : c.parser.parse = .fixedHeader) : c.Ready [] where
  midway := by simp only [Parser.Midway, h]
  ok := Parser.ok_of_fixedHeader h
  length hlength := by rw [h] at hlength; cases hlength

/-- With its accesses, the state function that is called next does what it does without them. -/
structure Performs (c : CheckedParser cfg) (byte : Byte) (rest : List Byte) (c' : CheckedParser cfg) : Prop where
  call : c.call = some ((c.parser.call byte rest).1, c')
  parser : c'.parser = (c.parser.call byte rest).2.2
  data : c'.data = c.data
  bytesRead : c'.bytesRead + 1 = c.bytesRead + (c.parser.call byte rest).2.1
  length : (c.parser.call byte rest).1 ≠ .protocolError → c'.HasLength

/-! ### The state functions -/

theorem read_of_drop {byte : Byte} {rest : List Byte} (h : c.data.drop c.bytesRead = byte :: rest) :
    c.read = some byte := by
  rw [read, ← List.head?_drop, h]
  rfl

theorem readOnly_of_drop {byte : Byte} {rest : List Byte} (h : c.data.drop c.bytesRead = byte :: rest)
    (f : Parser cfg → Byte → ParserResult × Parser cfg) :
    c.readOnly f = some ((f c.parser byte).1, { c with parser := (f c.parser byte).2 }) := by
  rw [readOnly, read_of_drop h]
  rfl

/-- A state function that reads one byte, and does so with its accesses too. -/
theorem performs_of_call {byte : Byte} {rest : List Byte} {f : Parser cfg → Byte → ParserResult × Parser cfg}
    (hcall : c.parser.call byte rest = ((f c.parser byte).1, 1, (f c.parser byte).2))
    (hchecked : c.call = some ((f c.parser byte).1, { c with parser := (f c.parser byte).2 }))
    (hne : c.parser.parse ≠ .fixedHeader) (hne' : c.parser.parse ≠ .remainingLengthVariable) :
    ∃ c', c.Performs byte rest c' := by
  have hlength := Parser.call_parse_ne hne hne' byte rest
  rw [hcall] at hlength
  exact ⟨{ c with parser := (f c.parser byte).2 }, {
    call := by rw [hchecked, hcall]
    parser := by rw [hcall]
    data := rfl
    bytesRead := by rw [hcall]
    length := fun _ hlength' => absurd hlength' hlength }⟩

theorem performs_fixedHeader {byte : Byte} {rest : List Byte} (h : c.data.drop c.bytesRead = byte :: rest)
    (hp : c.parser.parse = .fixedHeader) : ∃ c', c.Performs byte rest c' := by
  have hcall : c.parser.call byte rest
      = ((c.parser.fixedHeader byte).1, 1, (c.parser.fixedHeader byte).2) := by simp only [Parser.call, hp]
  have hpos := Parser.call_fixedHeader_bytePos hp byte rest
  rw [hcall] at hpos
  have hread : c.call = { c with received := .replicate 4 none }.readOnly Parser.fixedHeader := by
    rw [call, hp]
    rfl
  exact ⟨{ c with parser := (c.parser.fixedHeader byte).2, received := .replicate 4 none }, {
    call := by
      rw [hread, hcall]
      exact readOnly_of_drop (c := { c with received := .replicate 4 none }) h Parser.fixedHeader
    parser := by rw [hcall]
    data := rfl
    bytesRead := by rw [hcall]
    length := fun _ hlength => by
      rw [hpos hlength, List.take_zero, List.take_zero]
      rfl }⟩

theorem Ready.performs_remainingLengthVariable (hready : c.Ready u) {byte : Byte} {rest : List Byte}
    (h : c.data.drop c.bytesRead = byte :: rest) (hp : c.parser.parse = .remainingLengthVariable) :
    ∃ c', c.Performs byte rest c' := by
  have hmidway := hready.midway
  simp only [Parser.Midway, hp] at hmidway
  obtain ⟨hpos, -, hcontinued, -⟩ := hmidway
  have hlength := hready.length hp
  have hraw := Parser.take_succ_set c.parser.packet.remainingLengthRaw.toList
    (by rw [Vector.length_toList]; exact hpos : c.parser.bytePos < _) byte
  have hreceived : (c.received.toList.set c.parser.bytePos (some byte)).take (c.parser.bytePos + 1)
      = (c.parser.packet.remainingLengthRaw.toList.take c.parser.bytePos ++ [byte]).map some := by
    rw [Parser.take_succ_set _ (by rw [Vector.length_toList]; exact hpos), hlength, List.map_append]
    rfl
  have hcall : c.parser.call byte rest
      = ((c.parser.remainingLengthVariable byte).1, 1, (c.parser.remainingLengthVariable byte).2) := by
    simp only [Parser.call, hp]
  have hwritten : (c.parser.packet.remainingLengthRaw.setIfInBounds c.parser.bytePos byte)[c.parser.bytePos]?
      = some byte := by simp [hpos]
  refine ⟨{ c with
    parser := (c.parser.remainingLengthVariable byte).2
    received := c.received.setIfInBounds c.parser.bytePos (some byte) }, {
    call := ?_
    parser := by rw [hcall]
    data := rfl
    bytesRead := by rw [hcall]
    length := ?_ }⟩
  · rw [hcall, call, hp]
    simp only [remainingLengthVariable, Parser.remainingLengthVariable, read_of_drop h, writeAt_of_lt _ hpos,
      hwritten, Option.bind_eq_bind, Option.bind_some]
    by_cases hbyte : byte &&& 0x80 = 0
    · -- what is decoded are the bytes that came, and what is behind them is not read
      have hfield := Parser.lengthField_of_continued (n := 4) [] hcontinued hbyte (by
        rw [List.length_take, Vector.length_toList]
        omega)
      have hdecode : decodeBytes (c.received.setIfInBounds c.parser.bytePos (some byte)).toList
          = some (decodeRemainingLength
            (c.parser.packet.remainingLengthRaw.setIfInBounds c.parser.bytePos byte).toList) := by
        rw [Parser.decode_lastByte byte hpos hfield, Vector.toList_setIfInBounds,
          ← List.take_append_drop (c.parser.bytePos + 1) (List.set _ _ _), hreceived]
        exact decodeBytes_eq hfield _
      simp only [hbyte, ne_eq, not_true_eq_false, if_false, hdecode, Option.bind_some]
      split_ifs <;> rfl
    · simp only [hbyte, ne_eq, not_false_eq_true, if_true]
      split_ifs <;> rfl
  · intro _ hlength'
    simp only [Parser.remainingLengthVariable] at hlength' ⊢
    split_ifs at hlength' ⊢ with hbyte
    · rw [Vector.toList_setIfInBounds, Vector.toList_setIfInBounds, hreceived, hraw]
    · rw [Vector.toList_setIfInBounds, Vector.toList_setIfInBounds, hreceived, hraw]

theorem Ready.performs_varHeaderTopic (hready : c.Ready u) {byte : Byte} {rest : List Byte}
    (h : c.data.drop c.bytesRead = byte :: rest) (hp : c.parser.parse = .varHeaderTopic) :
    ∃ c', c.Performs byte rest c' := by
  have hmidway := hready.midway
  simp only [Parser.Midway, hp] at hmidway
  have hpos := hmidway.2
  refine performs_of_call (f := Parser.varHeaderTopic) (by rw [Parser.call, hp]) ?_ (by simp [hp]) (by simp [hp])
  -- the delimiter is behind the byte
  rw [call, hp]
  simp only [varHeaderTopic, Parser.varHeaderTopic, read_of_drop h, Option.bind_eq_bind, Option.bind_some,
    writeAt_of_lt _ (show c.parser.bytePos < cfg.maxTopicLength + 1 by omega),
    writeAt_of_lt _ (show c.parser.bytePos + 1 < cfg.maxTopicLength + 1 by omega)]
  split_ifs <;> rfl

theorem Ready.performs_payloadSuback (hready : c.Ready u) {byte : Byte} {rest : List Byte}
    (h : c.data.drop c.bytesRead = byte :: rest) (hp : c.parser.parse = .payloadSuback) :
    ∃ c', c.Performs byte rest c' := by
  have hmidway := hready.midway
  simp only [Parser.Midway, hp] at hmidway
  have hroom := hmidway.2.1.room
  have hpos := hmidway.2.1.bytePos
  refine performs_of_call (f := Parser.payloadSuback) (by rw [Parser.call, hp]) ?_ (by simp [hp]) (by simp [hp])
  -- the codes that are stored are fewer than the buffer has room for
  rw [call, hp]
  simp only [payloadSuback, Parser.payloadSuback, read_of_drop h, Option.bind_eq_bind, Option.bind_some,
    writeAt_of_lt _ (show c.parser.bytePos < cfg.payloadBufferSize by omega)]
  split_ifs <;> rfl

theorem Ready.performs_payloadPublish (hready : c.Ready u) {byte : Byte} {rest : List Byte}
    (h : c.data.drop c.bytesRead = byte :: rest) (hp : c.parser.parse = .payloadPublish) :
    ∃ c', c.Performs byte rest c' := by
  have hcall : c.parser.call byte rest =
      (.packet, (c.parser.payloadPublish (byte :: rest)).packet.payload.length,
        c.parser.payloadPublish (byte :: rest)) := by
    simp only [Parser.call, hp]
  have hlength := Parser.call_parse_ne (p := c.parser) (by simp [hp]) (by simp [hp]) byte rest
  obtain ⟨hpos, hle⟩ := hready.ok.call_read byte rest
  rw [hcall] at hlength hpos hle
  dsimp only at hpos hle
  obtain ⟨htotal, hindex, hmissing⟩ := hready.midway.payload_unwrapped hready.ok hp
  have hleft : c.data.length - c.bytesRead = (byte :: rest).length := by rw [← List.length_drop, h]
  -- the slice ends where the payload ends, or before
  have hend : ∀ n, cfg.wrap (c.parser.packet.payload.index + c.parser.packet.payload.length +
      min n (c.parser.packet.payload.total - (c.parser.packet.payload.index + c.parser.packet.payload.length))) =
        c.parser.packet.payload.index + c.parser.packet.payload.length + min n
          (c.parser.packet.payload.total - (c.parser.packet.payload.index + c.parser.packet.payload.length)) :=
    fun n => cfg.wrap_of_lt (by have := hready.ok.payload hp; omega)
  refine ⟨{ c with
    parser := c.parser.payloadPublish (byte :: rest)
    bytesRead := c.bytesRead + (c.parser.payloadPublish (byte :: rest)).packet.payload.length - 1 }, {
    call := ?_
    parser := by rw [hcall]
    data := rfl
    bytesRead := ?_
    length := fun _ hlength' => absurd hlength' hlength }⟩
  · -- no more is shown than is left of the input
    have hinside : c.bytesRead + (c.parser.payloadPublish (byte :: rest)).packet.payload.length
        ≤ c.data.length := by
      rw [List.length_cons] at hleft
      omega
    rw [hcall, call, hp]
    rw [Parser.length_payloadPublish] at hinside ⊢
    simp only [payloadPublish, h, hindex, hmissing, hleft, hend]
    exact if_pos hinside
  · rw [hcall]
    dsimp only
    omega

/-- **One call.** -/
theorem Ready.performs (hready : c.Ready u) {byte : Byte} {rest : List Byte}
    (h : c.data.drop c.bytesRead = byte :: rest) : ∃ c', c.Performs byte rest c' := by
  cases hp : c.parser.parse with
  | fixedHeader => exact performs_fixedHeader h hp
  | remainingLengthVariable => exact hready.performs_remainingLengthVariable h hp
  | varHeaderTopic => exact hready.performs_varHeaderTopic h hp
  | payloadSuback => exact hready.performs_payloadSuback h hp
  | payloadPublish => exact hready.performs_payloadPublish h hp
  | remainingLengthFixed | remainingLengthNone | varHeaderConnack1 | varHeaderConnack2 | varHeaderPacketId1
  | varHeaderPacketId2 | varHeaderTopicLength1 | varHeaderTopicLength2 =>
    refine performs_of_call (by rw [Parser.call, hp]) ?_ (by simp [hp]) (by simp [hp])
    -- the input is the only array
    rw [call, hp]
    exact readOnly_of_drop h _

/-! ### Calls of `parse` -/

/-- What a call leaves, if it is not an error, is ready for the next one. -/
theorem Ready.next (hready : c.Ready u) {byte : Byte} {rest : List Byte} {c' : CheckedParser cfg}
    (h : c.Performs byte rest c') (hresult : (c.parser.call byte rest).1 ≠ .protocolError) :
    ∃ u', c'.Ready u' := by
  have hmidway := hready.midway.call byte rest
  have hok := hready.ok.call byte rest
  have hlength := h.length hresult
  rw [← h.parser] at hok
  cases hr : (c.parser.call byte rest).1 with
  | awaitData =>
    rw [Parser.MidwayCall, hr, ← h.parser] at hmidway
    exact ⟨_, hmidway.2, hok, hlength⟩
  | packet =>
    rw [Parser.MidwayCall, hr, ← h.parser] at hmidway
    by_cases hfixed : c'.parser.parse = .fixedHeader
    · exact ⟨[], ready_of_fixedHeader hfixed⟩
    · exact ⟨_, hmidway.2 hfixed, hok, hlength⟩
  | protocolError => exact absurd hr hresult

/-- A call of `parse`, from the position where it is in its loop. -/
theorem Ready.parseLoop : ∀ (fuel : ℕ) {c : CheckedParser cfg} {u : List Byte}, c.Ready u →
    c.data.length ≤ c.bytesRead + fuel →
      ∃ c', c.parseLoop fuel = some ((c.parser.parseInput (c.data.drop c.bytesRead)).1, c') ∧
        c'.parser = (c.parser.parseInput (c.data.drop c.bytesRead)).2.2 ∧
        c'.bytesRead = c.bytesRead + (c.parser.parseInput (c.data.drop c.bytesRead)).2.1 ∧
        ((c.parser.parseInput (c.data.drop c.bytesRead)).1 ≠ .protocolError → ∃ u', c'.Ready u')
  | 0, c, u, hready, hfuel => by
    rw [List.drop_eq_nil_iff.mpr (show c.data.length ≤ c.bytesRead from hfuel)]
    exact ⟨c, rfl, rfl, rfl, fun _ => ⟨u, hready⟩⟩
  | fuel + 1, c, u, hready, hfuel => by
    rw [CheckedParser.parseLoop]
    cases hinput : c.data.drop c.bytesRead with
    | nil =>
      rw [if_neg (Nat.not_lt.mpr (List.drop_eq_nil_iff.mp hinput))]
      exact ⟨c, rfl, rfl, rfl, fun _ => ⟨u, hready⟩⟩
    | cons byte rest =>
      have hlt : c.bytesRead < c.data.length := by
        by_contra hge
        rw [List.drop_eq_nil_iff.mpr (Nat.not_lt.mp hge)] at hinput
        cases hinput
      obtain ⟨c', h⟩ := hready.performs hinput
      have hone := Parser.call_read_of_ne c.parser byte rest
      have hnext := hready.next h
      obtain ⟨hcall, hparser, hdata, hread, -⟩ := h
      rw [if_pos hlt, hcall, Option.bind_eq_bind, Option.bind_some, Parser.parseInput]
      dsimp only
      rw [hread]
      generalize c.parser.call byte rest = r at hparser hread hone hnext ⊢
      obtain ⟨result, n, p⟩ := r
      dsimp only at hparser hread hone hnext ⊢
      subst hparser
      cases result with
      | awaitData =>
        obtain rfl := hone (by simp)
        obtain ⟨u', hready'⟩ := hnext (by simp)
        have hrest : c'.data.drop (c.bytesRead + 1) = rest := by
          rw [hdata, ← List.drop_drop, hinput]
          rfl
        have hready'' : ({ c' with bytesRead := c.bytesRead + 1 } : CheckedParser cfg).Ready u' :=
          ⟨hready'.midway, hready'.ok, hready'.length⟩
        obtain ⟨c'', hloop, hparser', hread', hnext'⟩ := Ready.parseLoop fuel hready'' (by
          dsimp only
          rw [hdata]
          omega)
        dsimp only at hloop hparser' hread' hnext'
        rw [hrest] at hloop hparser' hread' hnext'
        refine ⟨c'', ?_, hparser', ?_, hnext'⟩
        · rw [if_pos rfl, hloop]
        · rw [hread', Nat.add_assoc, Nat.add_comm 1]
      | packet =>
        obtain ⟨u', hready'⟩ := hnext (by simp)
        exact ⟨_, if_neg (by simp), rfl, rfl, fun _ => ⟨u', hready'.midway, hready'.ok, hready'.length⟩⟩
      | protocolError => exact ⟨_, if_neg (by simp), rfl, rfl, fun hne => absurd rfl hne⟩

theorem Ready.parse (hready : c.Ready u) (data : List Byte) :
    ∃ c', c.parse data = some ((c.parser.parseInput data).1, c') ∧ c'.parser = (c.parser.parseInput data).2.2 ∧
      c'.bytesRead = (c.parser.parseInput data).2.1 ∧
      ((c.parser.parseInput data).1 ≠ .protocolError → ∃ u', c'.Ready u') := by
  have hready' : ({ c with data, bytesRead := 0 } : CheckedParser cfg).Ready u :=
    ⟨hready.midway, hready.ok, hready.length⟩
  obtain ⟨c', hloop, hparser, hread, hnext⟩ := Ready.parseLoop data.length hready' (by simp)
  dsimp only at hloop hparser hread hnext
  rw [List.drop_zero] at hloop hparser hread hnext
  exact ⟨c', hloop, hparser, by rw [hread, Nat.zero_add], hnext⟩

/-! ### Callers -/

/-- The calls of a caller, from a parser that is ready or is reset first. -/
theorem run_eq : ∀ (calls : List ParserCall) {c : CheckedParser cfg},
    (∃ u, c.Ready u) ∨ (∀ data, calls.head? ≠ some (.parse data)) → c.parser.ResetsOnError calls →
      ∃ c', c.run calls = some ((c.parser.run calls).1, c') ∧ c'.parser = (c.parser.run calls).2
  | [], c, _, _ => ⟨c, rfl, rfl⟩
  | .reset :: calls, c, _, hresets =>
    run_eq calls (c := c.reset) (.inl ⟨[], ready_of_fixedHeader rfl⟩) hresets
  | .parse data :: calls, c, hstart, hresets => by
    obtain ⟨u, hready⟩ := hstart.resolve_right fun hne => hne data rfl
    obtain ⟨c', hparse, hparser, hread, hnext⟩ := hready.parse data
    obtain ⟨herror, hresets⟩ := hresets
    rw [← hparser] at hresets
    have hstart' : (∃ u, c'.Ready u) ∨ ∀ data, calls.head? ≠ some (.parse data) := by
      by_cases hresult : (c.parser.parseInput data).1 = .protocolError
      · exact .inr (herror hresult)
      · exact .inl (hnext hresult)
    obtain ⟨c'', hrun, hparser'⟩ := run_eq calls hstart' hresets
    refine ⟨c'', ?_, ?_⟩
    · rw [run, hparse, Option.bind_eq_bind, Option.bind_some]
      dsimp only
      rw [hrun, hread, hparser]
      rfl
    · rw [hparser', hparser]
      rfl

/-- **Every access is in range.** Whatever a caller lets a new parser parse, when it resets the parser after each
protocol error: no access fails, and the calls return what they return without the accesses. -/
theorem run_inside (cfg : Config) (calls : List ParserCall) (h : (Parser.new cfg).ResetsOnError calls) :
    ∃ c, (new cfg).run calls = some (((Parser.new cfg).run calls).1, c) ∧
      c.parser = ((Parser.new cfg).run calls).2 :=
  run_eq calls (.inl ⟨[], ready_of_fixedHeader rfl⟩) h

/-- A remaining length that does not end, a reset, and a PINGRESP. -/
theorem run_inside_overlong :
    (Parser.new .linux).ResetsOnError
        [.parse [0x30, 0x80, 0x80, 0x80, 0x80], .reset, .parse [0xD0], .parse [0x00]] ∧
      ∃ c, (new .linux).run [.parse [0x30, 0x80, 0x80, 0x80, 0x80], .reset, .parse [0xD0], .parse [0x00]]
        = some ([(.protocolError, 5), (.awaitData, 1), (.packet, 1)], c) := by
  have hresets : (Parser.new .linux).ResetsOnError
      [.parse [0x30, 0x80, 0x80, 0x80, 0x80], .reset, .parse [0xD0], .parse [0x00]] :=
    ⟨fun _ _ h => (by cases h), fun h => absurd h (by decide), fun h => absurd h (by decide), trivial⟩
  obtain ⟨c, hrun, -⟩ := run_inside .linux _ hresets
  refine ⟨hresets, c, hrun.trans ?_⟩
  congr 2

/-- Without the reset the next byte is written behind the array. -/
example : (new .linux).run [.parse [0x30, 0x80, 0x80, 0x80, 0x80], .parse [0x00]] = none := by decide

end CheckedParser

end EspMqttClient
