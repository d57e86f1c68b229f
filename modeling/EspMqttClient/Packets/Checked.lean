/-
  The array accesses of the parser.

  `Parser` reads its input from a list and drops what is written behind the end of an array.  Here is
  the same class with `_data`, `_len` and `_bytesRead`, where each access is a step that can fail:
  `none` is what the C++ leaves undefined, an index outside an array.  Of the remaining length each
  byte is there only from the moment the packet at hand filled it in; what an earlier packet left in
  `remainingLengthRaw` is not there to be decoded.
-/
import EspMqttClient.Packets.Parser

namespace EspMqttClient

/-! ### Accesses -/

/-- `array[index] = value`. -/
def writeAt {α : Type} {n : ℕ} (array : Vector α n) (index : ℕ) (value : α) : Option (Vector α n) :=
  if index < n then some (array.setIfInBounds index value) else none

/-- The result of an arithmetic operation, if it is below the bound of its type. -/
def fits (bound n : ℕ) : Option ℕ := if n < bound then some n else none

/-- The loop of `decodeRemainingLength` on the bytes that are there.  A number that does not fit its
type is an error, too: `remainingLength` is an `int32_t`, `multiplier` a `uint32_t`. -/
def decodeBytesLoop (multiplier remainingLength : ℕ) : List (Option Byte) → Option ℤ
  | [] => none
  | byte :: stream => do
    let encodedByte ← byte
    let digit ← fits (2 ^ 32) ((encodedByte &&& 127).toNat * multiplier)
    let remainingLength ← fits (2 ^ 31) (remainingLength + digit)
    if multiplier > 128 * 128 * 128 then some (-1)
    else
      let multiplier ← fits (2 ^ 32) (multiplier * 128)
      if encodedByte &&& 128 ≠ 0 then decodeBytesLoop multiplier remainingLength stream
      else some remainingLength

/-- `decodeRemainingLength`. -/
def decodeBytes (stream : List (Option Byte)) : Option ℤ := decodeBytesLoop 1 0 stream

/-! ### The parser -/

/-- A parser and the input it is called with. -/
structure CheckedParser (cfg : Config) where
  parser : Parser cfg
  /-- `_data`, which has `_len` bytes. -/
  data : List Byte
  /-- `_bytesRead`. -/
  bytesRead : ℕ
  /-- `remainingLengthRaw`, as far as the packet at hand filled it in. -/
  received : Vector (Option Byte) 4

namespace CheckedParser

variable {cfg : Config}

/-- A new parser. -/
def new (cfg : Config) : CheckedParser cfg := ⟨.new cfg, [], 0, .replicate 4 none⟩

def reset (c : CheckedParser cfg) : CheckedParser cfg := { c with parser := c.parser.reset, bytesRead := 0 }

/-- `_data[_bytesRead]`. -/
def read (c : CheckedParser cfg) : Option Byte := c.data[c.bytesRead]?

/-- A state function that reads a byte of the input and accesses no other array. -/
def readOnly (c : CheckedParser cfg) (f : Parser cfg → Byte → ParserResult × Parser cfg) :
    Option (ParserResult × CheckedParser cfg) := do
  let byte ← c.read
  let (result, parser) := f c.parser byte
  some (result, { c with parser })

/-- `_fixedHeader`.  A packet begins: none of its length bytes was received. -/
def fixedHeader (c : CheckedParser cfg) : Option (ParserResult × CheckedParser cfg) :=
  { c with received := .replicate 4 none }.readOnly Parser.fixedHeader

/-- `_remainingLengthVariable`. -/
def remainingLengthVariable (c : CheckedParser cfg) : Option (ParserResult × CheckedParser cfg) := do
  let p := c.parser
  let raw ← writeAt p.packet.remainingLengthRaw p.bytePos (← c.read)
  let received ← writeAt c.received p.bytePos (some (← c.read))
  let p := { p with packet := { p.packet with remainingLengthRaw := raw } }
  let byte ← raw[p.bytePos]?
  if byte &&& 0x80 ≠ 0 then
    let p := { p with bytePos := p.bytePos + 1 }
    some (if p.bytePos = 4 then .protocolError else .awaitData, { c with parser := p, received })
  else
    let remainingLength := (← decodeBytes received.toList).toNat
    let p := { p with packet := { p.packet with remainingLength } }
    if p.packet.packetType &&& 0xF0 = PacketType.PUBLISH then
      some (.awaitData, { c with parser := { p with parse := .varHeaderTopicLength1 }, received })
    else
      -- total - packet ID
      let payloadSize : ℤ := remainingLength - 2
      if 0 < payloadSize ∧ payloadSize < cfg.payloadBufferSize then
        let payload := ⟨.payloadBuffer, payloadSize.toNat, 0, payloadSize.toNat⟩
        let p := { p with bytePos := 0, packet := { p.packet with payload }, parse := .varHeaderPacketId1 }
        some (.awaitData, { c with parser := p, received })
      else some (.protocolError, { c with parser := { p with parse := .fixedHeader }, received })

/-- `_varHeaderTopic`. -/
def varHeaderTopic (c : CheckedParser cfg) : Option (ParserResult × CheckedParser cfg) := do
  let p := c.parser
  let topic ← writeAt p.packet.topic p.bytePos (← c.read)
  let p := { p with packet := { p.packet with topic }, bytePos := p.bytePos + 1 }
  if p.bytePos = p.packet.topicLength.toNat ∨ p.bytePos = cfg.maxTopicLength then
    -- add c-string delimiter
    let topic ← writeAt topic p.bytePos 0
    let p := { p with packet := { p.packet with topic } }
    if Parser.hasPacketId p.packet.packetType then
      some (.awaitData, { c with parser := { p with parse := .varHeaderPacketId1 } })
    else if p.packet.payload.total = 0 then
      some (.packet, { c with parser := { p with parse := .fixedHeader } })
    else some (.awaitData, { c with parser := { p with parse := .payloadPublish } })
  else some (.awaitData, { c with parser := p })

/-- `_payloadSuback`. -/
def payloadSuback (c : CheckedParser cfg) : Option (ParserResult × CheckedParser cfg) := do
  let p := c.parser
  let byte ← c.read
  if byte < 0x03 ∨ byte = 0x80 then
    let payloadBuffer ← writeAt p.payloadBuffer p.bytePos byte
    let p := { p with payloadBuffer, bytePos := p.bytePos + 1 }
    if p.bytePos = p.packet.payload.total then
      some (.packet, { c with parser := { p with parse := .fixedHeader } })
    else some (.awaitData, { c with parser := p })
  else some (.protocolError, { c with parser := { p with parse := .fixedHeader } })

/-- `_payloadPublish`, in the arithmetic of `size_t`.  It reads no byte of the input; what it lets a caller
read must be there. -/
def payloadPublish (c : CheckedParser cfg) : Option (ParserResult × CheckedParser cfg) :=
  let p := c.parser
  let index := cfg.wrap (p.packet.payload.index + p.packet.payload.length)
  let length := min (c.data.length - c.bytesRead) (cfg.sub p.packet.payload.total index)
  let payload := ⟨.input (c.data.drop c.bytesRead), length, index, p.packet.payload.total⟩
  let p := { p with packet := { p.packet with payload } }
  let p := if cfg.wrap (index + length) = p.packet.payload.total then { p with parse := .fixedHeader } else p
  if c.bytesRead + length ≤ c.data.length then
    -- compensate for increment in the loop
    some (.packet, { c with parser := p, bytesRead := c.bytesRead + length - 1 })
  else none

/-- `_parse(this)`. -/
def call (c : CheckedParser cfg) : Option (ParserResult × CheckedParser cfg) :=
  match c.parser.parse with
  | .fixedHeader => c.fixedHeader
  | .remainingLengthFixed => c.readOnly Parser.remainingLengthFixed
  | .remainingLengthNone => c.readOnly Parser.remainingLengthNone
  | .remainingLengthVariable => c.remainingLengthVariable
  | .varHeaderConnack1 => c.readOnly Parser.varHeaderConnack1
  | .varHeaderConnack2 => c.readOnly Parser.varHeaderConnack2
  | .varHeaderPacketId1 => c.readOnly Parser.varHeaderPacketId1
  | .varHeaderPacketId2 => c.readOnly Parser.varHeaderPacketId2
  | .varHeaderTopicLength1 => c.readOnly Parser.varHeaderTopicLength1
  | .varHeaderTopicLength2 => c.readOnly Parser.varHeaderTopicLength2
  | .varHeaderTopic => c.varHeaderTopic
  | .payloadSuback => c.payloadSuback
  | .payloadPublish => c.payloadPublish

/-- The loop of `parse`, at most `fuel` times. -/
def parseLoop : ℕ → CheckedParser cfg → Option (ParserResult × CheckedParser cfg)
  | 0, c => some (.awaitData, c)
  | fuel + 1, c =>
    if c.bytesRead < c.data.length then do
      let (result, c) ← c.call
      let c := { c with bytesRead := c.bytesRead + 1 }
      if result = .awaitData then parseLoop fuel c else some (result, c)
    else some (.awaitData, c)

/-- `parse`: each round of the loop reads a byte, so `_len` rounds are enough. -/
def parse (c : CheckedParser cfg) (data : List Byte) : Option (ParserResult × CheckedParser cfg) :=
  parseLoop data.length { c with data, bytesRead := 0 }

end CheckedParser

/-! ### A caller -/

/-- What a caller does with a parser. -/
inductive ParserCall
  | parse (data : List Byte)
  | reset

/-- One call after the other: what `parse` returned each time, with the number of bytes read. -/
def CheckedParser.run {cfg : Config} : CheckedParser cfg → List ParserCall →
    Option (List (ParserResult × ℕ) × CheckedParser cfg)
  | c, [] => some ([], c)
  | c, .reset :: calls => c.reset.run calls
  | c, .parse data :: calls => do
    let (result, c) ← c.parse data
    let (results, c') ← c.run calls
    some ((result, c.bytesRead) :: results, c')

namespace Parser

variable {cfg : Config}

/-- The same calls without the accesses. -/
def run : Parser cfg → List ParserCall → List (ParserResult × ℕ) × Parser cfg
  | p, [] => ([], p)
  | p, .reset :: calls => p.reset.run calls
  | p, .parse data :: calls =>
    let (result, bytesRead, p) := p.parseInput data
    let (results, p) := p.run calls
    ((result, bytesRead) :: results, p)

/-- After a protocol error the caller resets the parser before it calls `parse` again. -/
def ResetsOnError : Parser cfg → List ParserCall → Prop
  | _, [] => True
  | p, .reset :: calls => p.reset.ResetsOnError calls
  | p, .parse data :: calls =>
    ((p.parseInput data).1 = .protocolError → ∀ data', calls.head? ≠ some (.parse data')) ∧
      (p.parseInput data).2.2.ResetsOnError calls

end Parser

end EspMqttClient
