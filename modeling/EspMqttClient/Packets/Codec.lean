/-
  The pieces every packet is made of: packet types and flags (`Constants.h`), the remaining length
  (`RemainingLength.cpp`) and strings (`StringUtil.cpp`).
-/
import EspMqttClient.Config
import Mathlib.Data.List.TakeWhile

namespace EspMqttClient

/-! ### Constants -/

/-- The first byte of a fixed header without its flags. -/
abbrev MQTTPacketType := Byte

namespace PacketType

abbrev CONNECT : MQTTPacketType := 0x10
abbrev CONNACK : MQTTPacketType := 0x20
abbrev PUBLISH : MQTTPacketType := 0x30
abbrev PUBACK : MQTTPacketType := 0x40
abbrev PUBREC : MQTTPacketType := 0x50
abbrev PUBREL : MQTTPacketType := 0x60
abbrev PUBCOMP : MQTTPacketType := 0x70
abbrev SUBSCRIBE : MQTTPacketType := 0x80
abbrev SUBACK : MQTTPacketType := 0x90
abbrev UNSUBSCRIBE : MQTTPacketType := 0xA0
abbrev UNSUBACK : MQTTPacketType := 0xB0
abbrev PINGREQ : MQTTPacketType := 0xC0
abbrev PINGRESP : MQTTPacketType := 0xD0
abbrev DISCONNECT : MQTTPacketType := 0xE0

end PacketType

namespace HeaderFlag

abbrev CONNECT_RESERVED : Byte := 0x00
abbrev CONNACK_RESERVED : Byte := 0x00
abbrev PUBLISH_DUP : Byte := 0x08
abbrev PUBLISH_QOS0 : Byte := 0x00
abbrev PUBLISH_QOS1 : Byte := 0x02
abbrev PUBLISH_QOS2 : Byte := 0x04
abbrev PUBLISH_RETAIN : Byte := 0x01
abbrev PUBACK_RESERVED : Byte := 0x00
abbrev PUBREC_RESERVED : Byte := 0x00
abbrev PUBREL_RESERVED : Byte := 0x02
abbrev PUBCOMP_RESERVED : Byte := 0x00
abbrev SUBSCRIBE_RESERVED : Byte := 0x02
abbrev SUBACK_RESERVED : Byte := 0x00
abbrev UNSUBSCRIBE_RESERVED : Byte := 0x02
abbrev UNSUBACK_RESERVED : Byte := 0x00
abbrev PINGRESP_RESERVED : Byte := 0x00

end HeaderFlag

namespace ConnectFlag

abbrev USERNAME : Byte := 0x80
abbrev PASSWORD : Byte := 0x40
abbrev WILL_RETAIN : Byte := 0x20
abbrev WILL_QOS0 : Byte := 0x00
abbrev WILL_QOS1 : Byte := 0x08
abbrev WILL_QOS2 : Byte := 0x10
abbrev WILL : Byte := 0x04
abbrev CLEAN_SESSION : Byte := 0x02

end ConnectFlag

inductive Error
  | SUCCESS
  | OUT_OF_MEMORY
  | MAX_RETRIES
  | MALFORMED_PARAMETER
  | MISC_ERROR
deriving DecidableEq, Repr

/-! ### Remaining length -/

/-- `remainingLengthLength`: 0 for what cannot be encoded. -/
def remainingLengthLength (remainingLength : ℕ) : ℕ :=
  if remainingLength < 128 then 1
  else if remainingLength < 16384 then 2
  else if remainingLength < 2097152 then 3
  else if remainingLength > 268435455 then 0
  else 4

/-- The loop of `encodeRemainingLength`, at most `fuel` times. -/
def encodeRemainingLengthLoop : (fuel remainingLength : ℕ) → List Byte
  | 0, _ => []
  | fuel + 1, remainingLength =>
    let encodedByte := UInt8.ofNat (remainingLength % 128)
    if 0 < remainingLength / 128 then
      (encodedByte ||| 128) :: encodeRemainingLengthLoop fuel (remainingLength / 128)
    else [encodedByte]

/-- `encodeRemainingLength`: the bytes written to `destination`.  A 32-bit number has at most five. -/
def encodeRemainingLength (remainingLength : ℕ) : List Byte := encodeRemainingLengthLoop 5 remainingLength

/-- The loop of `decodeRemainingLength`.  The callers see to it that the bytes do not run out. -/
def decodeRemainingLengthLoop (multiplier remainingLength : ℕ) : List Byte → ℤ
  | [] => remainingLength
  | encodedByte :: stream =>
    let remainingLength := remainingLength + (encodedByte &&& 127).toNat * multiplier
    if multiplier > 128 * 128 * 128 then -1
    else if encodedByte &&& 128 ≠ 0 then
      decodeRemainingLengthLoop (multiplier * 128) remainingLength stream
    else remainingLength

/-- `decodeRemainingLength`: -1 for a malformed length. -/
def decodeRemainingLength (stream : List Byte) : ℤ := decodeRemainingLengthLoop 1 0 stream

/-! ### Strings -/

/-- A C string: its bytes without the terminating NUL, of which there is no other. -/
structure CString where
  bytes : List Byte
  nul_notMem : 0 ∉ bytes
deriving DecidableEq

namespace CString

/-- `strlen`. -/
def length (s : CString) : ℕ := s.bytes.length

/-- The empty string. -/
def empty : CString := ⟨[], by simp⟩

/-- The string that starts at the front of a stretch of memory.  It ends with the memory if there is no NUL:
`strlen` reads on behind it then, so a result about it asks for one. -/
def ofMemory (memory : List Byte) : CString where
  bytes := memory.takeWhile (· ≠ 0)
  nul_notMem h := by simpa using List.mem_takeWhile_imp h

end CString

/-- `PROTOCOL`: "MQTT". -/
def PROTOCOL : CString := ⟨[0x4D, 0x51, 0x54, 0x54], by decide⟩

/-- A 16-bit number, high byte first. -/
def bigEndian (n : UInt16) : List Byte := [(n >>> 8).toUInt8, n.toUInt8]

/-- `encodeString`: the bytes written to `dest`, none if the string is too long. -/
def encodeString (source : CString) : List Byte :=
  if source.length > 65535 then []
  else bigEndian (UInt16.ofNat source.length) ++ source.bytes

end EspMqttClient
