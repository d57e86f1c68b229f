/-
  The format of the packets a client sends (MQTT 3.1.1).

  This is the standard's side: a decoder for each packet, written down field by field.  Nothing of
  `Packet` is used here; that what `Packet` builds is decoded is what is to be shown.
-/
import EspMqttClient.Config
import EspMqttClient.Data.Decoder

namespace EspMqttClient

namespace Grammar

open Decoder

structure Will where
  topic : List Byte
  message : List Byte
  qos : Byte
  retain : Bool
deriving DecidableEq

/-- What a packet says. -/
inductive Message
  | connect (cleanSession : Bool) (keepAlive : ℕ) (clientId : List Byte) (will : Option Will)
      (username password : Option (List Byte))
  | publish (dup : Bool) (qos : Byte) (retain : Bool) (topic : List Byte) (packetId : Option ℕ)
      (payload : List Byte)
  | subscribe (packetId : ℕ) (filters : List (List Byte × Byte))
  | unsubscribe (packetId : ℕ) (filters : List (List Byte))
deriving DecidableEq

/-- The rules about what the fields hold: topics have a byte at least, packet ids are not 0.  Which characters a
topic may have (wildcards, the encoding) is not among them. -/
def Message.Legal : Message → Prop
  | connect _ _ _ will _ _ => ∀ w, will = some w → w.topic ≠ []
  | publish _ _ _ topic packetId _ => topic ≠ [] ∧ packetId ≠ some 0
  | subscribe packetId filters => packetId ≠ 0 ∧ ∀ filter ∈ filters, filter.1 ≠ []
  | unsubscribe packetId filters => packetId ≠ 0 ∧ ∀ filter ∈ filters, filter ≠ []

/-! ### Fields -/

/-- A 16-bit number, high byte first. -/
def number : Decoder Byte ℕ := do
  let hi ← item
  let lo ← item
  return 256 * hi.toNat + lo.toNat

/-- A length and as many bytes. -/
def string : Decoder Byte (List Byte) := do
  let length ← number
  exactly length

/-- A remaining length of at most `n` bytes, seven bits in each, the lowest first. -/
def remainingLength : ℕ → Decoder Byte ℕ
  | 0 => fail
  | n + 1 => do
    let byte ← item
    if byte < 0x80 then return byte.toNat
    else
      let more ← remainingLength n
      return byte.toNat - 128 + 128 * more

/-! ### Packets behind their fixed header -/

def willFields (qos : Byte) (retain : Bool) : Decoder Byte Will := do
  let topic ← string
  let message ← string
  return ⟨topic, message, qos, retain⟩

/-- The payload of a CONNECT whose flags these are. -/
def connectPayload (flags : Byte) (keepAlive : ℕ) : Decoder Byte Message := do
  let clientId ← string
  let will ← optional (flags &&& 0x04 ≠ 0) (willFields ((flags &&& 0x18) >>> 3) (flags &&& 0x20 ≠ 0))
  let username ← optional (flags &&& 0x80 ≠ 0) string
  let password ← optional (flags &&& 0x40 ≠ 0) string
  return .connect (flags &&& 0x02 ≠ 0) keepAlive clientId will username password

/-- Flags of a CONNECT: the reserved one is 0, the quality of the will is at most 2, without a will there
is nothing about it, and without a user name there is no password. -/
def connectFlags (flags : Byte) : Prop :=
  flags &&& 0x01 = 0 ∧ (flags &&& 0x18) >>> 3 ≤ 2 ∧ (flags &&& 0x04 = 0 → flags &&& 0x38 = 0) ∧
    (flags &&& 0x80 = 0 → flags &&& 0x40 = 0)

instance (flags : Byte) : Decidable (connectFlags flags) := inferInstanceAs (Decidable (_ ∧ _))

def connect : Decoder Byte Message := do
  let protocol ← string
  ensure (protocol = [0x4D, 0x51, 0x54, 0x54])
  let level ← item
  ensure (level = 0x04)
  let flags ← item
  ensure (connectFlags flags)
  let keepAlive ← number
  connectPayload flags keepAlive

/-- A PUBLISH with this first byte. -/
def publish (first : Byte) : Decoder Byte Message := do
  let qos := (first &&& 0x06) >>> 1
  ensure (qos ≤ 2 ∧ (qos = 0 → first &&& 0x08 = 0))
  let topic ← string
  let packetId ← optional (qos ≠ 0) number
  let payload ← rest
  return .publish (first &&& 0x08 ≠ 0) qos (first &&& 0x01 ≠ 0) topic packetId payload

/-- A topic filter and the quality asked for. -/
def filter : Decoder Byte (List Byte × Byte) := do
  let topic ← string
  let qos ← item
  ensure (qos ≤ 2)
  return (topic, qos)

def subscribe : Decoder Byte Message := do
  let packetId ← number
  let filters ← many filter
  ensure (filters ≠ [])
  return .subscribe packetId filters

def unsubscribe : Decoder Byte Message := do
  let packetId ← number
  let filters ← many string
  ensure (filters ≠ [])
  return .unsubscribe packetId filters

/-! ### Packets -/

/-- What is behind the fixed header, by the first byte. -/
def body (first : Byte) : Decoder Byte Message :=
  if first = 0x10 then connect
  else if first = 0x82 then subscribe
  else if first = 0xA2 then unsubscribe
  else if first &&& 0xF0 = 0x30 then publish first
  else fail

/-- One packet, which ends where its remaining length says. -/
def message : Decoder Byte Message := do
  let first ← item
  let length ← remainingLength 4
  let behind ← left
  ensure (behind = length)
  body first

/-- These bytes are one well-formed packet. -/
def WellFormed (bytes : List Byte) : Prop := ∃ m, message.whole bytes = some m ∧ m.Legal

end Grammar

end EspMqttClient
