/-
  The build configuration (`Config.h`) and the platform.

  The constants are parameters of the whole development: every result holds for every value they can
  be given.  A configuration carries what every build has: the buffers are not empty, and `size_t` has
  at least 32 bits.  In a `TopicConfig` each topic that can be received can also be sent.
-/
import Mathlib.Data.Nat.Basic
import Mathlib.Algebra.Order.Ring.Nat

namespace EspMqttClient

abbrev Byte := UInt8

/-- The build constants and the platform's integers. -/
structure Config where
  /-- `EMC_RX_BUFFER_SIZE`. -/
  rxBufferSize : ℕ
  /-- `EMC_TX_BUFFER_SIZE`. -/
  txBufferSize : ℕ
  /-- `EMC_MAX_TOPIC_LENGTH`. -/
  maxTopicLength : ℕ
  /-- `EMC_PAYLOAD_BUFFER_SIZE`. -/
  payloadBufferSize : ℕ
  /-- `EMC_MIN_FREE_MEMORY`. -/
  minFreeMemory : ℕ
  /-- `EMC_TX_TIMEOUT`. -/
  txTimeout : UInt32
  /-- `EMC_ALLOW_NOT_CONNECTED_PUBLISH`. -/
  allowNotConnectedPublish : Bool
  /-- `EMC_WAIT_FOR_CONNACK`. -/
  waitForConnack : Bool
  /-- The width of `size_t`. -/
  sizeBits : ℕ
  /-- `millis()` is a 64-bit number (Linux), not a 32-bit one (Arduino). -/
  wideMillis : Bool
  rxBufferSize_pos : 0 < rxBufferSize
  txBufferSize_pos : 0 < txBufferSize
  maxTopicLength_pos : 0 < maxTopicLength
  payloadBufferSize_pos : 0 < payloadBufferSize
  le_sizeBits : 32 ≤ sizeBits

namespace Config

/-- The defaults of `Config.h` on Linux. -/
def linux : Config where
  rxBufferSize := 1440
  txBufferSize := 1440
  maxTopicLength := 128
  payloadBufferSize := 32
  minFreeMemory := 16384
  txTimeout := 10000
  allowNotConnectedPublish := true
  waitForConnack := true
  sizeBits := 64
  wideMillis := true
  rxBufferSize_pos := by decide
  txBufferSize_pos := by decide
  maxTopicLength_pos := by decide
  payloadBufferSize_pos := by decide
  le_sizeBits := by decide

variable (cfg : Config)

/-- `SIZE_MAX + 1`. -/
def sizeMod : ℕ := 2 ^ cfg.sizeBits

/-- A result of `size_t` arithmetic. -/
def wrap (n : ℕ) : ℕ := n % cfg.sizeMod

/-- `a - b` on `size_t`. -/
def sub (a b : ℕ) : ℕ := cfg.wrap (a + cfg.sizeMod - b)

theorem le_sizeMod : 2 ^ 32 ≤ cfg.sizeMod := Nat.pow_le_pow_right (by decide) cfg.le_sizeBits

theorem wrap_of_lt {n : ℕ} (h : n < cfg.sizeMod) : cfg.wrap n = n := Nat.mod_eq_of_lt h

theorem wrap_lt (n : ℕ) : cfg.wrap n < cfg.sizeMod :=
  Nat.mod_lt _ (Nat.lt_of_lt_of_le (by decide) cfg.le_sizeMod)

/-- Without underflow `size_t` subtraction is subtraction. -/
theorem sub_of_le {a b : ℕ} (ha : a < cfg.sizeMod) (h : b ≤ a) : cfg.sub a b = a - b := by
  have : a + cfg.sizeMod - b = a - b + cfg.sizeMod := by omega
  rw [sub, wrap, this, Nat.add_mod_right, Nat.mod_eq_of_lt (by omega)]

/-- An underflow wraps around. -/
theorem sub_of_lt {a b : ℕ} (h : a < b) (hb : b ≤ cfg.sizeMod) :
    cfg.sub a b = cfg.sizeMod + a - b := by
  rw [sub, wrap, Nat.mod_eq_of_lt (by omega), Nat.add_comm]

end Config

/-- A configuration whose longest topic has a length that fits in 16 bits. -/
structure TopicConfig extends Config where
  maxTopicLength_le : maxTopicLength ≤ 65535

/-- The defaults of `Config.h` on Linux. -/
def TopicConfig.linux : TopicConfig := { Config.linux with maxTopicLength_le := by decide }

end EspMqttClient
