/-
  The transports (`Transport/ClientPosix.cpp`, `Transport/ClientAsync.cpp`), as far as they do more than pass a
  call on.

  `ClientAsync` does not own what it reads from: `bufData` points to a segment that the TCP library frees when
  its callback has returned.
-/
import EspMqttClient.Config

namespace EspMqttClient

/-! ### `ClientPosix` -/

/-- `ClientPosix::write`: the result of `send` as a `size_t`. -/
def ClientPosix.write (cfg : Config) (result : ℤ) : ℕ := (result % cfg.sizeMod).toNat

/-! ### `ClientAsync` -/

structure ClientAsync where
  availableData : ℕ
  /-- The memory that `bufData` points to. -/
  bufData : ℕ → Byte
  /-- Ghost: is it a segment whose callback has not returned? -/
  valid : Bool

namespace ClientAsync

/-- A new transport: `bufData` is null. -/
def new : ClientAsync := ⟨0, fun _ => 0, false⟩

/-- `read`: what does not fit is given up. -/
def read (t : ClientAsync) (size : ℕ) : List Byte × ClientAsync :=
  let willRead := min size t.availableData
  ((List.range willRead).map t.bufData, { t with availableData := 0 })

/-- `bufData` and `availableData` are set to a segment. -/
def receive (_ : ClientAsync) (data : List Byte) : ClientAsync where
  availableData := data.length
  bufData i := data[i]?.getD 0
  valid := true

/-- The library frees the segment: anything may be there from now on. -/
def release (t : ClientAsync) (freed : ℕ → Byte) : ClientAsync :=
  { t with bufData := freed, valid := false }

theorem length_read_le (t : ClientAsync) (size : ℕ) : (t.read size).1.length ≤ size := by
  rw [read]
  dsimp only
  rw [List.length_map, List.length_range]
  exact Nat.min_le_left _ _

/-- Nothing is read where nothing is available. -/
theorem read_of_zero {t : ClientAsync} (h : t.availableData = 0) (size : ℕ) : (t.read size).1 = [] := by
  rw [read, h, Nat.min_zero]
  rfl

/-- A segment is read up to the size of the buffer. -/
theorem read_receive (t : ClientAsync) (data : List Byte) (size : ℕ) :
    ((t.receive data).read size).1 = data.take size := by
  apply List.ext_getElem
  · simp [read, receive]
  · intro i h1 h2
    rw [List.length_take] at h2
    simp [read, receive, List.getElem?_eq_getElem (show i < data.length by omega)]

end ClientAsync

end EspMqttClient
