/-
  Every call of `parse` makes progress.

  `_payloadPublish` moves the read position by `length - 1` in `size_t` arithmetic, which for an
  empty slice is a step backwards that the loop of `parse` undoes.  There is no empty slice: while
  the parser waits for a payload, some of it is missing (`Ok.payload`), so nothing wraps around
  (`payloadPublish_wrapped`) and a slice is as long as what was read of it (`Slice`).
-/
import EspMqttClient.Packets.Equiv.Midway

namespace EspMqttClient

namespace Parser

variable {cfg : Config}

/-! ### `size_t` -/

/-- `_payloadPublish` in the arithmetic of the source, with the number of bytes that it and the loop of
`parse` move the read position by. -/
def payloadPublishWrapped (p : Parser cfg) (input : List Byte) : ℕ × Parser cfg :=
  let index := cfg.wrap (p.packet.payload.index + p.packet.payload.length)
  let length := min input.length (cfg.sub p.packet.payload.total index)
  -- compensate for increment in the loop
  let read := cfg.wrap (cfg.sub length 1 + 1)
  let payload := ⟨.input input, length, index, p.packet.payload.total⟩
  let q := { p with packet := { p.packet with payload } }
  (read, if cfg.wrap (index + length) = p.packet.payload.total then { q with parse := .fixedHeader } else q)

/-- Where the parser takes a slice, nothing wraps around. -/
theorem payloadPublish_wrapped {u : List Byte} {p : Parser cfg} (h : Reached u p)
    (hp : p.parse = .payloadPublish)
    {input : List Byte} (hinput : input ≠ []) (hlt : input.length < cfg.sizeMod) :
    p.payloadPublishWrapped input = ((p.payloadPublish input).packet.payload.length,
      p.payloadPublish input) := by
  have hmissing := h.sound.payload hp
  have hpos := List.length_pos_iff.mpr hinput
  obtain ⟨htotal, hindex, hleft⟩ := h.midway.payload_unwrapped h.sound.toOk hp
  have hlength : ∀ length, 0 < length → length < cfg.sizeMod → cfg.wrap (cfg.sub length 1 + 1) = length := by
    intro length hlength hlengthlt
    rw [cfg.sub_of_le hlengthlt hlength, Nat.sub_add_cancel hlength, cfg.wrap_of_lt hlengthlt]
  rw [length_payloadPublish]
  simp only [payloadPublishWrapped, payloadPublish, hindex, hleft]
  rw [hlength _ (by omega) (by omega), cfg.wrap_of_lt (by omega)]

/-! ### Slices -/

/-- The slice of a PUBLISH that a call returned which read `n` bytes of `input`: it is the end of what was
read. -/
structure Slice (input : List Byte) (n : ℕ) (payload : Payload) : Prop where
  inside : payload.length ≤ n
  data : 0 < payload.length → payload.data = .input (input.drop (n - payload.length))
  nonempty : payload.total ≠ 0 → 0 < payload.length
  end_le : payload.index + payload.length ≤ payload.total

/-- A PUBLISH without a payload. -/
theorem Slice.of_empty {payload : Payload} (htotal : payload.total = 0) (hindex : payload.index = 0)
    (hlength : payload.length = 0) (input : List Byte) (n : ℕ) : Slice input n payload where
  inside := by omega
  data := by omega
  nonempty := fun h => absurd htotal h
  end_le := by omega

/-- A state function returns a slice of what it read. -/
theorem Midway.call_slice {u : List Byte} {p : Parser cfg} (h : Midway u p) (hok : p.Ok) (byte : Byte)
    (rest : List Byte) (hpacket : (p.call byte rest).1 = .packet) (hpublish : (p.call byte rest).2.2.isPublish) :
    Slice (byte :: rest) (p.call byte rest).2.1 (p.call byte rest).2.2.packet.payload := by
  rcases parse_of_packet hpacket with hp | hp | hp | hp | hp | hp
  all_goals simp only [Midway, hp] at h
  · -- a PINGRESP
    simp only [Parser.call, hp, remainingLengthNone] at hpublish
    have hpublish' : p.packet.packetType &&& 0xF0 = PacketType.PUBLISH := by
      split_ifs at hpublish <;> exact hpublish
    rw [h.2] at hpublish'
    exact absurd hpublish' (by decide)
  · -- a CONNACK
    simp only [Parser.call, hp, varHeaderConnack2] at hpublish
    have hpublish' : p.packet.packetType &&& 0xF0 = PacketType.PUBLISH := by
      split_ifs at hpublish <;> exact hpublish
    rw [h.2.1] at hpublish'
    exact absurd hpublish' (by decide)
  · -- the packet id is the end of it
    simp only [Parser.call, hp, varHeaderPacketId2] at hpacket hpublish ⊢
    have hpublish' : p.packet.packetType &&& 0xF0 = PacketType.PUBLISH := by
      split_ifs at hpublish <;> exact hpublish
    have hne : ¬ PacketType.PUBLISH = PacketType.SUBACK := by decide
    obtain ⟨hindex, hlength⟩ := hok.start (by simp [hp]) (by simp [hp]) hpublish'
    simp only [hpublish', hne, if_false, if_true] at hpacket ⊢
    split_ifs at hpacket ⊢ with hid htotal
    apply Slice.of_empty
    · exact htotal
    · exact hindex
    · exact hlength
  · -- the topic is the end of it
    simp only [Parser.call, hp, varHeaderTopic] at hpacket ⊢
    obtain ⟨hindex, hlength⟩ := hok.start (by simp [hp]) (by simp [hp]) h.1.1.1
    split_ifs at hpacket ⊢ with hend hid htotal
    exact .of_empty htotal hindex hlength _ _
  · -- a SUBACK
    simp only [Parser.call, hp, payloadSuback] at hpublish
    have hpublish' : p.packet.packetType &&& 0xF0 = PacketType.PUBLISH := by
      split_ifs at hpublish <;> exact hpublish
    rw [h.2.1.type] at hpublish'
    exact absurd hpublish' (by decide)
  · -- a slice of the payload, of which some byte was missing
    have hmissing := hok.payload hp
    rw [call_payloadPublish hp]
    constructor <;> simp only [afterSlice]
    · exact le_rfl
    · simp
    · omega
    · omega

/-- A call of `parse` that is made when there is something to read reads some of it, and returns a slice
of what it read. -/
structure Progresses (input : List Byte) (r : ParserResult × ℕ × Parser cfg) : Prop where
  pos : 1 ≤ r.2.1
  le : r.2.1 ≤ input.length
  slice : r.1 = .packet → r.2.2.isPublish → Slice input r.2.1 r.2.2.packet.payload

theorem Midway.slice {u : List Byte} {p : Parser cfg} (h : Midway u p) (hok : p.Ok) (input : List Byte)
    (hpacket : (p.parseInput input).1 = .packet) (hpublish : (p.parseInput input).2.2.isPublish) :
    Slice input (p.parseInput input).2.1 (p.parseInput input).2.2.packet.payload := by
  induction input generalizing u p with
  | nil => cases hpacket
  | cons byte rest ih =>
    have hcall := h.call byte rest
    have hslice := h.call_slice hok byte rest
    have hok' := hok.call byte rest
    rw [Parser.parseInput] at hpacket hpublish ⊢
    generalize p.call byte rest = c at hpacket hpublish hcall hslice hok' ⊢
    obtain ⟨result, n, q⟩ := c
    cases result with
    | awaitData =>
      have hrest := ih hcall.2 hok' hpacket hpublish
      obtain ⟨hinside, hdata, hnonempty, hend⟩ := hrest
      -- the slice is in what was read behind the first byte
      refine ⟨Nat.le_succ_of_le hinside, fun hpos => ?_, hnonempty, hend⟩
      rw [hdata hpos]
      dsimp only
      rw [Nat.succ_sub hinside]
      rfl
    | packet => exact hslice rfl hpublish
    | protocolError => cases hpacket

theorem Reached.progresses {u : List Byte} {p : Parser cfg} (h : Reached u p) {input : List Byte}
    (hinput : input ≠ []) :
    Progresses input (p.parseInput input) := by
  obtain ⟨byte, rest, rfl⟩ := List.exists_cons_of_ne_nil hinput
  obtain ⟨-, hpos, hle, -⟩ := h.sound.toOk.parseInput byte rest
  exact ⟨hpos, hle, fun hpacket hpublish => h.midway.slice h.sound.toOk _ hpacket hpublish⟩

end Parser

end EspMqttClient
