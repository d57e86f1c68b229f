/-
  The loop of `_checkIncoming` ends.

  `checkIncomingLoop` counts its rounds down from the length of the buffer.  Here the loop is as the
  source has it, without a count: `_rxBuffer`, an index into it and what remains as an
  `int32_t`.  Every round reads some of what remains (`Reached.progresses`), so the loop ends after
  at most as many rounds as there are bytes, and where it ends is where `checkIncomingLoop` does
  (`parse_progresses`).
-/
import EspMqttClient.MqttClient.Equiv.Receipt
import EspMqttClient.Packets.Equiv.Progress

namespace EspMqttClient

namespace MqttClient

variable {cfg : Config} (env : Env cfg)

/-! ### The loop -/

/-- Where the loop is in the buffer. -/
structure Reading (cfg : Config) where
  client : MqttClient cfg
  index : ℕ
  /-- `remainingBufferLength`. -/
  remaining : ℤ

/-- One round: where the loop goes on, or the client when it is left for good. -/
def readRound (buffer : List Byte) (r : Reading cfg) : Reading cfg ⊕ MqttClient cfg :=
  let input := (buffer.drop r.index).take r.remaining.toNat
  let (result, bytesParsed, parser) := r.client.parser.parseInput input
  let c := { r.client with parser }.note (.parsed (input.take bytesParsed))
  let next (c : MqttClient cfg) : Reading cfg := ⟨c, r.index + bytesParsed, r.remaining - bytesParsed⟩
  match result with
  | .packet =>
    let (more, c) := c.handle env
    if more then .inl (next c) else .inr c
  | .protocolError => .inr (c.lost .protocolError)
  | .awaitData => .inl (next c)

/-- The loop ends after this many rounds with this client. -/
inductive Ends (buffer : List Byte) : Reading cfg → ℕ → MqttClient cfg → Prop
  | done {r : Reading cfg} (h : r.remaining ≤ 0) : Ends buffer r 0 r.client
  | leave {r : Reading cfg} {c : MqttClient cfg} (h : 0 < r.remaining)
    (hround : readRound env buffer r = .inr c) :
      Ends buffer r 1 c
  | next {r r' : Reading cfg} {n : ℕ} {c : MqttClient cfg} (h : 0 < r.remaining)
      (hround : readRound env buffer r = .inl r') (hends : Ends buffer r' n c) : Ends buffer r (n + 1) c

/-- Where the loop comes by. -/
inductive Passes (buffer : List Byte) (r : Reading cfg) : Reading cfg → Prop
  | refl : Passes buffer r r
  | next {r' r'' : Reading cfg} (hpasses : Passes buffer r r') (h : 0 < r'.remaining)
      (hround : readRound env buffer r' = .inl r'') : Passes buffer r r''

/-- What holds whenever the loop tests what remains. -/
structure Reading.Inside (buffer : List Byte) (r : Reading cfg) : Prop where
  nonneg : 0 ≤ r.remaining
  split : r.index + r.remaining = buffer.length
  reached : ∃ u, Parser.Reached u r.client.parser

variable {env}

/-! ### One round -/

theorem Reading.Inside.input {buffer : List Byte} {r : Reading cfg} (h : r.Inside buffer) :
    (buffer.drop r.index).take r.remaining.toNat = buffer.drop r.index := by
  have hsplit := h.split
  apply List.take_of_length_le
  rw [List.length_drop]
  omega

theorem Reading.Inside.input_ne_nil {buffer : List Byte} {r : Reading cfg} (h : r.Inside buffer)
    (hpos : 0 < r.remaining) : buffer.drop r.index ≠ [] := by
  have hsplit := h.split
  rw [← List.length_pos_iff, List.length_drop]
  omega

/-- A round reads some of what remains. -/
theorem Reading.Inside.round {buffer : List Byte} {r r' : Reading cfg} (h : r.Inside buffer)
    (hpos : 0 < r.remaining)
    (hround : readRound env buffer r = .inl r') : r'.Inside buffer ∧ r'.remaining < r.remaining := by
  have hinput := h.input_ne_nil hpos
  have hsplit := h.split
  obtain ⟨u, hreached⟩ := h.reached
  have hprogresses := hreached.progresses hinput
  obtain ⟨hone, hle, -⟩ := hprogresses
  rw [List.length_drop] at hle
  rw [readRound, h.input] at hround
  generalize hcall : r.client.parser.parseInput (buffer.drop r.index) = call at hone hle hround
  obtain ⟨result, n, parser⟩ := call
  dsimp only at hone hle hround
  -- the index goes on by what was read, and as much less remains
  have hinside : ∀ c : MqttClient cfg, c.parser = parser → result ≠ .protocolError →
      Reading.Inside buffer ⟨c, r.index + n, r.remaining - n⟩ := by
    intro c hparser hresult
    have hnext := hreached.parse hcall hresult
    rw [← hparser] at hnext
    exact ⟨by dsimp only; omega, by push_cast; omega, _, hnext⟩
  cases result with
  | packet =>
    dsimp only at hround
    split_ifs at hround with hmore
    obtain rfl := Sum.inl.inj hround
    refine ⟨hinside _ ?_ (by simp), by dsimp only; omega⟩
    -- handling a packet leaves the parser alone
    rw [parser_handle]
    rfl
  | protocolError => cases hround
  | awaitData =>
    obtain rfl := Sum.inl.inj hround
    exact ⟨hinside _ rfl (by simp), by dsimp only; omega⟩

/-- The model's loop goes where a round goes. -/
theorem Reading.Inside.loop {buffer : List Byte} {r : Reading cfg} (h : r.Inside buffer) (hpos : 0 < r.remaining)
    (fuel : ℕ) : r.client.checkIncomingLoop env (fuel + 1) (buffer.drop r.index) =
      match readRound env buffer r with
      | .inl r' => r'.client.checkIncomingLoop env fuel (buffer.drop r'.index)
      | .inr c => c := by
  rw [checkIncomingLoop, if_neg (h.input_ne_nil hpos), readRound, h.input]
  rcases r.client.parser.parseInput (buffer.drop r.index) with ⟨result, n, parser⟩
  cases result with
  | packet =>
    dsimp only
    split_ifs
    · rw [List.drop_drop]
    · rfl
  | protocolError => rfl
  | awaitData =>
    dsimp only
    rw [List.drop_drop]

/-! ### All rounds -/

/-- The loop ends where the model's does, and each of its rounds reads a byte at least. -/
theorem Reading.Inside.ends (env : Env cfg) {buffer : List Byte} (fuel : ℕ) {r : Reading cfg}
    (h : r.Inside buffer) (hfuel : r.remaining ≤ fuel) :
    ∃ n : ℕ, n ≤ r.remaining ∧ Ends env buffer r n
      (r.client.checkIncomingLoop env fuel (buffer.drop r.index)) := by
  induction fuel generalizing r with
  | zero => exact ⟨0, h.nonneg, .done hfuel⟩
  | succ fuel ih =>
    by_cases hpos : 0 < r.remaining
    · rw [h.loop hpos]
      cases hround : readRound env buffer r with
      | inl r' =>
        obtain ⟨hinside, hlt⟩ := h.round hpos hround
        obtain ⟨n, hn, hends⟩ := ih hinside (by push_cast at hfuel; omega)
        exact ⟨n + 1, by push_cast; omega, .next hpos hround hends⟩
      | inr c => exact ⟨1, by push_cast; omega, .leave hpos hround⟩
    · -- there is nothing left
      have hsplit := h.split
      have hnil : buffer.drop r.index = [] := List.drop_eq_nil_of_le (by omega)
      rw [hnil, checkIncomingLoop, if_pos rfl]
      exact ⟨0, h.nonneg, .done (not_lt.mp hpos)⟩

theorem Reading.Inside.passes {buffer : List Byte} {r r' : Reading cfg} (h : r.Inside buffer)
    (hpasses : Passes env buffer r r') : r'.Inside buffer := by
  induction hpasses with
  | refl => exact h
  | next _ hpos hround ih => exact (ih.round hpos hround).1

/-- **Parsing a buffer makes progress and ends in it.** A call of `parse` reads between one and all of the
bytes it is given, and a slice it returns is the end of what it read; so the loop of `_checkIncoming` ends
after at most as many rounds as bytes were read, and where it tests what remains that is never negative.
-/
theorem parse_progresses (cfg : Config) :
    (∀ (u : List Byte) (p : Parser cfg), Parser.Reached u p → ∀ input ≠ [],
      Parser.Progresses input (p.parseInput input)) ∧
    ∀ (env : Env cfg) (u : List Byte) (c : MqttClient cfg), Parser.Reached u c.parser → ∀ buffer : List Byte,
      (∃ n ≤ buffer.length, Ends env buffer ⟨c, 0, buffer.length⟩ n
        (c.checkIncomingLoop env buffer.length buffer)) ∧
      ∀ r, Passes env buffer ⟨c, 0, buffer.length⟩ r → r.Inside buffer := by
  refine ⟨fun u p h input hinput => h.progresses hinput, fun env u c h buffer => ?_⟩
  have hinside : Reading.Inside buffer ⟨c, 0, buffer.length⟩ := by
    refine ⟨by simp, by simp, u, h⟩
  refine ⟨?_, fun r hpasses => hinside.passes hpasses⟩
  obtain ⟨n, hn, hends⟩ := hinside.ends env buffer.length le_rfl
  have hle : (n : ℤ) ≤ buffer.length := hn
  exact ⟨n, Nat.cast_le.mp hle, hends⟩

/-- A client that is parsing. -/
def listener : MqttClient .linux :=
  { new .linux ⟨[0x6c], by decide⟩ with state := .connected, parser := (Parser.new .linux).reset }

/-- A PUBLISH in the middle of its payload, and a PINGRESP in front of a byte that begins no packet. -/
theorem parse_progresses_listener :
    Parser.Progresses [0x30, 0x05, 0x00, 0x01, 0x61, 0x01]
        ((Parser.new .linux).reset.parseInput [0x30, 0x05, 0x00, 0x01, 0x61, 0x01]) ∧
      ∃ n ≤ 3, Ends (Script.env .linux {}) [0xD0, 0x00, 0xFF] ⟨listener, 0, 3⟩ n
        (listener.checkIncomingLoop (Script.env .linux {}) 3 [0xD0, 0x00, 0xFF]) :=
  ⟨(parse_progresses .linux).1 [] _ (.reset (Parser.new .linux)) [0x30, 0x05, 0x00, 0x01, 0x61, 0x01]
    (by decide),
    ((parse_progresses .linux).2 (Script.env .linux {}) [] listener (.reset (Parser.new .linux))
      [0xD0, 0x00, 0xFF]).1⟩

end MqttClient

end EspMqttClient
