/-
  What a failing write does to the send position.

  `ClientPosix::write` returns what `send` returned as a `size_t`, so a failure, -1, is counted as `SIZE_MAX`
  bytes, and the position goes back by one or wraps around.  Without failures every call of `_sendPacket` leaves
  the position where it should be (`keepsPosition_iff`), and the packet is written byte by byte, in order, up to
  its end (`proceeds_iff`).
-/
import EspMqttClient.MqttClient.Equiv.Drain
import EspMqttClient.MqttClient.Equiv.Once
import EspMqttClient.Packets.Equiv.Offers
import EspMqttClient.Transport.Basic

namespace EspMqttClient

/-! ### The transport -/

/-- A failure is `SIZE_MAX`. -/
theorem ClientPosix.write_failure (cfg : Config) : write cfg (-1) = cfg.sizeMod - 1 := by
  have hpos : 2 ^ 32 ≤ cfg.sizeMod := cfg.le_sizeMod
  have hmod : (-1 : ℤ) % cfg.sizeMod = cfg.sizeMod - 1 := by
    rw [← Int.add_emod_right, Int.emod_eq_of_lt (by omega) (by omega)]
    omega
  rw [write, hmod]
  omega

/-- Anything else is what it is. -/
theorem ClientPosix.write_of_nonneg {cfg : Config} {result : ℤ} (hpos : 0 ≤ result)
    (hlt : result < cfg.sizeMod) : write cfg result = result.toNat := by
  rw [write, Int.emod_eq_of_lt hpos hlt]

namespace Packet

/-- As long as there is a byte left something is available, if the payload callback delivers. -/
theorem Sendable.available_ne_zero {cfg : Config} {p : Packet} (h : p.Sendable cfg)
    (hdelivers : ∀ callback ∈ p.getPayload, callback.Delivers) (call : ℕ) {index : ℕ} (hlt : index < p.size) :
    (p.available cfg call index).1 ≠ 0 := by
  rw [Packet.available, if_neg (by omega)]
  cases hget : p.getPayload with
  | none =>
    show p.size - index ≠ 0
    omega
  | some callback =>
    have hroomy := h.roomy (by rw [hget]; rfl)
    have hheader := hroomy.header
    have hstart := hroomy.start
    have hstart_le := hroomy.start_le
    show (p.chunkedAvailable cfg call callback index).1 ≠ 0
    rw [chunkedAvailable]
    dsimp only
    split_ifs with hindex hfilled hbeyond
    · -- the window begins behind the header
      show p.payloadIndex + _ - 1 + 1 - index ≠ 0
      omega
    · omega
    · -- a byte is copied for the position
      have hroom : 0 < min cfg.txBufferSize (p.size - index) := by
        have := cfg.txBufferSize_pos
        omega
      have hcopied := List.length_pos_of_ne_nil (hdelivers callback hget call _ index hroom)
      show index + (callback.copy call (min cfg.txBufferSize (p.size - index)) index).length - 1 + 1 - index ≠ 0
      omega
    · omega

end Packet

namespace MqttClient

variable {cfg : Config} {env : Env cfg}

/-! ### The send position -/

/-- The positions from one client's to the other's were written, each once and in order. -/
def WritesOn (c c' : MqttClient cfg) (item : OutgoingPacket) : Prop :=
  ∃ news : Log, c'.log = news ++ c.log ∧
    news.reverse.flatMap (·.positions item.added) = List.range' c.bytesSent (c'.bytesSent - c.bytesSent) ∧
    (item.packet.getPayload = none → news.reverse.flatMap (·.event.writtenBytes) =
      (item.packet.data.drop c.bytesSent).take (c'.bytesSent - c.bytesSent))

/-- The next `send` is called and fails. -/
def SendFails (env : Env cfg) (c : MqttClient cfg) : Prop :=
  ∃ item ∈ c.outbox.getCurrent, (item.packet.available cfg c.tick c.bytesSent).1 ≠ 0 ∧
    env.write (c.tick + 1) (item.packet.available cfg c.tick c.bytesSent).1 = -1

/-- `_sendPacket` leaves the position between the old one and the size of the packet, where it was when `send`
failed; what is in between was written; and the caller is told when it is the end. -/
structure KeepsPosition (env : Env cfg) (c : MqttClient cfg) (item : OutgoingPacket) : Prop where
  le : c.bytesSent ≤ (c.sendPacket env).2.bytesSent
  within : (c.sendPacket env).2.bytesSent ≤ item.packet.size
  failed : c.SendFails env → (c.sendPacket env).2.bytesSent = c.bytesSent
  written : WritesOn c (c.sendPacket env).2 item
  told : c.bytesSent < item.packet.size → (c.sendPacket env).2.bytesSent = item.packet.size →
    0 < (c.sendPacket env).1

/-- When `send` is called it does not fail; of a packet with a payload callback it takes bytes that are in
the packet and in the buffer; and with the last byte it takes a number of bytes that is positive as an `int`. -/
def Accepted (env : Env cfg) (c : MqttClient cfg) (item : OutgoingPacket) : Prop :=
  let (available, packet) := item.packet.available cfg c.tick c.bytesSent
  let result := env.write (c.tick + 1) available
  available ≠ 0 → 0 ≤ result ∧
    (packet.getPayload.isSome → c.bytesSent + result ≤ packet.size ∧
      result ≤ (packet.dataAt c.bytesSent).length) ∧
    (c.bytesSent + result = packet.size → 0 < result.bmod (2 ^ 32))

section

variable {c : MqttClient cfg} {item : OutgoingPacket} {rest : List OutgoingPacket} {packet : Packet}
  {available : ℕ}

/-- What was written in one call is in one record. -/
theorem writesOn_wrote {result : ℤ} {timeSent activity : UInt32}
    (hbuffered : item.packet.getPayload = none → packet = item.packet)
    (hcount : (c.wrote { item with packet } rest result timeSent activity).bytesSent =
      c.bytesSent + result.toNat) :
    WritesOn c (c.wrote { item with packet } rest result timeSent activity) item ↔
      result.toNat ≤ (packet.dataAt c.bytesSent).length := by
  have hpositions : (c.written { item with packet } rest result).positions item.added =
      List.range' c.bytesSent ((packet.dataAt c.bytesSent).take result.toNat).length := by
    rw [positions_written, if_pos rfl]
  constructor
  · rintro ⟨news, hlog, hwritten, -⟩
    obtain rfl : [c.written { item with packet } rest result] = news :=
      List.append_cancel_right ((log_wrote c _ rest result timeSent activity).symm.trans hlog)
    rw [List.reverse_singleton, List.flatMap_singleton, hpositions, hcount, Nat.add_sub_cancel_left] at hwritten
    have hlength := congrArg List.length hwritten
    rw [List.length_range', List.length_range', List.length_take] at hlength
    omega
  · intro hle
    refine ⟨[_], log_wrote c _ rest result timeSent activity, ?_, fun hnone => ?_⟩
    · rw [List.reverse_singleton, List.flatMap_singleton, hpositions, hcount, Nat.add_sub_cancel_left,
        List.length_take, Nat.min_eq_left hle]
    · rw [List.reverse_singleton, List.flatMap_singleton, hcount, Nat.add_sub_cancel_left]
      show (packet.dataAt c.bytesSent).take result.toNat = _
      rw [hbuffered hnone, Packet.dataAt, hnone]

/-- Where nothing is written the position stays. -/
theorem keepsPosition_of_idle (hle : c.bytesSent ≤ item.packet.size)
    (hasks : ¬ c.SendFails env) (h : c.sendPacket env = (0, c.readAhead { item with packet } rest)) :
    c.KeepsPosition env item := by
  have hsame : (c.sendPacket env).2.bytesSent = c.bytesSent := by rw [h]; rfl
  refine ⟨hsame.ge, hsame.le.trans hle, fun hfails => absurd hfails hasks, ⟨[], ?_, ?_, fun _ => ?_⟩,
    fun hlt heq => ?_⟩
  · rw [h]
    rfl
  · rw [hsame, Nat.sub_self]
    rfl
  · rw [hsame, Nat.sub_self]
    rfl
  · omega

/-- `send` is called: what becomes of the position. -/
theorem keepsPosition_wrote {result : ℤ} {timeSent activity : UInt32}
    (hcurrent : c.outbox.getCurrent = some item)
    (hformed : item.packet.Formed) (hbounded : item.packet.Bounded cfg)
    (havailable : item.packet.available cfg c.tick c.bytesSent = (available, packet)) (hne : available ≠ 0)
    (hresult : env.write (c.tick + 1) available = result)
    (h : c.sendPacket env = (((result % cfg.sizeMod).toNat : ℤ).bmod (2 ^ 32),
      c.wrote { item with packet } rest result timeSent activity)) :
    c.KeepsPosition env item ↔ 0 ≤ result ∧
      (packet.getPayload.isSome → c.bytesSent + result ≤ packet.size ∧
        result ≤ (packet.dataAt c.bytesSent).length) ∧
      (c.bytesSent + result = packet.size → 0 < result.bmod (2 ^ 32)) := by
  have hreads := Packet.reads_of_available havailable
  have hbuffered : item.packet.getPayload = none → packet = item.packet := by
    intro hnone
    rw [Packet.available_buffered hnone] at havailable
    exact (Prod.mk.inj havailable).2.symm
  have hfits : c.bytesSent + available < cfg.sizeMod := hbounded.available_lt havailable hne
  have hlt : c.bytesSent < item.packet.size := by
    by_contra hge
    rw [Packet.available, if_pos (by omega)] at havailable
    exact hne (Prod.mk.inj havailable).1.symm
  have hge : -1 ≤ result := hresult ▸ env.le_write _ _
  have hle : result ≤ available := hresult ▸ env.write_le _ _
  have hsize : packet.size = item.packet.size := hreads.size
  have hposition : (c.sendPacket env).2.bytesSent = cfg.wrap (c.bytesSent + ClientPosix.write cfg result) := by
    rw [h]
    rfl
  by_cases hpos : 0 ≤ result
  · -- the position goes on by what `send` took
    have hwritten : ClientPosix.write cfg result = result.toNat := ClientPosix.write_of_nonneg hpos (by omega)
    rw [hwritten, cfg.wrap_of_lt (by omega)] at hposition
    have hcount : (c.wrote { item with packet } rest result timeSent activity).bytesSent =
        c.bytesSent + result.toNat := by rw [← hposition, h]
    have hwrites := writesOn_wrote hbuffered hcount
    have htold : (c.sendPacket env).1 = result.bmod (2 ^ 32) := by
      rw [h]
      dsimp only
      rw [show (result % cfg.sizeMod).toNat = result.toNat from hwritten, Int.toNat_of_nonneg hpos]
    constructor
    · intro hkeeps
      have hwithin := hkeeps.within
      have hroom := hwrites.mp (by simpa only [h] using hkeeps.written)
      refine ⟨hpos, fun _ => ⟨by omega, by omega⟩, fun hend => ?_⟩
      rw [← htold]
      exact hkeeps.told hlt (by omega)
    · rintro ⟨-, hchunked, hend⟩
      have hroom : c.bytesSent + result ≤ item.packet.size ∧ result ≤ (packet.dataAt c.bytesSent).length := by
        cases hget : packet.getPayload with
        | some callback => exact hsize ▸ hchunked (by rw [hget]; rfl)
        | none =>
          have hnone : item.packet.getPayload = none := hreads.getPayload ▸ hget
          rw [Packet.available_buffered hnone] at havailable
          obtain ⟨rfl, rfl⟩ := Prod.mk.inj havailable
          rw [Packet.dataAt, hnone]
          dsimp only
          rw [List.length_drop, ← hformed.buffered hnone]
          omega
      refine ⟨by omega, by omega, ?_, ?_, fun _ hend' => ?_⟩
      · rintro ⟨other, hother, -, hfailed⟩
        obtain rfl := Option.some.inj (hcurrent.symm.trans hother)
        rw [havailable, hresult] at hfailed
        omega
      · rw [h]
        exact hwrites.mpr (by omega)
      · rw [htold]
        exact hend (by omega)
  · -- a failure takes the position back by one, or to `SIZE_MAX`
    have hfailure : result = -1 := by omega
    have hfails : c.SendFails env :=
      ⟨item, hcurrent, by rw [havailable]; exact hne, by rw [havailable, hresult, hfailure]⟩
    refine ⟨fun hkeeps => absurd (hkeeps.failed hfails) ?_, fun haccepted => absurd haccepted.1 hpos⟩
    rw [hposition, hfailure, ClientPosix.write_failure, Config.wrap]
    rcases Nat.eq_zero_or_pos c.bytesSent with hzero | hsome
    · rw [hzero, Nat.zero_add, Nat.mod_eq_of_lt (by omega)]
      omega
    · rw [show c.bytesSent + (cfg.sizeMod - 1) = c.bytesSent - 1 + cfg.sizeMod by omega, Nat.add_mod_right,
        Nat.mod_eq_of_lt (by omega)]
      omega

/-- **A call of `_sendPacket` keeps the position** exactly when `send` does not fail, and with a payload callback
takes what is there. -/
theorem keepsPosition_iff (hcurrent : c.outbox.getCurrent = some item) (hformed : item.packet.Formed)
    (hbounded : item.packet.Bounded cfg) (hle : c.bytesSent ≤ item.packet.size) :
    c.KeepsPosition env item ↔ c.Accepted env item := by
  rcases sendPacket_cases env c with ⟨hnil, -⟩ | ⟨other, rest, available, packet, hpending, havailable, h⟩
  · rw [getCurrent_eq_none.mpr hnil] at hcurrent
    cases hcurrent
  have hother : c.outbox.getCurrent = some other := getCurrent_eq_some.mpr ⟨rest, hpending⟩
  obtain rfl := Option.some.inj (hother.symm.trans hcurrent)
  have haccepted : c.Accepted env other ↔ (available ≠ 0 → 0 ≤ env.write (c.tick + 1) available ∧
      (packet.getPayload.isSome → c.bytesSent + env.write (c.tick + 1) available ≤ packet.size ∧
        env.write (c.tick + 1) available ≤ (packet.dataAt c.bytesSent).length) ∧
      (c.bytesSent + env.write (c.tick + 1) available = packet.size →
        0 < (env.write (c.tick + 1) available).bmod (2 ^ 32))) := by
    rw [Accepted, havailable]
  rw [haccepted]
  rcases h with ⟨hzero, h⟩ | ⟨hne, timeSent, activity, h⟩
  · have hidle : ¬ c.SendFails env := by
      rintro ⟨other', hother', hasked, -⟩
      obtain rfl := Option.some.inj (hother.symm.trans hother')
      rw [havailable] at hasked
      exact hasked hzero
    exact ⟨fun _ hne => absurd hzero hne, fun _ => keepsPosition_of_idle hle hidle h⟩
  · rw [keepsPosition_wrote hother hformed hbounded havailable hne rfl h]
    exact ⟨fun h _ => h, fun h => h hne⟩

end

/-! ### Any number of calls -/

/-- So many calls of `_sendPacket`. -/
def attempts (env : Env cfg) (c : MqttClient cfg) (n : ℕ) : MqttClient cfg :=
  (fun c => (c.sendPacket env).2)^[n] c

theorem attempts_succ (env : Env cfg) (c : MqttClient cfg) (n : ℕ) :
    c.attempts env (n + 1) = ((c.attempts env n).sendPacket env).2 :=
  Function.iterate_succ_apply' _ n c

/-- The outbox can go on: at the end of a packet the cursor leaves it, and before the end something is
available. -/
def CanAdvance (c : MqttClient cfg) (item : OutgoingPacket) : Prop :=
  (c.bytesSent = item.packet.size ∧ c.advanceOutbox.2.outbox.pending = c.outbox.pending.tail) ∨
  (c.bytesSent < item.packet.size ∧ (item.packet.Sendable cfg →
    (∀ callback ∈ item.packet.getPayload, callback.Delivers) →
      (item.packet.available cfg c.tick c.bytesSent).1 ≠ 0))

/-- After any number of calls the next one keeps the position, what is in front of the position was written, and
the outbox can go on. -/
def Proceeds (env : Env cfg) (c : MqttClient cfg) (item : OutgoingPacket) : Prop :=
  ∀ n, ∀ touched ∈ (c.attempts env n).outbox.getCurrent,
    (c.attempts env n).KeepsPosition env touched ∧ WritesOn c (c.attempts env n) item ∧
      (c.attempts env n).CanAdvance touched

/-- The packet is the same, but perhaps stamped and another stretch of its payload in the buffer. -/
structure Resembles (cfg : Config) (item touched : OutgoingPacket) : Prop extends Touched cfg item touched where
  buffered : item.packet.getPayload = none → touched.packet = item.packet

theorem Resembles.refl (item : OutgoingPacket) : Resembles cfg item item := ⟨.refl item, fun _ => rfl⟩

theorem Resembles.trans {item item' item'' : OutgoingPacket} (h : Resembles cfg item item')
    (h' : Resembles cfg item' item'') : Resembles cfg item item'' where
  toTouched := h.toTouched.trans h'.toTouched
  buffered hnone := by
    have hsame := h.buffered hnone
    rw [h'.buffered (hsame ▸ hnone), hsame]

/-- A call leaves the packet under the cursor. -/
theorem current_sendPacket {c : MqttClient cfg} {item : OutgoingPacket} (env : Env cfg)
    (hcurrent : c.outbox.getCurrent = some item) :
    ∃ touched, (c.sendPacket env).2.outbox.getCurrent = some touched ∧ Resembles cfg item touched := by
  rcases sendPacket_cases env c with ⟨hnil, -⟩ | ⟨other, rest, available, packet, hpending, havailable, h⟩
  · rw [getCurrent_eq_none.mpr hnil] at hcurrent
    cases hcurrent
  obtain rfl := Option.some.inj ((getCurrent_eq_some.mpr ⟨rest, hpending⟩).symm.trans hcurrent)
  have hreads := Packet.reads_of_available havailable
  have hbuffered : other.packet.getPayload = none → packet = other.packet := by
    intro hnone
    rw [Packet.available_buffered hnone] at havailable
    exact (Prod.mk.inj havailable).2.symm
  rcases h with ⟨-, h⟩ | ⟨-, timeSent, activity, h⟩ <;> rw [h]
  · exact ⟨_, rfl, ⟨rfl, hreads⟩, hbuffered⟩
  · exact ⟨_, rfl, ⟨rfl, hreads⟩, hbuffered⟩

theorem current_attempts {c : MqttClient cfg} {item : OutgoingPacket} (env : Env cfg)
    (hcurrent : c.outbox.getCurrent = some item) (n : ℕ) :
    ∃ touched, (c.attempts env n).outbox.getCurrent = some touched ∧ Resembles cfg item touched := by
  induction n with
  | zero => exact ⟨item, hcurrent, .refl item⟩
  | succ n ih =>
    obtain ⟨touched, htouched, hresembles⟩ := ih
    obtain ⟨next, hnext, hresembles'⟩ := current_sendPacket env htouched
    rw [attempts_succ]
    exact ⟨next, hnext, hresembles.trans hresembles'⟩

theorem writesOn_refl (c : MqttClient cfg) (item : OutgoingPacket) : WritesOn c c item :=
  ⟨[], rfl, by rw [Nat.sub_self]; rfl, fun _ => by rw [Nat.sub_self]; rfl⟩

/-- What is written from one position to the next, and from there on. -/
theorem WritesOn.trans {c c' c'' : MqttClient cfg} {item touched : OutgoingPacket} (h : WritesOn c c' item)
    (h' : WritesOn c' c'' touched) (hresembles : Resembles cfg item touched) (hle : c.bytesSent ≤ c'.bytesSent)
    (hle' : c'.bytesSent ≤ c''.bytesSent) : WritesOn c c'' item := by
  obtain ⟨news, hlog, hpositions, hbytes⟩ := h
  obtain ⟨news', hlog', hpositions', hbytes'⟩ := h'
  have hlength : c''.bytesSent - c.bytesSent =
      (c'.bytesSent - c.bytesSent) + (c''.bytesSent - c'.bytesSent) := by omega
  have hstart : c'.bytesSent = c.bytesSent + (c'.bytesSent - c.bytesSent) := by omega
  refine ⟨news' ++ news, by rw [hlog', hlog, List.append_assoc], ?_, fun hnone => ?_⟩
  · rw [hresembles.added] at hpositions'
    rw [List.reverse_append, List.flatMap_append, hpositions, hpositions', hlength, ← List.range'_append_1]
    rw [← hstart]
  · have hsame := hresembles.buffered hnone
    rw [List.reverse_append, List.flatMap_append, hbytes hnone, hbytes' (hsame ▸ hnone), hsame, hlength,
      List.take_add, List.drop_drop, ← hstart]

theorem canAdvance_of_le {c : MqttClient cfg} {item : OutgoingPacket}
    (hcurrent : c.outbox.getCurrent = some item)
    (hle : c.bytesSent ≤ item.packet.size) : c.CanAdvance item := by
  rcases hle.eq_or_lt with heq | hlt
  · obtain ⟨rest, hpending⟩ := getCurrent_eq_some.mp hcurrent
    refine .inl ⟨heq, ?_⟩
    rw [advanceOutbox_of_eq hcurrent heq, hpending, List.tail_cons]
    show (leave (c.farewell item.packet).outbox item).pending = rest
    rw [outbox_farewell, pending_leave hpending]
  · exact .inr ⟨hlt, fun hsendable hdelivers => hsendable.available_ne_zero hdelivers c.tick hlt⟩

/-- Calls that `send` does not fail keep the position. -/
theorem proceeds_of_accepted {c : MqttClient cfg} {item : OutgoingPacket}
    (hcurrent : c.outbox.getCurrent = some item) (hformed : item.packet.Formed)
    (hbounded : item.packet.Bounded cfg) (hle : c.bytesSent ≤ item.packet.size)
    (h : ∀ n, ∀ touched ∈ (c.attempts env n).outbox.getCurrent, (c.attempts env n).Accepted env touched) :
    c.Proceeds env item := by
  -- the position is within the packet and everything in front of it is written
  have hinvariant : ∀ n, c.bytesSent ≤ (c.attempts env n).bytesSent ∧
      (c.attempts env n).bytesSent ≤ item.packet.size ∧ WritesOn c (c.attempts env n) item := by
    intro n
    induction n with
    | zero => exact ⟨le_rfl, hle, writesOn_refl c item⟩
    | succ n ih =>
      obtain ⟨hfrom, hto, hwritten⟩ := ih
      obtain ⟨touched, htouched, hresembles⟩ := current_attempts env hcurrent n
      have hkeeps := (keepsPosition_iff htouched (hresembles.reads.formed hformed)
        (hbounded.reads hresembles.reads) (hresembles.reads.size.symm ▸ hto)).mpr (h n touched htouched)
      rw [attempts_succ]
      exact ⟨hfrom.trans hkeeps.le, hresembles.reads.size ▸ hkeeps.within,
        hwritten.trans hkeeps.written hresembles hfrom hkeeps.le⟩
  intro n touched htouched
  obtain ⟨touched', htouched', hresembles⟩ := current_attempts env hcurrent n
  obtain rfl := Option.some.inj (htouched'.symm.trans htouched)
  have hto : (c.attempts env n).bytesSent ≤ touched'.packet.size :=
    hresembles.reads.size.symm ▸ (hinvariant n).2.1
  exact ⟨(keepsPosition_iff htouched (hresembles.reads.formed hformed) (hbounded.reads hresembles.reads)
    hto).mpr (h n touched' htouched), (hinvariant n).2.2, canAdvance_of_le htouched hto⟩

/-- **The position is kept** by any number of calls exactly when none of them meets a failure of `send`
(and with a payload callback `send` takes what is there). -/
theorem proceeds_iff {c : MqttClient cfg} {item : OutgoingPacket} (hcurrent : c.outbox.getCurrent = some item)
    (hformed : item.packet.Formed) (hbounded : item.packet.Bounded cfg) (hle : c.bytesSent ≤ item.packet.size) :
    c.Proceeds env item ↔ ∀ n, ∀ touched ∈ (c.attempts env n).outbox.getCurrent,
      (c.attempts env n).Accepted env touched := by
  refine ⟨fun h n touched htouched => ?_, proceeds_of_accepted hcurrent hformed hbounded hle⟩
  obtain ⟨touched', htouched', hresembles⟩ := current_attempts env hcurrent n
  obtain rfl := Option.some.inj (htouched'.symm.trans htouched)
  obtain ⟨hkeeps, -, hadvance⟩ := h n touched' htouched
  have hwithin : (c.attempts env n).bytesSent ≤ touched'.packet.size := by
    rcases hadvance with ⟨heq, -⟩ | ⟨hlt, -⟩ <;> omega
  exact (keepsPosition_iff htouched (hresembles.reads.formed hformed) (hbounded.reads hresembles.reads)
    hwithin).mp hkeeps

/-- From a buffer with fewer than 2^31 bytes anything but a failure is accepted. -/
theorem accepted_of_nonneg {c : MqttClient cfg} {item : OutgoingPacket} (hnone : item.packet.getPayload = none)
    (hsize : item.packet.size < 2 ^ 31) (hwrite : ∀ tick size, 0 ≤ env.write tick size) :
    c.Accepted env item := by
  rw [Accepted, Packet.available_buffered hnone]
  intro hne
  have hpos := hwrite (c.tick + 1) (item.packet.size - c.bytesSent)
  have hle := env.write_le (c.tick + 1) (item.packet.size - c.bytesSent)
  refine ⟨hpos, fun hsome => ?_, fun hend => ?_⟩
  · rw [hnone] at hsome
    cases hsome
  · rw [Int.bmod_def]
    omega

/-- A client that is about to send its CONNECT. -/
def connecting : MqttClient .linux := Script.run {} [.call .connect, .loop]

/-- The CONNECT. -/
def connectItem : OutgoingPacket := connecting.outbox.getCurrent.get (by decide +kernel)

/-- The transport takes 3 bytes of it, nothing, and the rest. -/
def haltingScript : Script where
  write := [(5, 3), (9, 0)]

theorem proceeds_iff_halting : connecting.Proceeds (haltingScript.env .linux) connectItem := by
  have hcurrent : connecting.outbox.getCurrent = some connectItem := (Option.some_get _).symm
  have hnone : connectItem.packet.getPayload.isNone := by decide +kernel
  have hformed : connectItem.packet.Formed :=
    ⟨fun _ => by decide +kernel, fun h => absurd h (by decide +kernel)⟩
  have hbounded : connectItem.packet.Bounded .linux :=
    ⟨by decide +kernel, by decide +kernel, by decide +kernel, by decide +kernel⟩
  refine (proceeds_iff hcurrent hformed hbounded (by decide +kernel)).mpr fun n touched htouched => ?_
  obtain ⟨touched', htouched', hresembles⟩ := current_attempts (haltingScript.env .linux) hcurrent n
  obtain rfl := Option.some.inj (htouched'.symm.trans htouched)
  have hsame := hresembles.buffered (Option.isNone_iff_eq_none.mp hnone)
  refine accepted_of_nonneg (hsame ▸ Option.isNone_iff_eq_none.mp hnone) ?_ fun tick size => ?_
  · rw [hsame]
    decide +kernel
  · exact le_min (Int.natCast_nonneg _) (Int.natCast_nonneg _)

/-- The first `send` fails. -/
def failingWrite (tick size : ℕ) : ℤ := if tick = 5 then -1 else size

theorem le_failingWrite (tick size : ℕ) : -1 ≤ failingWrite tick size := by
  rw [failingWrite]
  split <;> omega

theorem failingWrite_le (tick size : ℕ) : failingWrite tick size ≤ size := by
  rw [failingWrite]
  split <;> omega

/-- An environment in which the first `send` fails. -/
def failing : Env .linux :=
  { Script.env .linux {} with
    write := failingWrite
    le_write := le_failingWrite
    write_le := failingWrite_le }

/-- The position is then `SIZE_MAX`, which is behind the end of the CONNECT. -/
theorem not_proceeds_failing : ¬ ∀ env : Env .linux, connecting.Proceeds env connectItem := by
  intro h
  have hcurrent : connecting.outbox.getCurrent = some connectItem := (Option.some_get _).symm
  have hwithin := (h failing 0 connectItem hcurrent).1.within
  exact absurd hwithin (by decide +kernel)

-- From then on nothing of it is available.
example : ((connecting.attempts failing 5).outbox.getCurrent.map fun item =>
    (item.packet.available .linux 0 (connecting.attempts failing 5).bytesSent).1) = some 0 := by decide +kernel

end MqttClient

end EspMqttClient
