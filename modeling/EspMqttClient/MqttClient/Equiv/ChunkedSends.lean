/-
  A PUBLISH with a payload callback in the queue.

  What the packet offers is what `_sendPacket` hands to the transport.  With a payload, and room in the buffer,
  each offer lies in the packet (`Feeds.sendPacket`), so the position keeps to it as long as `send` does not fail
  (`proceeds_chunked`).  If besides the callback delivers whenever it is asked, and the transport takes something
  whenever it is offered something, the position comes to the end, and the cursor leaves the packet
  (`getsPast_of_feeds`).  A callback that has nothing more to deliver keeps the cursor where it is.
-/
import EspMqttClient.MqttClient.Equiv.Failures

namespace EspMqttClient

/-- The transport takes something whenever it is offered something. -/
def Env.Takes {cfg : Config} (env : Env cfg) : Prop := ∀ tick size : ℕ, 0 < size → 0 < env.write tick size

namespace MqttClient

variable {cfg : Config} {env : Env cfg}

/-! ### One call -/

/-- The packet has the payload bytes for the position, or room for them. -/
structure Feeds (header : List Byte) (payloadLength : ℕ) (callback : PayloadCallback) (c : MqttClient cfg)
    (item : OutgoingPacket) : Prop where
  carries : item.packet.Carries cfg header payloadLength callback
  follows : ∃ last, item.packet.Follows header last c.bytesSent
  size_lt : item.packet.size < 2 ^ 31

section

variable {header : List Byte} {payloadLength : ℕ} {callback : PayloadCallback} {c : MqttClient cfg}
  {item : OutgoingPacket} {rest : List OutgoingPacket}

/-- **A call of `_sendPacket`** takes the position on by what `send` takes, and tells its caller. -/
theorem Feeds.sendPacket (h : c.Feeds header payloadLength callback item) (hheader : 1 < header.length)
    (hpayload : 0 < payloadLength) (hpending : c.outbox.pending = item :: rest)
    (hwrite : ∀ tick size : ℕ, 0 < size → 0 ≤ env.write tick size) :
    ∃ (n : ℕ) (touched : OutgoingPacket), (c.sendPacket env).1 = n ∧
      (c.sendPacket env).2.bytesSent = c.bytesSent + n ∧
      (c.sendPacket env).2.outbox.pending = touched :: rest ∧ touched.packet.size = item.packet.size ∧
      (c.sendPacket env).2.Feeds header payloadLength callback touched ∧
      (env.Takes → callback.Delivers → c.bytesSent < item.packet.size → 0 < n) := by
  obtain ⟨hcarries, ⟨last, hfollows⟩, hsize⟩ := h
  have hserves := hcarries.serves hheader hpayload hfollows c.tick
  have hmod := cfg.le_sizeMod
  rcases sendPacket_cases env c with ⟨hnil, -⟩ | ⟨other, rest', available, packet, hpending', havailable, h⟩
  · rw [hpending] at hnil
    cases hnil
  obtain ⟨rfl, rfl⟩ := List.cons.inj (hpending.symm.trans hpending')
  have hreads := Packet.reads_of_available havailable
  have hwithin := hserves.honest.within
  rw [havailable] at hwithin
  dsimp only at hwithin
  have hnext : ∀ {c' : MqttClient cfg} {n : ℕ} (timeSent : UInt32), n ≤ available →
      c'.bytesSent = c.bytesSent + n →
        c'.Feeds header payloadLength callback ⟨timeSent, packet, item.added⟩ := by
    intro c' n timeSent hn hposition
    have hcarries' := hserves.carries
    have hfollows' := hserves.follows n
    rw [havailable] at hcarries' hfollows'
    exact ⟨hcarries', ⟨_, hposition ▸ hfollows' hn⟩, hreads.size.trans_lt hsize⟩
  rcases h with ⟨hzero, h⟩ | ⟨hne, timeSent, activity, h⟩
  · -- nothing is offered
    refine ⟨0, { item with packet }, ?_, ?_, ?_, hreads.size, ?_, fun _ hdelivers hlt => ?_⟩ <;> try rw [h]
    · rfl
    · rfl
    · rfl
    · exact hnext item.timeSent (Nat.zero_le _) rfl
    · have hadvances := hserves.advances hdelivers hlt
      rw [havailable] at hadvances
      exact absurd hzero hadvances.ne'
  · -- `send` takes some of it
    obtain ⟨n, hn⟩ := Int.eq_ofNat_of_zero_le (hwrite (c.tick + 1) available (Nat.pos_of_ne_zero hne))
    have hle := env.write_le (c.tick + 1) available
    rw [hn] at h hle
    have hcount : ((n : ℤ) % cfg.sizeMod).toNat = n := by
      rw [toNat_emod_sizeMod (by omega) (by omega), Int.toNat_natCast]
    have hposition : (c.sendPacket env).2.bytesSent = c.bytesSent + n := by
      rw [h]
      show cfg.wrap (c.bytesSent + ((n : ℤ) % cfg.sizeMod).toNat) = c.bytesSent + n
      rw [hcount, cfg.wrap_of_lt (by omega)]
    refine ⟨n, ⟨timeSent, packet, item.added⟩, ?_, hposition, ?_, hreads.size,
      hnext timeSent (by omega) hposition, fun htakes _ _ => ?_⟩
    · rw [h]
      dsimp only
      rw [hcount, bmod_of_lt (by omega)]
    · rw [h]
      rfl
    · have hpos := htakes (c.tick + 1) available (Nat.pos_of_ne_zero hne)
      omega

/-- **What `send` takes lies in the packet and in its buffer**, if it does not fail. -/
theorem Feeds.accepted (h : c.Feeds header payloadLength callback item) (hheader : 1 < header.length)
    (hpayload : 0 < payloadLength) (hwrite : ∀ tick size : ℕ, 0 < size → 0 ≤ env.write tick size) :
    c.Accepted env item := by
  obtain ⟨hcarries, ⟨last, hfollows⟩, hsize⟩ := h
  have hhonest := (hcarries.serves hheader hpayload hfollows c.tick).honest
  have hwithin := hhonest.within
  have hlength := hhonest.length
  rw [Accepted]
  dsimp only at hwithin hlength ⊢
  rw [List.length_take] at hlength
  intro hne
  have hpos := hwrite (c.tick + 1) (item.packet.available cfg c.tick c.bytesSent).1 (Nat.pos_of_ne_zero hne)
  have hle := env.write_le (c.tick + 1) (item.packet.available cfg c.tick c.bytesSent).1
  have hsame : (item.packet.available cfg c.tick c.bytesSent).2.size = item.packet.size :=
    (Packet.available_alike c.tick item.packet c.bytesSent).size
  refine ⟨hpos, fun _ => ⟨by omega, by omega⟩, fun hend => ?_⟩
  rw [Int.bmod_def]
  omega

/-! ### Any number of calls -/

theorem Feeds.attempts (h : c.Feeds header payloadLength callback item) (hheader : 1 < header.length)
    (hpayload : 0 < payloadLength) (hpending : c.outbox.pending = item :: rest)
    (hwrite : ∀ tick size : ℕ, 0 < size → 0 ≤ env.write tick size) (n : ℕ) :
    ∃ touched, (c.attempts env n).outbox.pending = touched :: rest ∧
      (c.attempts env n).Feeds header payloadLength callback touched := by
  induction n with
  | zero => exact ⟨item, hpending, h⟩
  | succ n ih =>
    obtain ⟨touched, htouched, hfeeds⟩ := ih
    obtain ⟨-, next, -, -, hnext, -, hfeeds', -⟩ := hfeeds.sendPacket hheader hpayload htouched hwrite
    rw [attempts_succ]
    exact ⟨next, hnext, hfeeds'⟩

/-! ### The end of the packet -/

/-- The loop of `_checkOutbox` takes the position to the end of the current packet, `_advanceOutbox` takes the
cursor to the rest of the queue, and the loop goes on there. -/
def GetsPast (env : Env cfg) (c : MqttClient cfg) (size : ℕ) (rest : List OutgoingPacket) : Prop :=
  ∃ n ≤ size, (c.attempts env n).bytesSent = size ∧
    (c.attempts env n).advanceOutbox.2.outbox.pending = rest ∧
    (c.attempts env n).advanceOutbox.2.bytesSent = 0 ∧
    ∀ fuel, c.checkOutboxLoop env (fuel + n) = (c.attempts env n).advanceOutbox.2.checkOutboxLoop env fuel

/-- **The loop gets past a packet** whose callback delivers. -/
theorem getsPast_of_feeds (hheader : 1 < header.length) (hpayload : 0 < payloadLength) (htakes : env.Takes)
    (hdelivers : callback.Delivers) {size : ℕ} (hfeeds : c.Feeds header payloadLength callback item)
    (hpending : c.outbox.pending = item :: rest) (hsize : item.packet.size = size) (hlt : c.bytesSent < size) :
    c.GetsPast env size rest := by
  -- each call takes the position on, so there are at most as many as there are bytes left
  suffices h : ∀ (left : ℕ) {c : MqttClient cfg} {item : OutgoingPacket}, size - c.bytesSent ≤ left →
      c.Feeds header payloadLength callback item → c.outbox.pending = item :: rest → item.packet.size = size →
      c.bytesSent < size → ∃ n ≤ size - c.bytesSent, (c.attempts env n).bytesSent = size ∧
        (c.attempts env n).advanceOutbox.2.outbox.pending = rest ∧
        (c.attempts env n).advanceOutbox.2.bytesSent = 0 ∧
        ∀ fuel, c.checkOutboxLoop env (fuel + n) =
          (c.attempts env n).advanceOutbox.2.checkOutboxLoop env fuel by
    obtain ⟨n, hn, hrest⟩ := h _ le_rfl hfeeds hpending hsize hlt
    exact ⟨n, hn.trans (Nat.sub_le _ _), hrest⟩
  intro left
  induction left with
  | zero =>
    intro c item hleft _ _ _ hlt
    omega
  | succ left ih =>
    intro c item hleft hfeeds hpending hsize hlt
    obtain ⟨n, touched, hresult, hposition, hpending', hsame, hfeeds', hpos⟩ :=
      hfeeds.sendPacket hheader hpayload hpending fun tick size h => (htakes tick size h).le
    have hn := hpos htakes hdelivers (hsize ▸ hlt)
    obtain ⟨last, hfollows⟩ := hfeeds'.follows
    have hle := hfollows.le_size
    have hcurrent : (c.sendPacket env).2.outbox.getCurrent = some touched :=
      getCurrent_eq_some.mpr ⟨rest, hpending'⟩
    have hsend : c.sendPacket env = ((n : ℤ), (c.sendPacket env).2) := Prod.ext hresult rfl
    rcases Nat.eq_or_lt_of_le hle with hend | hmore
    · refine ⟨1, by omega, ?_⟩
      rw [attempts_succ]
      show (c.sendPacket env).2.bytesSent = size ∧ (c.sendPacket env).2.advanceOutbox.2.outbox.pending = rest ∧
        (c.sendPacket env).2.advanceOutbox.2.bytesSent = 0 ∧ _
      refine ⟨by omega, ?_, ?_, fun fuel => ?_⟩
      · rw [advanceOutbox_of_eq hcurrent hend]
        show (leave ((c.sendPacket env).2.farewell touched.packet).outbox touched).pending = rest
        rw [outbox_farewell, pending_leave hpending']
      · rw [advanceOutbox_of_eq hcurrent hend]
        rfl
      · rw [checkOutboxLoop_completes hsend (by omega) hcurrent hend]
        show _ = (c.sendPacket env).2.advanceOutbox.2.checkOutboxLoop env fuel
        rw [advanceOutbox_of_eq hcurrent hend]
    · obtain ⟨m, hm, hend, hrest, hzero, hloop⟩ := ih (by omega) hfeeds' hpending' (hsame.trans hsize) (by omega)
      refine ⟨m + 1, by omega, ?_⟩
      have hattempts : c.attempts env (m + 1) = (c.sendPacket env).2.attempts env m :=
        Function.iterate_succ_apply _ m c
      rw [hattempts]
      refine ⟨hend, hrest, hzero, fun fuel => ?_⟩
      rw [← Nat.add_assoc, checkOutboxLoop_within hsend (by omega) hcurrent hmore.ne, hloop]

end

/-! ### A callback that has nothing more -/

/-- Up to the payload there is the header, and nothing behind it. -/
theorem available_dry {p : Packet} {callback : PayloadCallback} {call index : ℕ}
    (hcallback : p.getPayload = some callback) (hheader : 0 < p.payloadIndex)
    (hpayload : p.payloadIndex < p.size) (hend : p.payloadEndIndex ≠ 0) (hindex : index ≤ p.payloadIndex)
    (hwindow : index = p.payloadIndex → p.payloadEndIndex < index)
    (hdry : ∀ maxSize, callback.copy call maxSize index = []) :
    (p.available cfg call index).1 = p.payloadIndex - index ∧
      (p.available cfg call index).2.payloadEndIndex + 1 = p.payloadIndex := by
  obtain ⟨maxSize, hroom⟩ : ∃ maxSize, p.room cfg index = some maxSize := by
    rw [Packet.room, if_neg (by rw [hcallback]; simp; omega)]
    split_ifs
    · exact ⟨_, rfl⟩
    · omega
    · exact ⟨_, rfl⟩
    · omega
  rw [Packet.available_room hcallback, if_neg (by omega), Packet.refill_of_some hroom, hdry, max_eq_left hindex]
  simp only [Packet.fillWindow, List.length_nil]
  omega

/-- The position is in the header or behind it, and the callback is asked in vain. -/
structure Starves (callback : PayloadCallback) (last header size : ℕ) (c : MqttClient cfg)
    (item : OutgoingPacket) : Prop where
  current : c.outbox.getCurrent = some item
  getPayload : item.packet.getPayload = some callback
  payloadIndex : item.packet.payloadIndex = header
  packetSize : item.packet.size = size
  window : item.packet.payloadEndIndex ≠ 0
  le_header : c.bytesSent ≤ header
  exhausted : c.bytesSent = header → item.packet.payloadEndIndex < header
  le_tick : last ≤ c.tick

theorem Starves.sendPacket {callback : PayloadCallback} {last header size : ℕ} {c : MqttClient cfg}
    {item : OutgoingPacket} (h : c.Starves callback last header size item)
    (hdry : ∀ call ≥ last, ∀ maxSize index, callback.copy call maxSize index = []) (hheader : 1 < header)
    (hlt : header < size) (hmod : size < cfg.sizeMod)
    (hwrite : ∀ tick size : ℕ, 0 < size → 0 ≤ env.write tick size) :
    ∃ touched, (c.sendPacket env).2.Starves callback last header size touched := by
  obtain ⟨hcurrent, hgetPayload, rfl, rfl, hwindow, hle, hexhausted, htick⟩ := h
  obtain ⟨havailable, hend⟩ := @available_dry cfg item.packet callback c.tick c.bytesSent hgetPayload (by omega)
    hlt hwindow hle (fun heq => heq ▸ hexhausted heq) (fun maxSize => hdry c.tick htick maxSize c.bytesSent)
  rcases sendPacket_cases env c with ⟨hnil, -⟩ | ⟨other, rest, available, packet, hpending, hoffered, h⟩
  · rw [getCurrent_eq_none.mpr hnil] at hcurrent
    cases hcurrent
  obtain rfl := Option.some.inj ((getCurrent_eq_some.mpr ⟨rest, hpending⟩).symm.trans hcurrent)
  have hreads := Packet.reads_of_available hoffered
  have hindex : packet.payloadIndex = other.packet.payloadIndex := by
    have halike := @Packet.available_alike cfg c.tick other.packet c.bytesSent
    rw [hoffered] at halike
    exact halike.payloadIndex
  rw [hoffered] at havailable hend
  dsimp only at havailable hend
  rcases h with ⟨hzero, h⟩ | ⟨hne, timeSent, activity, h⟩
  · refine ⟨{ other with packet }, ?_⟩
    rw [h]
    refine ⟨rfl, hreads.getPayload.trans hgetPayload, hindex, hreads.size, ?_, hle, fun _ => ?_,
      htick.trans (Nat.le_succ _)⟩
    · show packet.payloadEndIndex ≠ 0
      omega
    · show packet.payloadEndIndex < _
      omega
  · obtain ⟨n, hn⟩ := Int.eq_ofNat_of_zero_le (hwrite (c.tick + 1) available (Nat.pos_of_ne_zero hne))
    have htaken := env.write_le (c.tick + 1) available
    rw [hn] at h htaken
    refine ⟨{ other with packet, timeSent }, ?_⟩
    have hposition : (c.sendPacket env).2.bytesSent = c.bytesSent + n := by
      rw [h]
      show cfg.wrap (c.bytesSent + ((n : ℤ) % cfg.sizeMod).toNat) = c.bytesSent + n
      rw [toNat_emod_sizeMod (by omega) (by omega), Int.toNat_natCast, cfg.wrap_of_lt (by omega)]
    refine ⟨by rw [h]; rfl, hreads.getPayload.trans hgetPayload, hindex, hreads.size, ?_, by omega,
      fun _ => ?_, ?_⟩
    · show packet.payloadEndIndex ≠ 0
      omega
    · show packet.payloadEndIndex < _
      omega
    · rw [h]
      exact htick.trans (Nat.le_add_right _ 4)

theorem Starves.attempts {callback : PayloadCallback} {last header size : ℕ} {c : MqttClient cfg}
    {item : OutgoingPacket} (h : c.Starves callback last header size item)
    (hdry : ∀ call ≥ last, ∀ maxSize index, callback.copy call maxSize index = []) (hheader : 1 < header)
    (hlt : header < size) (hmod : size < cfg.sizeMod)
    (hwrite : ∀ tick size : ℕ, 0 < size → 0 ≤ env.write tick size) (n : ℕ) :
    ∃ touched, (c.attempts env n).Starves callback last header size touched := by
  induction n with
  | zero => exact ⟨item, h⟩
  | succ n ih =>
    obtain ⟨touched, hstarves⟩ := ih
    rw [attempts_succ]
    exact hstarves.sendPacket hdry hheader hlt hmod hwrite

/-! ### The packet that is built -/

/-- However the packet was read before, when it is sent by a transport that takes something it is written to its
end and does not keep the queue waiting. -/
def NeverBlocks (cfg : Config) (packetId : UInt16) (topic : CString) (qos : Byte) (retain : Bool)
    (payloadLength : ℕ) (callback : PayloadCallback) : Prop :=
  ∀ (alloc : Alloc) (packet : Packet),
    Packet.publishChunked cfg alloc packetId topic callback payloadLength qos retain = (.SUCCESS, packet) →
    ∀ (env : Env cfg) (c : MqttClient cfg) (item : OutgoingPacket) (rest : List OutgoingPacket), env.Takes →
      Packet.Reads cfg packet item.packet → c.outbox.pending = item :: rest → c.bytesSent = 0 →
      c.GetsPast env item.packet.size rest

/-- What a PUBLISH with a payload callback is to do: offer its own bytes and no others, and get out of the
way. -/
def Reliable (cfg : Config) (packetId : UInt16) (topic : CString) (qos : Byte) (retain : Bool)
    (payloadLength : ℕ) (callback : PayloadCallback) : Prop :=
  Packet.OffersWithin cfg packetId topic qos retain payloadLength callback ∧
    NeverBlocks cfg packetId topic qos retain payloadLength callback

section

variable {packetId : UInt16} {topic : CString} {qos : Byte} {retain : Bool} {payloadLength : ℕ}
  {callback : PayloadCallback}

theorem size_publishChunked_lt {alloc : Alloc} {packet : Packet} (hqos : qos ≤ 2)
    (htopic : topic.length ≤ 65535)
    (hmax : Packet.publishRemainingLength topic payloadLength qos ≤ 268435455)
    (h : Packet.publishChunked cfg alloc packetId topic callback payloadLength qos retain = (.SUCCESS, packet)) :
    packet.size < 2 ^ 31 := by
  obtain ⟨-, -, hsize, hindex, -, -⟩ := Packet.publishChunked_sizes hqos htopic hmax h
  have hlength := Packet.length_publishHeaderBytes packetId topic payloadLength qos retain
  have henc := (length_lengthField (lengthField_encode hmax)).2
  omega

/-- With a payload, and room for it, the packet has its bytes whatever was read of it before. -/
theorem feeds_of_room (hqos : qos ≤ 2) (htopic : topic.length ≤ 65535)
    (hmax : Packet.publishRemainingLength topic payloadLength qos ≤ 268435455) (hpayload : 0 < payloadLength)
    (hroom : (Packet.publishHeaderBytes packetId topic payloadLength qos retain).length +
      min cfg.txBufferSize payloadLength ≤ Packet.chunkedBufferLength cfg topic payloadLength qos)
    {alloc : Alloc} {packet : Packet}
    (hpacket : Packet.publishChunked cfg alloc packetId topic callback payloadLength qos retain =
      (.SUCCESS, packet)) {c : MqttClient cfg} {item : OutgoingPacket}
    (hreads : Packet.Reads cfg packet item.packet) (hzero : c.bytesSent = 0) :
    ∃ header : List Byte, 1 < header.length ∧ c.Feeds header payloadLength callback item := by
  have htwo := Packet.two_lt_publishHeaderBytes packetId topic payloadLength qos retain
  obtain ⟨hcarries, -⟩ := Packet.publishChunked_spec hqos htopic hmax hpayload hroom hpacket
  obtain ⟨hread, hlength⟩ := hcarries.reads (by omega) hpayload hreads
  have hsize := size_publishChunked_lt hqos htopic hmax hpacket
  exact ⟨_, by omega, hread, ⟨⟨0, []⟩, hzero.symm ▸ Packet.Carries.follows_zero (by omega) _⟩,
    hreads.size.trans_lt hsize⟩

/-- **The position keeps to the packet** as long as `send` does not fail, whatever the callback copies. -/
theorem proceeds_chunked (hqos : qos ≤ 2) (htopic : topic.length ≤ 65535)
    (hmax : Packet.publishRemainingLength topic payloadLength qos ≤ 268435455) (hpayload : 0 < payloadLength)
    (hroom : (Packet.publishHeaderBytes packetId topic payloadLength qos retain).length +
      min cfg.txBufferSize payloadLength ≤ Packet.chunkedBufferLength cfg topic payloadLength qos)
    {alloc : Alloc} {packet : Packet}
    (hpacket : Packet.publishChunked cfg alloc packetId topic callback payloadLength qos retain =
      (.SUCCESS, packet)) {c : MqttClient cfg} {item : OutgoingPacket}
    (hreads : Packet.Reads cfg packet item.packet) (hcurrent : c.outbox.getCurrent = some item)
    (hzero : c.bytesSent = 0) (hwrite : ∀ tick size : ℕ, 0 < size → 0 ≤ env.write tick size) :
    c.Proceeds env item := by
  obtain ⟨header, hheader, hfeeds⟩ := feeds_of_room hqos htopic hmax hpayload hroom hpacket hreads hzero
  obtain ⟨rest, hpending⟩ := getCurrent_eq_some.mp hcurrent
  refine proceeds_of_accepted hcurrent (hreads.formed (Packet.publishChunked_built hpacket).1)
    ((Packet.publishChunked_bounded hpacket).reads hreads) (hzero ▸ Nat.zero_le _) ?_
  intro n touched htouched
  obtain ⟨current, hpending', hfeeds'⟩ := hfeeds.attempts hheader hpayload hpending hwrite n
  obtain rfl := Option.some.inj ((getCurrent_eq_some.mpr ⟨rest, hpending'⟩).symm.trans htouched)
  exact hfeeds'.accepted hheader hpayload hwrite

/-- With a payload, room for it and a callback that delivers the loop gets past the packet. -/
theorem neverBlocks_of_room (hqos : qos ≤ 2) (htopic : topic.length ≤ 65535)
    (hmax : Packet.publishRemainingLength topic payloadLength qos ≤ 268435455) (hpayload : 0 < payloadLength)
    (hroom : (Packet.publishHeaderBytes packetId topic payloadLength qos retain).length +
      min cfg.txBufferSize payloadLength ≤ Packet.chunkedBufferLength cfg topic payloadLength qos)
    (hdelivers : callback.Delivers) : NeverBlocks cfg packetId topic qos retain payloadLength callback := by
  intro alloc packet hpacket env c item rest htakes hreads hpending hzero
  obtain ⟨header, hheader, hfeeds⟩ := feeds_of_room hqos htopic hmax hpayload hroom hpacket hreads hzero
  refine getsPast_of_feeds hheader hpayload htakes hdelivers hfeeds hpending rfl ?_
  rw [hfeeds.carries.size]
  omega

/-- A callback that runs dry keeps the queue waiting. -/
theorem not_neverBlocks_of_runsDry (hqos : qos ≤ 2) (htopic : topic.length ≤ 65535)
    (hmax : Packet.publishRemainingLength topic payloadLength qos ≤ 268435455) (hpayload : 0 < payloadLength)
    (hdry : callback.RunsDry) : ¬ NeverBlocks cfg packetId topic qos retain payloadLength callback := by
  intro h
  obtain ⟨last, hdry⟩ := hdry
  obtain ⟨packet, hpacket⟩ := Packet.exists_publishChunked cfg packetId topic callback payloadLength qos retain
  obtain ⟨hcallback, -, hsize, hindex, -, hend⟩ := Packet.publishChunked_sizes hqos htopic hmax hpacket
  have hlt := size_publishChunked_lt hqos htopic hmax hpacket
  have htwo := Packet.two_lt_publishHeaderBytes packetId topic payloadLength qos retain
  have hmod := cfg.le_sizeMod
  -- the transport takes all that it is offered, and the packet was never read before
  have htakes : (({} : Script).env cfg).Takes := by
    intro tick size hpos
    show 0 < (((size : ℕ) : ℤ) ⊓ size)
    omega
  let c : MqttClient cfg :=
    { MqttClient.new cfg ⟨[0x7b], by decide⟩ with outbox := ⟨[], [⟨0, packet, 0⟩]⟩, tick := last }
  obtain ⟨n, -, hposition, -⟩ :=
    h _ packet hpacket (({} : Script).env cfg) c ⟨0, packet, 0⟩ [] htakes .refl rfl rfl
  have hstarves : c.Starves callback last packet.payloadIndex packet.size ⟨0, packet, 0⟩ :=
    ⟨rfl, hcallback, rfl, rfl, by show packet.payloadEndIndex ≠ 0; omega, Nat.zero_le _,
      fun heq => by change 0 = packet.payloadIndex at heq; omega, le_rfl⟩
  obtain ⟨touched, hwaiting⟩ := hstarves.attempts hdry (by omega) (by omega) (by omega)
    (fun tick size hpos => (htakes tick size hpos).le) n
  have hle := hwaiting.le_header
  change (c.attempts (({} : Script).env cfg) n).bytesSent = packet.size at hposition
  omega

end

/-- **A PUBLISH with a payload callback is reliable**, with every callback that delivers whenever it is asked,
exactly if it has a payload and its buffer has room for what the callback may copy.  A callback that runs dry
keeps the queue waiting. -/
theorem reliable_iff (cfg : Config) {packetId : UInt16} (topic : CString) {qos : Byte} (retain : Bool)
    (payloadLength : ℕ) (hqos : qos ≤ 2) (htopic : topic.length ≤ 65535)
    (hmax : Packet.publishRemainingLength topic payloadLength qos ≤ 268435455) :
    ((∀ callback : PayloadCallback, callback.Delivers →
        Reliable cfg packetId topic qos retain payloadLength callback) ↔
      0 < payloadLength ∧ (Packet.publishHeaderBytes packetId topic payloadLength qos retain).length +
        min cfg.txBufferSize payloadLength ≤ Packet.chunkedBufferLength cfg topic payloadLength qos) ∧
      ∀ callback : PayloadCallback, callback.RunsDry →
        ¬ Reliable cfg packetId topic qos retain payloadLength callback := by
  refine ⟨⟨fun h => ?_, fun ⟨hpayload, hroom⟩ callback hdelivers => ?_⟩, fun callback hdry h => ?_⟩
  · exact Packet.room_of_offersWithin hqos htopic hmax (h .filling PayloadCallback.filling_delivers).1
  · exact ⟨Packet.offersWithin_of_room hqos htopic hmax hpayload hroom callback,
      neverBlocks_of_room hqos htopic hmax hpayload hroom hdelivers⟩
  · rcases Nat.eq_zero_or_pos payloadLength with rfl | hpayload
    · exact Packet.not_offersWithin_of_empty hqos htopic hmax callback h.1
    · exact not_neverBlocks_of_runsDry hqos htopic hmax hpayload hdry h.2

/-- With a payload of 8 bytes. -/
theorem reliable_iff_small :
    ((∀ callback : PayloadCallback, callback.Delivers →
        Reliable .linux 1 ⟨[0x74], by decide⟩ 1 false 8 callback) ↔
      0 < 8 ∧ (Packet.publishHeaderBytes 1 ⟨[0x74], by decide⟩ 8 1 false).length +
        min Config.linux.txBufferSize 8 ≤ Packet.chunkedBufferLength .linux ⟨[0x74], by decide⟩ 8 1) ∧
      ∀ callback : PayloadCallback, callback.RunsDry →
        ¬ Reliable .linux 1 ⟨[0x74], by decide⟩ 1 false 8 callback := by
  apply reliable_iff <;> decide +kernel

/-- With an empty one a byte behind the end is offered. -/
theorem not_reliable_empty : ¬ ∀ (payloadLength : ℕ) (callback : PayloadCallback),
    Reliable .linux 1 ⟨[0x74], by decide⟩ 1 false payloadLength callback := fun h =>
  Packet.not_offersWithin_of_empty (by decide) (by decide) (by decide) .filling (h 0 .filling).1

end MqttClient

end EspMqttClient
