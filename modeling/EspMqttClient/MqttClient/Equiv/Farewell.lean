/-
  After DISCONNECT the client is silent.

  When the last byte of a DISCONNECT was written, no byte of that connection follows it (`run_silent`), as long
  as the DISCONNECT was the last packet in the queue and no CONNACK is accepted behind it.
-/
import EspMqttClient.MqttClient.Equiv.Queued

namespace EspMqttClient

/-! ### Properties of a log -/

/-- A DISCONNECT.  It has no packet id, which a PUBLISH with a quality of service that the header cannot hold,
and so perhaps with this first byte, has. -/
def OutgoingPacket.isFarewell (item : OutgoingPacket) : Bool :=
  item.isType PacketType.DISCONNECT ∧ item.packet.packetId = 0

namespace Record

/-- Is the last byte of a DISCONNECT written? -/
def isFarewell (r : Record) : Bool :=
  match r.event with
  | .write bytes => r.outbox.getCurrent.any fun item =>
      item.isFarewell ∧ r.bytesSent + bytes.length = item.packet.size
  | _ => false

end Record

/-- Was a DISCONNECT written to its end since the transport was told to connect? -/
def Log.farewelled : Log → Bool := Trace.since (·.event.isTransportConnect) (·.isFarewell)

namespace Record

/-- Nothing is in the queue behind a DISCONNECT when its last byte is written, and behind it no CONNACK is
accepted. -/
def isLast (r : Record) (earlier : Log) : Bool :=
  (r.isFarewell → r.outbox.pending.length = 1) ∧ (r.event.isOnConnect → ¬ earlier.farewelled)

/-- Nothing is written behind a DISCONNECT. -/
def isSilent (r : Record) (earlier : Log) : Bool := r.isWriting → ¬ earlier.farewelled

end Record

namespace MqttClient

variable {cfg : Config} {env : Env cfg}

/-! ### The log -/

/-- Only a write says farewell. -/
theorem isFarewell_of_event {r : Record} (h : r.event.isWrite = false) : r.isFarewell = false := by
  rw [Record.isFarewell]
  split
  · rename_i heq
    rw [heq] at h
    cases h
  · rfl

theorem isSilent_of_event {r : Record} (h : r.event.isWrite = false) (earlier : Log) :
    r.isSilent earlier := by
  have hwriting : r.isWriting = false := isWriting_of_event h
  exact decide_eq_true fun hwrites => absurd (hwriting.symm.trans hwrites) (by decide)

theorem farewelled_cons {r : Record} (hdial : r.event.isTransportConnect = false)
    (hwrite : r.event.isWrite = false) (log : Log) : Log.farewelled (r :: log) = log.farewelled := by
  rw [Log.farewelled, Trace.since_cons, isFarewell_of_event hwrite, hdial]
  rfl

/-! ### The invariant -/

/-- A client that may have a DISCONNECT in its queue. -/
def mayFarewell : State → Bool
  | .disconnected | .connectingTcp1 | .connectingTcp2 | .connectingMqtt => false
  | _ => true

/-- A client that has said farewell is on its way out. -/
structure Parting (c : MqttClient cfg) : Prop where
  proper : c.QueuesProper
  held : mayFarewell c.state = false → ∀ item ∈ c.outbox.items, item.isFarewell = false
  parted : c.log.farewelled → (c.state = .disconnectingTcp1 ∧ (c.log.sending → c.outbox.pending = [])) ∨
    c.state = .disconnectingTcp2 ∨ c.state = .disconnected ∨ c.state = .connectingTcp1
  silent : Trace.Always (fun r earlier => r.isSilent earlier) c.log

/-- Something was noted. -/
theorem Parting.noted {c c' : MqttClient cfg} (hc : c.Parting) (hproper : c'.QueuesProper)
    (hstate : c'.state = c.state)
    (hheld : mayFarewell c'.state = false → ∀ item ∈ c'.outbox.items, item.isFarewell = false) {r : Record}
    (hlog : c'.log = r :: c.log) (hdial : r.event.isTransportConnect = false)
    (hwrite : r.event.isWrite = false) (hquiet : Log.sending (r :: c.log) = false) : c'.Parting where
  proper := hproper
  held := hheld
  parted hfarewelled := by
    rw [hlog, farewelled_cons hdial hwrite] at hfarewelled
    rw [hstate, hlog, hquiet]
    rcases hc.parted hfarewelled with h | h
    · exact .inl ⟨h.1, nofun⟩
    · exact .inr h
  silent := by
    rw [hlog]
    exact ⟨isSilent_of_event hwrite c.log, hc.silent⟩

/-! ### Writing -/

theorem isFarewell_reads {packet : Packet} {item : OutgoingPacket}
    (hreads : Packet.Reads cfg item.packet packet) (hproper : Proper item.packet) :
    { item with packet }.isFarewell = item.isFarewell := by
  rw [OutgoingPacket.isFarewell, OutgoingPacket.isFarewell, OutgoingPacket.isType, OutgoingPacket.isType]
  rw [hreads.packetType hproper.toFormed, hreads.packetId]

/-- The write that takes the last byte of a DISCONNECT is seen as one. -/
theorem wrote_farewell {c : MqttClient cfg} {item : OutgoingPacket} {available : ℕ}
    {packet : Packet} (hproper : Proper item.packet)
    (havailable : item.packet.available cfg c.tick c.bytesSent = (available, packet)) (hne : available ≠ 0)
    (hfarewell : { item with packet }.isFarewell)
    (hend : c.bytesSent + ((packet.dataAt c.bytesSent).take (env.write (c.tick + 1) available).toNat).length
      = packet.size) :
    0 < ((env.write (c.tick + 1) available % cfg.sizeMod).toNat : ℤ).bmod (2 ^ 32) ∧
      cfg.wrap (c.bytesSent + (env.write (c.tick + 1) available % cfg.sizeMod).toNat) = packet.size := by
  have hreads := Packet.reads_of_available havailable
  have hproper' := hproper.reads hreads
  rw [OutgoingPacket.isFarewell, decide_eq_true_iff, OutgoingPacket.isType, decide_eq_true_iff] at hfarewell
  obtain ⟨hnone, htwo⟩ := hproper'.farewell hfarewell.1 hfarewell.2
  have hlength := hproper'.buffered hnone
  rw [Packet.available_buffered (hreads.getPayload ▸ hnone)] at havailable
  obtain ⟨rfl, rfl⟩ := Prod.mk.inj havailable
  have hle := env.write_le (c.tick + 1) (item.packet.size - c.bytesSent)
  have hge := env.le_write (c.tick + 1) (item.packet.size - c.bytesSent)
  generalize env.write (c.tick + 1) (item.packet.size - c.bytesSent) = result at hend hle hge ⊢
  rw [Packet.dataAt, hnone] at hend
  dsimp only at hend
  rw [List.length_take, List.length_drop, ← hlength, htwo] at hend
  rw [htwo] at hle hne ⊢
  have hmod := cfg.le_sizeMod
  have hresult : result = ((2 - c.bytesSent : ℕ) : ℤ) := by omega
  rw [toNat_emod_sizeMod (by omega) (by omega), hresult, Int.toNat_natCast, cfg.wrap_of_lt (by omega)]
  have hcases : 2 - c.bytesSent = 1 ∨ 2 - c.bytesSent = 2 := by omega
  refine ⟨?_, by omega⟩
  rcases hcases with h | h <;> rw [h] <;> decide

theorem sendRound_of_nil {c : MqttClient cfg} (h : c.outbox.pending = []) : c.sendRound env = c := by
  have hsend : c.sendPacket env = (0, c) := by
    rcases sendPacket_cases env c with ⟨-, hsend⟩ | ⟨_, _, _, _, hpending, -⟩
    · exact hsend
    · rw [h] at hpending
      cases hpending
  rw [sendRound, hsend, if_neg (lt_irrefl 0)]

/-- Writing to the transport keeps what is held of the queue. -/
theorem Parting.held_of_stays {c c' : MqttClient cfg} (hc : c.Parting) (hstays : Stays cfg c.outbox c'.outbox)
    (hmay : mayFarewell c'.state = false → mayFarewell c.state = false) :
    mayFarewell c'.state = false → ∀ item ∈ c'.outbox.items, item.isFarewell = false := by
  intro hstate item' hmem
  obtain ⟨item, hmem, -, hreads⟩ := hstays item' hmem
  have heq := isFarewell_reads hreads (hc.proper item hmem)
  rw [hc.held (hmay hstate) item hmem] at heq
  exact heq

/-- A client that has not said farewell asks the transport to write. -/
theorem Parting.sendPacket (env : Env cfg) {c : MqttClient cfg} (hc : c.Parting) (hopen : ¬ c.log.farewelled) :
    Trace.Always (fun r earlier => r.isSilent earlier) (c.sendPacket env).2.log ∧
      ((c.sendPacket env).2.log.farewelled → 0 < (c.sendPacket env).1 ∧ ∃ item rest,
        (c.sendPacket env).2.outbox.pending = item :: rest ∧ item.isFarewell ∧
        (c.sendPacket env).2.bytesSent = item.packet.size ∧ mayFarewell c.state ∧
        ∃ r, (c.sendPacket env).2.log = r :: c.log ∧ r.isFarewell ∧
          r.outbox.pending.length = rest.length + 1) := by
  rcases sendPacket_cases env c with ⟨-, h⟩ | ⟨item, rest, available, packet, hpending, havailable, h⟩
  · rw [h]
    exact ⟨hc.silent, fun hfarewelled => absurd hfarewelled hopen⟩
  rcases h with ⟨-, h⟩ | ⟨hne, timeSent, activity, h⟩ <;> rw [h]
  · exact ⟨hc.silent, fun hfarewelled => absurd hfarewelled hopen⟩
  have hmem : item ∈ c.outbox.items := by simp [CursorList.items, hpending]
  dsimp only
  rw [log_wrote]
  refine ⟨⟨?_, hc.silent⟩, fun hfarewelled => ?_⟩
  · exact decide_eq_true fun _ => hopen
  have hhit : (c.written { item with packet } rest (env.write (c.tick + 1) available)).isFarewell := by
    rw [Log.farewelled, Trace.since_cons, Bool.or_eq_true] at hfarewelled
    refine hfarewelled.resolve_right ?_
    rw [show (c.written _ rest _).event.isTransportConnect = false from rfl, Bool.not_false, Bool.true_and]
    exact hopen
  have hend : { item with packet }.isFarewell ∧ c.bytesSent +
      ((packet.dataAt c.bytesSent).take (env.write (c.tick + 1) available).toNat).length = packet.size :=
    of_decide_eq_true hhit
  obtain ⟨hwritten, hsize⟩ := wrote_farewell (hc.proper item hmem) havailable hne hend.1 hend.2
  refine ⟨hwritten, { item with packet, timeSent }, rest, rfl, hend.1, hsize, ?_, _, rfl, hhit, rfl⟩
  by_contra hmay
  have hheld := hc.held (by simpa using hmay) item hmem
  have heq := isFarewell_reads (Packet.reads_of_available havailable) (hc.proper item hmem)
  exact absurd (hend.1.symm.trans (heq.trans hheld)) (by decide)

theorem farewelled_leave {c : MqttClient cfg} {item : OutgoingPacket}
    (hsilent : Trace.Always (fun r earlier => r.isSilent earlier) c.log) {log : Log}
    (hlog : log = (((c.farewell item.packet).note (.sent item.packet)).leaveCurrent item).log) :
    log.farewelled = c.log.farewelled ∧ Trace.Always (fun r earlier => r.isSilent earlier) log ∧
      c.log <:+ log := by
  obtain ⟨r, hr, hcons, hfarewell⟩ := log_leave c item
  have hsent : r.event.isWrite = false := by
    rw [hr]
    rfl
  have hdial : r.event.isTransportConnect = false := by
    rw [hr]
    rfl
  rw [hlog, hcons, farewelled_cons hdial hsent]
  rcases hfarewell with h | ⟨r', hr', h⟩ <;> rw [h]
  · exact ⟨rfl, ⟨isSilent_of_event hsent _, hsilent⟩, List.suffix_cons _ _⟩
  · have hstate : r'.event.isWrite = false := by
      rw [hr']
      rfl
    refine ⟨farewelled_cons (by rw [hr']; rfl) hstate c.log, ?_, ?_⟩
    · exact ⟨isSilent_of_event hsent _, isSilent_of_event hstate _, hsilent⟩
    · exact (List.suffix_cons _ _).trans (List.suffix_cons _ _)

/-- A round of the send loop. -/
theorem Parting.sendRound {c : MqttClient cfg} (hc : c.Parting) (hsends : c.sends)
    (hlast : Trace.Always (fun r earlier => r.isLast earlier) (c.sendRound env).log) :
    (c.sendRound env).Parting := by
  by_cases hfarewelled : c.log.farewelled
  · have hnil : c.outbox.pending = [] := by
      have honline := hsends.1.1
      rcases hc.parted hfarewelled with ⟨hstate, hsending⟩ | hstate | hstate | hstate
      · exact hsending (hsends.2 hstate)
      · rw [hstate] at honline
        cases honline
      · rw [hstate] at honline
        cases honline
      · rw [hstate] at honline
        cases honline
    rwa [sendRound_of_nil hnil]
  obtain ⟨hsilent, hends⟩ := hc.sendPacket env hfarewelled
  have hmay : mayFarewell (c.sendRound env).state = false → mayFarewell c.state = false := by
    rcases state_sendRound env c with h | h <;> rw [h]
    · exact id
    · exact nofun
  have hproper : (c.sendRound env).QueuesProper := (Flow.sendRound hsends).queuesProper hc.proper
  have hheld := hc.held_of_stays (sendRound_stays env c) hmay
  rcases sendRound_cases env c with ⟨h, hnot⟩ | ⟨item, hwritten, hcurrent, hsize, h⟩
  · refine ⟨hproper, hheld, fun hsaid => ?_, by rw [h]; exact hsilent⟩
    rw [h] at hsaid
    obtain ⟨hwritten, item, rest, hpending, -, hsize, -⟩ := hends hsaid
    exact absurd hsize (hnot hwritten item (getCurrent_eq_some.mpr ⟨rest, hpending⟩))
  · obtain ⟨hsame, hsilent', hsuffix⟩ := farewelled_leave hsilent (congrArg MqttClient.log h)
    refine ⟨hproper, hheld, fun hsaid => .inl ?_, hsilent'⟩
    obtain ⟨-, item', rest, hpending, hfarewell, -, -, r, hlog, hr, hlength⟩ := hends (hsame ▸ hsaid)
    obtain ⟨rest', hpending'⟩ := getCurrent_eq_some.mp hcurrent
    obtain ⟨rfl, rfl⟩ := List.cons.inj (hpending.symm.trans hpending')
    have htype : item'.packet.packetType = PacketType.DISCONNECT := by
      rw [OutgoingPacket.isFarewell, decide_eq_true_iff, OutgoingPacket.isType, decide_eq_true_iff]
        at hfarewell
      exact hfarewell.1
    have hone := of_decide_eq_true (Trace.always_iff.mp hlast r c.log (hlog ▸ hsuffix))
    have hrest : rest = [] := List.length_eq_zero_iff.mp (by have := hone.1 hr; omega)
    rw [h]
    constructor
    · rw [farewell_of_type htype]
      rfl
    · intro _
      show (leave ((c.sendPacket env).2.farewell item'.packet).outbox item').pending = []
      rw [outbox_farewell, pending_leave hpending, hrest]

/-! ### Runs -/

/-- What an accepted CONNACK leads to is noted without a write. -/
theorem farewelled_admitted {c : MqttClient cfg}
    (hsilent : Trace.Always (fun r earlier => r.isSilent earlier) c.log) :
    c.admitted.log.farewelled = c.log.farewelled ∧
      Trace.Always (fun r earlier => r.isSilent earlier) c.admitted.log := by
  have hconnected : c.connectedNow.log.farewelled = c.log.farewelled ∧
      Trace.Always (fun r earlier => r.isSilent earlier) c.connectedNow.log :=
    ⟨farewelled_cons rfl rfl c.log, isSilent_of_event rfl c.log, hsilent⟩
  have hadvance : c.connectedNow.advanceOutbox.2.log.farewelled = c.log.farewelled ∧
      Trace.Always (fun r earlier => r.isSilent earlier) c.connectedNow.advanceOutbox.2.log := by
    rcases advanceOutbox_cases c.connectedNow with ⟨h, -⟩ | ⟨item, -, -, h⟩
    · rw [h]
      exact hconnected
    · obtain ⟨hsame, hsilent', -⟩ := farewelled_leave hconnected.2 (congrArg MqttClient.log h)
      exact ⟨hsame.trans hconnected.1, hsilent'⟩
  rw [admitted]
  split_ifs
  · exact ⟨(farewelled_cons rfl rfl _).trans hadvance.1, isSilent_of_event rfl _, hadvance.2⟩
  · exact hadvance

theorem leads_mayFarewell {state next : State} (h : leads state next) (hnext : mayFarewell next = false) :
    mayFarewell state = false := by
  cases next <;> first | (cases hnext; done) | (cases state <;> first | rfl | cases h)

theorem not_farewelled_of_dialling {log : Log} (h : log.dialling) : ¬ log.farewelled := by
  rcases log with _ | ⟨r, log⟩
  · cases h
  · have hdial : r.event.isTransportConnect = true := h
    have hwrite : r.event.isWrite = false := by
      cases hevent : r.event <;> first | rfl | (rw [hevent] at hdial; cases hdial)
    exact @Trace.not_since_of_start Record (·.event.isTransportConnect) (·.isFarewell) r hdial
      (isFarewell_of_event hwrite) log

theorem Parting.move {c : MqttClient cfg} (hc : c.Parting) {next : State} (hleads : leads c.state next)
    (hdialling : next = .connectingTcp2 → c.log.dialling) : (c.setState next).Parting where
  proper := hc.proper
  held hnext := hc.held (leads_mayFarewell hleads hnext)
  parted hfarewelled := by
    rw [setState, note, farewelled_cons rfl rfl] at hfarewelled
    show (next = _ ∧ _) ∨ next = _ ∨ next = _ ∨ next = _
    rcases hc.parted hfarewelled with ⟨hstate, -⟩ | hstate | hstate | hstate
    · rw [hstate] at hleads
      cases next <;> cases hleads
      · exact .inl ⟨rfl, nofun⟩
      · exact .inr (.inl rfl)
    · rw [hstate] at hleads
      cases next <;> cases hleads
    · rw [hstate] at hleads
      cases next <;> cases hleads
    · rw [hstate] at hleads
      cases next <;> cases hleads
      · exact absurd hfarewelled (not_farewelled_of_dialling (hdialling rfl))
      · exact .inl ⟨rfl, nofun⟩
  silent := ⟨isSilent_of_event rfl c.log, hc.silent⟩

/-- What is not a DISCONNECT is not taken for one. -/
theorem isFarewell_eq_false {packet : Packet} {added : ℕ} {timeSent : UInt32}
    (h : packet.packetId ≠ 0 ∨ packet.packetType ≠ PacketType.DISCONNECT) :
    (OutgoingPacket.mk timeSent packet added).isFarewell = false := by
  apply decide_eq_false
  rintro ⟨htype, hid⟩
  rcases h with h | h
  · exact h hid
  · exact h (of_decide_eq_true htype)

theorem ne_of_type {packet : Packet} {type other : MQTTPacketType}
    (h : packet.packetType = type ∨ packet.packetType = 0) (htype : type ≠ other) (hother : other ≠ 0) :
    packet.packetType ≠ other := by
  rcases h with h | h <;> rw [h]
  · exact htype
  · exact hother.symm

theorem publish_ne_farewell {packet : Packet} {packetId : UInt16} {qos : Byte} (hid : qos ≠ 0 → packetId ≠ 0)
    (hpacketId : packet.packetId = if qos = 0 then 0 else packetId)
    (htype : qos ≤ 2 → packet.packetType = PacketType.PUBLISH ∨ packet.packetType = 0) :
    packet.packetId ≠ 0 ∨ packet.packetType ≠ PacketType.DISCONNECT := by
  by_cases hqos : qos = 0
  · exact .inr (ne_of_type (htype (by rw [hqos]; decide)) (by decide) (by decide))
  · rw [if_neg hqos] at hpacketId
    exact .inl (hpacketId ▸ hid hqos)

theorem Requested.ne_farewell {c : MqttClient cfg} {packet : Packet} {event : Event}
    (h : c.Requested packet event) : packet.packetId ≠ 0 ∨ packet.packetType ≠ PacketType.DISCONNECT := by
  cases h with
  | publish _ hid h =>
    obtain ⟨alloc, h⟩ := h
    obtain ⟨-, hpacketId, -, htype⟩ := Packet.publish_built h
    exact publish_ne_farewell hid hpacketId htype
  | publishChunked _ hid h =>
    obtain ⟨alloc, h⟩ := h
    obtain ⟨-, hpacketId, -, htype⟩ := Packet.publishChunked_built h
    exact publish_ne_farewell hid hpacketId htype
  | subscribe _ hid h =>
    obtain ⟨alloc, h⟩ := h
    exact .inl ((Packet.subscribe_built h).2.1 ▸ hid)
  | unsubscribe _ hid h =>
    obtain ⟨alloc, h⟩ := h
    exact .inl ((Packet.unsubscribe_built h).2.1 ▸ hid)
  | ping _ h =>
    obtain ⟨alloc, h⟩ := h
    exact .inr (ne_of_type (Packet.control_built h).2.2.2 (by decide) (by decide))

/-- A packet that is not a DISCONNECT is added. -/
theorem Parting.held_push {c : MqttClient cfg} (hc : c.Parting) {packet : Packet}
    (h : packet.packetId ≠ 0 ∨ packet.packetType ≠ PacketType.DISCONNECT) :
    mayFarewell c.state = false → ∀ item ∈ (c.push packet).outbox.items, item.isFarewell = false := by
  intro hmay item hmem
  rw [show (c.push packet).outbox.items = c.outbox.items ++ [_] from CursorList.items_emplace _ _,
    List.mem_append, List.mem_singleton] at hmem
  rcases hmem with hmem | rfl
  · exact hc.held hmay item hmem
  · exact isFarewell_eq_false h

theorem Requested.quiet {c : MqttClient cfg} {packet : Packet} {event : Event}
    (h : c.Requested packet event) : event.isTransportConnect = false ∧ event.isWrite = false ∧
      ∀ (r : Record) (log : Log), r.event = event → Log.sending (r :: log) = false := by
  cases h <;> refine ⟨rfl, rfl, fun r log hr => ?_⟩ <;> rw [Log.sending, hr]

/-- What the end of a connection leaves in the queue is part of an exchange, so it is no DISCONNECT. -/
theorem isFarewell_of_keeps {item : OutgoingPacket} (h : keeps 0 item) : item.isFarewell = false := by
  apply isFarewell_eq_false
  rw [keeps, if_pos rfl, decide_eq_true_iff] at h
  right
  rcases h with h | h | ⟨h, -⟩
  · rw [of_decide_eq_true h]
    decide
  · rw [of_decide_eq_true h]
    decide
  · rw [of_decide_eq_true h]
    decide

theorem Flow.parting {c c' : MqttClient cfg} (h : Flow env c c')
    (hlast : Trace.Always (fun r earlier => r.isLast earlier) c'.log) (hc : c.Parting) : c'.Parting := by
  have hproper := h.queuesProper hc.proper
  cases h with
  | keep h =>
    refine ⟨hproper, ?_, ?_, ?_⟩
    · rw [h.state, h.outbox]
      exact hc.held
    · rw [h.state, h.outbox, h.log]
      exact hc.parted
    · rw [h.log]
      exact hc.silent
  | note event hmute =>
    refine hc.noted hproper rfl hc.held rfl ?_ ?_ ?_ <;> cases event <;> first | rfl | cases hmute
  | transportConnect success hstate =>
    refine ⟨hproper, hc.held, ?_, isSilent_of_event rfl _, hc.silent⟩
    intro hfarewelled
    exact absurd hfarewelled (Trace.not_since_of_start rfl rfl _)
  | move next hleads hdialling => exact hc.move hleads hdialling
  | connect hstate hpacket =>
    obtain ⟨alloc, hbuilt⟩ := hpacket
    have htype := (Packet.connect_built hbuilt).2.2.2.1
    refine ⟨hproper, fun _ item hmem => ?_, fun _ => .inr (.inr (.inr rfl)), isSilent_of_event rfl _,
      isSilent_of_event rfl _, hc.silent⟩
    rcases List.mem_cons.mp hmem with rfl | hmem
    · exact isFarewell_eq_false (.inr (ne_of_type htype (by decide) (by decide)))
    · exact hc.held (by rw [hstate]; rfl) item hmem
  | rewind h =>
    refine ⟨hproper, hc.held, fun hfarewelled => ?_, hc.silent⟩
    rcases hc.parted hfarewelled with ⟨hstate, -⟩ | hother
    · refine .inl ⟨hstate, fun hsending => ?_⟩
      rcases h with h | ⟨-, hquiet, -⟩
      · rw [hstate] at h
        cases h
      · exact absurd (hsending.symm.trans hquiet) (by decide)
    · exact .inr hother
  | request h =>
    obtain ⟨hdial, hwrite, hquiet⟩ := h.quiet
    exact hc.noted hproper rfl (hc.held_push h.ne_farewell) rfl hdial hwrite (hquiet _ _ rfl)
  | answer hlistens hquiet htype hid hpacket =>
    obtain ⟨alloc, hbuilt⟩ := hpacket
    refine ⟨hproper, hc.held_push (.inl ((Packet.ack_built hbuilt).2.1 ▸ hid)), fun hfarewelled => ?_,
      hc.silent⟩
    rcases hc.parted hfarewelled with ⟨hstate, -⟩ | hother
    · exact .inl ⟨hstate, fun hsending => absurd (hsending.symm.trans hquiet) (by decide)⟩
    · exact .inr hother
  | addDisconnect hstate hempty hpacket =>
    -- a second DISCONNECT: the first one would have left the state behind
    refine ⟨hproper, nofun, fun hfarewelled => ?_, isSilent_of_event rfl _, hc.silent⟩
    have hearlier : c.log.farewelled := (farewelled_cons rfl rfl c.log).symm.trans hfarewelled
    have hparted := hc.parted hearlier
    rw [hstate] at hparted
    simp at hparted
  | @remove it _ hlistens hitem hid =>
    have hheld : mayFarewell c.state = false → ∀ item ∈ (c.remove it).outbox.items, item.isFarewell = false :=
      fun hmay item hmem => hc.held hmay item (CursorList.mem_items_of_mem_remove hmem)
    exact hc.noted hproper rfl hheld rfl rfl rfl rfl
  | clearQueue deleteSessionData =>
    refine hc.noted hproper rfl (hc.held_of_stays ?_ id) rfl rfl rfl rfl
    rw [clearQueueApi, outbox_clearQueue]
    exact filter_stays _ _
  | sendConnect hstate hwait =>
    -- no DISCONNECT was written to its end in this state, so these bytes do not follow one
    have hopen : ¬ c.log.farewelled := by
      intro hfarewelled
      have hparted := hc.parted hfarewelled
      rw [hstate] at hparted
      simp at hparted
    obtain ⟨hsilent, hends⟩ := hc.sendPacket env hopen
    have hmay : mayFarewell (c.sendPacket env).2.state = false → mayFarewell c.state = false := by
      rw [state_sendPacket]
      exact id
    refine ⟨hproper, hc.held_of_stays (sendPacket_stays env c) hmay, fun hfarewelled => ?_, hsilent⟩
    obtain ⟨-, -, -, -, -, -, hmay, -⟩ := hends hfarewelled
    rw [hstate] at hmay
    cases hmay
  | sendRound hsends => exact hc.sendRound hsends hlast
  | accept hstate =>
    obtain ⟨hsame, hsilent⟩ := farewelled_admitted hc.silent
    refine ⟨hproper, fun hmay => ?_, fun hfarewelled => ?_, isSilent_of_event rfl _, hsilent⟩
    · rcases state_admitted c with h | h <;>
        rw [show c.accept.state = c.admitted.state from rfl, h] at hmay <;> cases hmay
    · -- `isLast` rules a CONNACK behind the DISCONNECT out
      have hearlier : c.admitted.log.farewelled :=
        (farewelled_cons rfl rfl c.admitted.log).symm.trans hfarewelled
      exact absurd hearlier ((of_decide_eq_true hlast.1).2 rfl)
  | close =>
    refine ⟨hproper, fun _ item hmem => ?_, fun _ => .inr (.inr (.inl rfl)), isSilent_of_event rfl _,
      isSilent_of_event rfl _, isSilent_of_event rfl _, hc.silent⟩
    rw [show c.close.outbox = (c.clearQueue 0).outbox from rfl, outbox_clearQueue, CursorList.items_filter,
      List.mem_filter] at hmem
    exact isFarewell_of_keeps hmem.2

theorem new_parting (generatedClientId : CString) : (new cfg generatedClientId).Parting where
  proper := fun _ h => absurd h List.not_mem_nil
  held := fun _ _ h => absurd h List.not_mem_nil
  parted := nofun
  silent := trivial

/-- **Nothing follows DISCONNECT**, in every run in which it is the last packet in the queue when its last byte
is written and no CONNACK is accepted after that. -/
theorem run_silent (env : Env cfg) (generatedClientId : CString) (actions : List Action)
    (h : Trace.Always (fun r earlier => r.isLast earlier) ((new cfg generatedClientId).run env actions).log) :
    Trace.Always (fun r earlier => r.isSilent earlier) ((new cfg generatedClientId).run env actions).log := by
  have hparting : ((new cfg generatedClientId).run env actions).Parting :=
    run_flow_always env (fun r earlier => r.isLast earlier) Parting generatedClientId
      (new_parting generatedClientId) Flow.parting actions h
  exact hparting.silent

/-- A transport that is busy when the DISCONNECT is due. -/
def busyScript : Script where
  read := [(9, [0x20, 2, 1, 0])]
  write := [(14, 0)]

theorem run_silent_busy : Trace.Always (fun r earlier => r.isSilent earlier)
    (busyScript.run [.call .connect, .loop, .loop, .call (.disconnect false), .loop, .loop]).log := by
  apply run_silent
  decide +kernel

/-- The same transport, and a keepalive that runs out while the DISCONNECT waits. -/
def lingeringScript : Script where
  read := busyScript.read
  write := busyScript.write
  millis := [(18, 15001)]

/-- The PINGREQ is written behind the DISCONNECT. -/
theorem not_silent_lingering : ¬ Trace.Always (fun r earlier => r.isSilent earlier)
    (lingeringScript.run [.call .connect, .loop, .loop, .call (.disconnect false), .loop, .loop]).log := by
  decide +kernel

end MqttClient

end EspMqttClient
