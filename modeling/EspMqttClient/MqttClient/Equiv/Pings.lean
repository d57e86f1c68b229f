/-
  What `_pingSent` says.

  The flag is set when a PINGREQ is queued.  While the client is connected that PINGREQ stays in the queue until
  both its bytes are written, unless the queue is cleared before, or another packet of which one byte is written
  is taken out in front of it and its first byte is taken for sent (`run_truthful`).
-/
import EspMqttClient.MqttClient.Equiv.Queued

namespace EspMqttClient

/-! ### Properties of a log -/

namespace Event

def isPing : Event → Bool
  | .ping => true
  | _ => false

/-- Is it a PINGRESP that came in? -/
def isPingresp : Event → Bool
  | .packet report => report.packetType &&& 0xF0 = PacketType.PINGRESP
  | _ => false

/-- Does the client stop waiting for a PINGRESP?  A CONNACK makes it forget the PINGREQs before. -/
def endsPing : Event → Bool
  | .state next => next = .connected
  | event => event.isPingresp

end Event

/-- The bytes of a PINGREQ that are written: which packet, and at which position of it. -/
def Record.pinged (r : Record) : List (ℕ × ℕ) :=
  match r.event with
  | .write bytes =>
    match r.outbox.getCurrent with
    | some item =>
      if item.isType PacketType.PINGREQ then (List.range' r.bytesSent bytes.length).map (item.added, ·) else []
    | none => []
  | _ => []

namespace Log

/-- Was a PINGREQ queued since the client stopped waiting for a PINGRESP? -/
def pinging : Log → Bool := Trace.since (·.event.endsPing) (·.event.isPing)

/-- The bytes of PINGREQs that were written in this connection and after the last PINGRESP. -/
def pinged : Log → List (ℕ × ℕ) :=
  Trace.gather (fun r => r.event.isTransportConnect || r.event.isPingresp) (·.pinged)

/-- Were both bytes of a PINGREQ written in this connection and after the last PINGRESP? -/
def pingWritten (log : Log) : Bool := log.pinged.any fun byte => byte.2 = 0 ∧ (byte.1, 1) ∈ log.pinged

end Log

/-- A connected client's queue is not cleared while a PINGREQ is under way.  When exactly one byte of the current
packet is written, that packet is not taken out of the queue and nothing or a PINGREQ left in its place. -/
def Record.sparesPing (r : Record) (earlier : Log) : Bool :=
  match r.event with
  | .clearQueue clearData =>
    (r.state = .connected ∧ earlier.pinging → earlier.pingWritten) ∧
      (r.state ≠ .disconnectingTcp2 ∧ r.bytesSent = 1 → r.outbox.pending.any (MqttClient.keeps clearData))
  | .remove position =>
    position = r.outbox.cursor ∧ r.bytesSent = 1 →
      (r.outbox.pending.drop 1).head?.any fun next => ¬ next.isType PacketType.PINGREQ
  | _ => true

namespace MqttClient

variable {cfg : Config} {env : Env cfg}

/-- If `_pingSent` is set in a connected client, a PINGREQ is in the queue or was written as a whole in this
connection and after the last PINGRESP. -/
def Truthful (c : MqttClient cfg) : Prop :=
  c.state = .connected → c.pingSent →
    (∃ item ∈ c.outbox.items, item.isType PacketType.PINGREQ) ∨ c.log.pingWritten

instance (c : MqttClient cfg) : Decidable c.Truthful := inferInstanceAs (Decidable (_ → _ → _))

/-! ### The log -/

theorem pinged_cons {r : Record} (h : (r.event.isTransportConnect || r.event.isPingresp) = false) (log : Log) :
    Log.pinged (r :: log) = log.pinged ++ r.pinged := by
  rw [Log.pinged, Trace.gather_cons, if_neg (by simp [h])]

/-- Only a write writes a PINGREQ. -/
theorem pinged_of_event {r : Record} (h : r.event.isWrite = false) : r.pinged = [] := by
  rw [Record.pinged]
  split
  · rename_i heq
    rw [heq] at h
    cases h
  · rfl

theorem pinging_cons {r : Record} (hping : r.event.isPing = false) (hends : r.event.endsPing = false)
    (log : Log) :
    Log.pinging (r :: log) = log.pinging := by
  rw [Log.pinging, Trace.since_cons, hping, hends]
  rfl

theorem pinging_of_ends {r : Record} (h : r.event.endsPing) (log : Log) : Log.pinging (r :: log) = false := by
  have hping : r.event.isPing = false := by
    cases hevent : r.event <;> first | rfl | (rw [hevent] at h; cases h)
  exact Bool.eq_false_iff.mpr (@Trace.not_since_of_start Record (·.event.endsPing)
    (·.event.isPing) r h hping log)

/-- Both bytes of a PINGREQ are written. -/
theorem pingWritten_of_mem {log : Log} {added : ℕ} (h0 : (added, 0) ∈ log.pinged)
    (h1 : (added, 1) ∈ log.pinged) :
    log.pingWritten := by
  rw [Log.pingWritten, List.any_eq_true]
  exact ⟨(added, 0), h0, by simpa using h1⟩

theorem pingWritten_mono {log log' : Log} (h : log.pinged ⊆ log'.pinged) (hlog : log.pingWritten) :
    log'.pingWritten := by
  rw [Log.pingWritten, List.any_eq_true] at hlog
  obtain ⟨⟨added, position⟩, hmem, hboth⟩ := hlog
  obtain ⟨rfl, hone⟩ := of_decide_eq_true hboth
  exact pingWritten_of_mem (h hmem) (h hone)

/-! ### The PINGREQ that is waited for -/

/-- A PINGREQ as the client builds it. -/
structure IsPing (packet : Packet) : Prop extends Packet.Formed packet where
  packetType : packet.packetType = PacketType.PINGREQ
  packetId : packet.packetId = 0
  getPayload : packet.getPayload = none
  size : packet.size = 2

theorem IsPing.reads {p q : Packet} (h : IsPing p) (hreads : Packet.Reads cfg p q) : IsPing q where
  toFormed := hreads.formed h.toFormed
  packetType := (hreads.packetType h.toFormed).trans h.packetType
  packetId := hreads.packetId.trans h.packetId
  getPayload := hreads.getPayload.trans h.getPayload
  size := hreads.size.trans h.size

theorem isPing_of_builds {packet : Packet}
    (h : Builds (fun alloc => Packet.control cfg alloc PacketType.PINGREQ) packet) : IsPing packet := by
  obtain ⟨alloc, h⟩ := h
  obtain ⟨hformed, hpacketId, hnone, -⟩ := Packet.control_built h
  have hspec := Packet.control_spec h
  exact ⟨hformed, by rw [hspec]; rfl, hpacketId, hnone, by rw [hspec]⟩

/-- A PINGREQ was written, or it is in the queue and, if it is the current packet and `known` is true, all that
is counted as sent of it was written. -/
def Awaits (c : MqttClient cfg) (known : Prop) : Prop :=
  c.log.pingWritten ∨ ∃ before item behind, c.outbox.pending = before ++ item :: behind ∧ IsPing item.packet ∧
    (before = [] → known → ∀ n < c.bytesSent, (item.added, n) ∈ c.log.pinged)

structure Pings (c : MqttClient cfg) : Prop where
  awaits : c.state = .connected → c.log.pinging → c.Awaits (c.bytesSent < 2)
  /-- Where nothing is left to send not just one byte was sent of it. -/
  begun : c.state ≠ .disconnectingTcp2 → c.outbox.pending = [] → c.bytesSent ≠ 1

theorem Awaits.imp {c : MqttClient cfg} {known known' : Prop} (hc : c.Awaits known) (h : known' → known) :
    c.Awaits known' := by
  rcases hc with hwritten | ⟨before, item, behind, hsplit, hping, hknown⟩
  · exact .inl hwritten
  · exact .inr ⟨before, item, behind, hsplit, hping, fun hfirst htrue => hknown hfirst (h htrue)⟩

/-- Nothing was taken out of the queue. -/
theorem Awaits.grow {c c' : MqttClient cfg} {known : Prop} (hc : c.Awaits known)
    {new : List OutgoingPacket} (hpending : c'.outbox.pending = c.outbox.pending ++ new)
    (hbytes : c'.bytesSent = c.bytesSent) (hlog : c.log.pinged ⊆ c'.log.pinged) : c'.Awaits known := by
  rcases hc with hwritten | ⟨before, item, behind, hsplit, hping, hknown⟩
  · exact .inl (pingWritten_mono hlog hwritten)
  · refine .inr ⟨before, item, behind ++ new, ?_, hping, ?_⟩
    · rw [hpending, hsplit, List.append_assoc, List.cons_append]
    · rw [hbytes]
      exact fun hfirst htrue n hn => hlog (hknown hfirst htrue n hn)

/-- Something was noted. -/
theorem Pings.noted {c c' : MqttClient cfg} (hc : c.Pings) (hstate : c'.state = c.state)
    {new : List OutgoingPacket} (hpending : c'.outbox.pending = c.outbox.pending ++ new)
    (hbytes : c'.bytesSent = c.bytesSent) {r : Record} (hlog : c'.log = r :: c.log)
    (hping : r.event.isPing = false) (hdial : r.event.isTransportConnect = false)
    (hwrite : r.event.isWrite = false) : c'.Pings where
  awaits hconnected hpinging := by
    rw [hlog] at hpinging
    by_cases hends : r.event.endsPing
    · rw [pinging_of_ends hends] at hpinging
      cases hpinging
    rw [pinging_cons hping (by simpa using hends)] at hpinging
    have hpingresp : r.event.isPingresp = false := by
      cases hevent : r.event <;> rw [hevent] at hends <;> first | rfl | simpa [Event.endsPing] using hends
    rw [hbytes]
    refine (hc.awaits (hstate ▸ hconnected) hpinging).grow hpending hbytes ?_
    rw [hlog, pinged_cons (by rw [hdial, hpingresp]; rfl), pinged_of_event hwrite, List.append_nil]
    exact List.Subset.refl _
  begun hopen hnil := by
    rw [hbytes]
    rw [hpending, List.append_eq_nil_iff] at hnil
    exact hc.begun (hstate ▸ hopen) hnil.1

/-! ### Sending -/

theorem pinged_written {c : MqttClient cfg} {item : OutgoingPacket} {rest : List OutgoingPacket} {result : ℤ}
    (hping : IsPing item.packet) : (c.written item rest result).pinged =
      (List.range' c.bytesSent ((item.packet.data.drop c.bytesSent).take result.toNat).length).map
        (item.added, ·) := by
  rw [Record.pinged, written, Packet.dataAt, hping.getPayload]
  simp [CursorList.getCurrent, OutgoingPacket.isType, hping.packetType]

/-- The transport is asked to take what is left of a PINGREQ. -/
theorem IsPing.wrote {c : MqttClient cfg} {item : OutgoingPacket} {rest : List OutgoingPacket} {result : ℤ}
    {timeSent activity : UInt32} (hping : IsPing item.packet) (hsent : c.bytesSent < 2) (hle : -1 ≤ result)
    (hresult : result ≤ (2 - c.bytesSent : ℕ))
    (hknown : ∀ n < c.bytesSent, (item.added, n) ∈ c.log.pinged)
    (h : 0 < ((result % cfg.sizeMod).toNat : ℤ).bmod (2 ^ 32) ∨
      (c.wrote item rest result timeSent activity).bytesSent < 2) :
    ∀ n < (c.wrote item rest result timeSent activity).bytesSent,
      (item.added, n) ∈ (c.wrote item rest result timeSent activity).log.pinged := by
  have hbytes : (c.wrote item rest result timeSent activity).bytesSent =
    cfg.wrap (c.bytesSent + (result % cfg.sizeMod).toNat) := rfl
  have hmod := cfg.le_sizeMod
  rw [hbytes] at h ⊢
  rw [log_wrote, pinged_cons rfl, pinged_written hping]
  rcases (by omega : result = -1 ∨ 0 ≤ result) with rfl | hnonneg
  · -- what could not be written is counted backwards
    have hrefused : ((-1 % (cfg.sizeMod : ℤ)).toNat : ℤ).bmod (2 ^ 32) ≤ 0 := bmod_of_refused le_rfl (by decide)
    have hback : (-1 % (cfg.sizeMod : ℤ)).toNat = cfg.sizeMod - 1 := by
      rw [← Int.add_emod_right, Int.emod_eq_of_lt (by omega) (by omega)]
      omega
    rw [hback] at h hrefused ⊢
    rcases (by omega : c.bytesSent = 0 ∨ c.bytesSent = 1) with hzero | hone
    · rw [hzero, Nat.zero_add, cfg.wrap_of_lt (by omega)] at h
      rcases h with h | h
      · exact absurd hrefused h.not_ge
      · omega
    · have hwrap : cfg.wrap (1 + (cfg.sizeMod - 1)) = 0 := by
        rw [Nat.add_sub_cancel' (by omega), Config.wrap, Nat.mod_self]
      rw [hone, hwrap]
      exact fun n hn => absurd hn (Nat.not_lt_zero n)
  · rw [toNat_emod_sizeMod hnonneg (by omega), cfg.wrap_of_lt (by omega)]
    intro n hn
    rcases (by omega : n < c.bytesSent ∨ c.bytesSent ≤ n) with hold | hnew
    · exact List.mem_append_left _ (hknown n hold)
    · refine List.mem_append_right _ (List.mem_map.mpr ⟨n, ?_, rfl⟩)
      have hlength := hping.buffered hping.getPayload
      rw [hping.size] at hlength
      rw [List.mem_range'_1, List.length_take, List.length_drop, ← hlength]
      omega

/-- `_sendPacket` writes a PINGREQ from its first byte on. -/
theorem Awaits.sendPacket (env : Env cfg) {c : MqttClient cfg} (hc : c.Awaits (c.bytesSent < 2)) :
    (c.sendPacket env).2.Awaits (0 < (c.sendPacket env).1 ∨ (c.sendPacket env).2.bytesSent < 2) := by
  rcases sendPacket_cases env c with ⟨hnil, h⟩ | ⟨item, rest, available, packet, hpending, havailable, h⟩
  · rw [h]
    rcases hc with hwritten | ⟨before, item, behind, hsplit, -⟩
    · exact .inl hwritten
    · rw [hnil] at hsplit
      exact absurd hsplit.symm (List.append_ne_nil_of_right_ne_nil _ (List.cons_ne_nil _ _))
  have hreads := Packet.reads_of_available havailable
  have hsub : c.log.pinged ⊆ (c.sendPacket env).2.log.pinged := by
    rcases h with ⟨-, h⟩ | ⟨-, _, _, h⟩ <;> rw [h]
    · exact List.Subset.refl _
    · dsimp only
      rw [log_wrote, pinged_cons rfl]
      exact List.subset_append_left _ _
  rcases hc with hwritten | ⟨before, ping, behind, hsplit, hping, hknown⟩
  · exact .inl (pingWritten_mono hsub hwritten)
  rw [hpending] at hsplit
  rcases before with _ | ⟨first, before⟩
  · -- the PINGREQ is the current packet
    obtain ⟨rfl, rfl⟩ := List.cons.inj hsplit
    have hping' := hping.reads hreads
    rcases h with ⟨-, h⟩ | ⟨hne, timeSent, activity, h⟩ <;> rw [h]
    · exact .inr ⟨[], _, rest, rfl, hping', fun _ htrue => hknown rfl (htrue.resolve_left (lt_irrefl 0))⟩
    · rw [Packet.available_buffered hping.getPayload, hping.size] at havailable
      obtain ⟨rfl, rfl⟩ := Prod.mk.inj havailable
      have hsent : c.bytesSent < 2 := by omega
      dsimp only
      exact .inr ⟨[], _, rest, rfl, hping',
        fun _ htrue => IsPing.wrote hping' hsent (env.le_write _ _) (env.write_le _ _) (hknown rfl hsent) htrue⟩
  · obtain ⟨rfl, rfl⟩ := List.cons.inj hsplit
    rcases h with ⟨-, h⟩ | ⟨-, timeSent, activity, h⟩ <;> rw [h]
    · exact .inr ⟨_ :: before, ping, behind, rfl, hping, nofun⟩
    · exact .inr ⟨_ :: before, ping, behind, rfl, hping, nofun⟩

theorem pinged_leave {c : MqttClient cfg} {item : OutgoingPacket} :
    (((c.farewell item.packet).note (.sent item.packet)).leaveCurrent item).log.pinged = c.log.pinged := by
  obtain ⟨r, hr, hcons, hfarewell⟩ := log_leave c item
  rw [hcons, pinged_cons (by rw [hr]; rfl), pinged_of_event (by rw [hr]; rfl), List.append_nil]
  rcases hfarewell with h | ⟨r', hr', h⟩ <;> rw [h]
  rw [pinged_cons (by rw [hr']; rfl), pinged_of_event (by rw [hr']; rfl), List.append_nil]

/-- A PINGREQ that the cursor leaves was written as a whole. -/
theorem Awaits.leave {c : MqttClient cfg} {known : Prop} (hc : c.Awaits known) (htrue : known)
    {item : OutgoingPacket} {rest : List OutgoingPacket} (hpending : c.outbox.pending = item :: rest)
    (hsize : c.bytesSent = item.packet.size) (known' : Prop) :
    (((c.farewell item.packet).note (.sent item.packet)).leaveCurrent item).Awaits known' := by
  have hsub : c.log.pinged ⊆
      (((c.farewell item.packet).note (.sent item.packet)).leaveCurrent item).log.pinged := by
    rw [pinged_leave]
    exact List.Subset.refl _
  rcases hc with hwritten | ⟨before, ping, behind, hsplit, hping, hknown⟩
  · exact .inl (pingWritten_mono hsub hwritten)
  rw [hpending] at hsplit
  rcases before with _ | ⟨first, before⟩
  · -- the PINGREQ is the one that is left: its two bytes are the `size()` that was sent
    obtain ⟨rfl, rfl⟩ := List.cons.inj hsplit
    have hwritten := hknown rfl htrue
    rw [hsize, hping.size] at hwritten
    have hboth : c.log.pingWritten := pingWritten_of_mem (hwritten 0 (by decide)) (hwritten 1 (by decide))
    exact .inl (pingWritten_mono hsub hboth)
  · obtain ⟨rfl, rfl⟩ := List.cons.inj hsplit
    refine .inr ⟨before, ping, behind, ?_, hping, fun _ _ => nofun⟩
    show (MqttClient.leave (c.farewell item.packet).outbox item).pending = _
    rw [outbox_farewell, pending_leave hpending]
    rfl

theorem sendPacket_of_nil {c : MqttClient cfg} (h : (c.sendPacket env).2.outbox.pending = []) :
    (c.sendPacket env).2 = c := by
  rcases sendPacket_cases env c with ⟨-, hsend⟩ | ⟨_, _, _, _, -, -, ⟨-, hsend⟩ | ⟨-, _, _, hsend⟩⟩ <;>
    rw [hsend] at h ⊢
  · cases h
  · cases h

theorem pinging_sendPacket (c : MqttClient cfg) : (c.sendPacket env).2.log.pinging = c.log.pinging := by
  rcases sendPacket_cases env c with ⟨-, hsend⟩ | ⟨_, _, _, _, -, -,
    ⟨-, hsend⟩ | ⟨-, _, _, hsend⟩⟩ <;> rw [hsend]
  · rfl
  · exact pinging_cons rfl rfl c.log

theorem Pings.sendPacket_begun (env : Env cfg) {c : MqttClient cfg} (hc : c.Pings)
    (hopen : (c.sendPacket env).2.state ≠ .disconnectingTcp2) (hnil : (c.sendPacket env).2.outbox.pending = []) :
    (c.sendPacket env).2.bytesSent ≠ 1 := by
  have hsame := sendPacket_of_nil hnil
  rw [hsame] at hopen hnil ⊢
  exact hc.begun hopen hnil

theorem pinging_leave {c : MqttClient cfg} {item : OutgoingPacket} :
    (((c.farewell item.packet).note (.sent item.packet)).leaveCurrent item).log.pinging = c.log.pinging := by
  obtain ⟨r, hr, hcons, hfarewell⟩ := log_leave c item
  rw [hcons, pinging_cons (by rw [hr]; rfl) (by rw [hr]; rfl)]
  rcases hfarewell with h | ⟨r', hr', h⟩ <;> rw [h]
  exact pinging_cons (by rw [hr']; rfl) (by rw [hr']; rfl) c.log

theorem Pings.sendRound (env : Env cfg) {c : MqttClient cfg} (hc : c.Pings) : (c.sendRound env).Pings := by
  have hconnected : (c.sendRound env).state = .connected → c.state = .connected := by
    rcases state_sendRound env c with h | h <;> rw [h]
    · exact id
    · exact nofun
  -- the cursor stays, or it goes on behind a packet of which all was sent
  rcases sendRound_cases env c with ⟨h, -⟩ | ⟨item, hwritten, hcurrent, hsize, h⟩ <;> rw [h]
  · refine ⟨fun hstate hpinging => ?_, hc.sendPacket_begun env⟩
    rw [state_sendPacket] at hstate
    rw [pinging_sendPacket] at hpinging
    exact ((hc.awaits hstate hpinging).sendPacket env).imp .inr
  · obtain ⟨rest, hpending⟩ := getCurrent_eq_some.mp hcurrent
    refine ⟨fun hstate hpinging => ?_, fun _ _ => Nat.zero_ne_one⟩
    rw [pinging_leave, pinging_sendPacket] at hpinging
    exact ((hc.awaits (hconnected (h ▸ hstate)) hpinging).sendPacket env).leave (.inl hwritten) hpending hsize _

/-! ### Taking packets out -/

theorem begun_clearQueue (c : MqttClient cfg) (clearData : ℕ)
    (hspares : Trace.Always (fun r earlier => r.sparesPing earlier) (c.clearQueue clearData).log)
    (hopen : c.state ≠ .disconnectingTcp2) (hnil : (c.clearQueue clearData).outbox.pending = []) :
    c.bytesSent ≠ 1 := by
  intro hone
  have hkeeps := (of_decide_eq_true hspares.1).2 ⟨hopen, hone⟩
  obtain ⟨item, hmem, hkeep⟩ := List.any_eq_true.mp hkeeps
  rw [outbox_clearQueue] at hnil
  have hleft : item ∈ c.outbox.pending.filter (keeps clearData) := List.mem_filter.mpr ⟨hmem, hkeep⟩
  rw [show c.outbox.pending.filter (keeps clearData) = [] from hnil] at hleft
  cases hleft

theorem clearQueueApi_pings {c : MqttClient cfg} (deleteSessionData : Bool)
    (hspares : Trace.Always (fun r earlier => r.sparesPing earlier) (c.clearQueueApi deleteSessionData).log) :
    (c.clearQueueApi deleteSessionData).Pings where
  awaits hstate hpinging := by
    have hearlier : c.log.pinging := (pinging_cons rfl rfl c.log).symm.trans hpinging
    have hwritten := (of_decide_eq_true hspares.1).1 ⟨hstate, hearlier⟩
    have hsub : c.log.pinged ⊆ (c.clearQueueApi deleteSessionData).log.pinged := by
      show c.log.pinged ⊆ Log.pinged (_ :: c.log)
      rw [pinged_cons rfl]
      exact List.subset_append_left _ _
    exact .inl (pingWritten_mono hsub hwritten)
  begun hopen hnil := begun_clearQueue c _ hspares hopen hnil

/-- What is behind the cursor when another packet than the PINGREQ is taken out. -/
theorem eraseIdx_before {before behind : List OutgoingPacket} {ping item : OutgoingPacket} {j : ℕ}
    (hitem : (before ++ ping :: behind)[j]? = some item) (hne : item ≠ ping) :
    ∃ behind', (before ++ ping :: behind).eraseIdx j = before.eraseIdx j ++ ping :: behind' := by
  rcases lt_trichotomy j before.length with hlt | rfl | hgt
  · exact ⟨behind, List.eraseIdx_append_of_lt_length hlt _⟩
  · rw [List.getElem?_append_right le_rfl, Nat.sub_self] at hitem
    exact absurd (Option.some.inj hitem).symm hne
  · refine ⟨behind.eraseIdx (j - before.length - 1), ?_⟩
    obtain ⟨k, hk⟩ : ∃ k, j - before.length = k + 1 := ⟨j - before.length - 1, by omega⟩
    rw [List.eraseIdx_append_of_length_le hgt.le, List.eraseIdx_of_length_le hgt.le, hk]
    rfl

/-- A packet with a packet id is taken out of the queue. -/
theorem Pings.remove {c : MqttClient cfg} (hc : c.Pings) {it : ℕ} {item : OutgoingPacket}
    (hitem : c.outbox.items[it]? = some item) (hid : item.packet.packetId ≠ 0)
    (hspares : Trace.Always (fun r earlier => r.sparesPing earlier) (c.remove it).log) :
    (c.remove it).Pings := by
  have hnext : it = c.outbox.cursor ∧ c.bytesSent = 1 →
      (c.outbox.pending.drop 1).head?.any fun next => ¬ next.isType PacketType.PINGREQ :=
    of_decide_eq_true hspares.1
  have hsub : c.log.pinged ⊆ (c.remove it).log.pinged := by
    show c.log.pinged ⊆ Log.pinged (_ :: c.log)
    rw [pinged_cons rfl]
    exact List.subset_append_left _ _
  have hpinging : (c.remove it).log.pinging = c.log.pinging := pinging_cons rfl rfl c.log
  by_cases hlt : it < c.outbox.cursor
  · -- the cursor has passed it
    have hpending : (c.remove it).outbox.pending = c.outbox.pending ++ [] := by
      rw [List.append_nil]
      show (c.outbox.remove it).pending = _
      rw [CursorList.remove, if_pos hlt]
    exact ⟨fun hstate h => (hc.awaits hstate (hpinging ▸ h)).grow hpending rfl hsub,
      fun hopen hnil => hc.begun hopen (by rwa [hpending, List.append_nil] at hnil)⟩
  have hpending : (c.remove it).outbox.pending = c.outbox.pending.eraseIdx (it - c.outbox.cursor) := by
    show (c.outbox.remove it).pending = _
    rw [CursorList.remove, if_neg hlt]
  rw [CursorList.items, List.getElem?_append_right (Nat.not_lt.mp hlt), ← CursorList.cursor] at hitem
  refine ⟨fun hstate h => ?_, fun hopen hnil => ?_⟩
  · rcases hc.awaits hstate (hpinging ▸ h) with hwritten | ⟨before, ping, behind, hsplit, hping, hknown⟩
    · exact .inl (pingWritten_mono hsub hwritten)
    rw [hsplit] at hitem
    have hne : item ≠ ping := fun heq => hid (heq ▸ hping.packetId)
    obtain ⟨behind', herase⟩ := eraseIdx_before hitem hne
    refine .inr ⟨_, ping, behind', by rw [hpending, hsplit]; exact herase, hping, fun hfirst hsent n hn => ?_⟩
    refine hsub (hknown ?_ hsent n hn)
    by_contra hbefore
    -- the PINGREQ takes the place of a packet of which one byte was sent
    have hlength := congrArg List.length hfirst
    have hpos := List.length_pos_iff.mpr hbefore
    rw [List.length_eraseIdx, List.length_nil] at hlength
    obtain ⟨hzero, hlengthOne⟩ : it - c.outbox.cursor = 0 ∧ before.length = 1 := by
      split_ifs at hlength <;> omega
    obtain ⟨first, rfl⟩ := List.length_eq_one_iff.mp hlengthOne
    have hone : c.bytesSent = 1 := by
      have hsent' : c.bytesSent < 2 := hsent
      have hn' : n < c.bytesSent := hn
      omega
    have hother := hnext ⟨by omega, hone⟩
    rw [hsplit] at hother
    simp [OutgoingPacket.isType, hping.packetType] at hother
  · intro hone
    -- the queue is empty behind the cursor: then nothing was left in the place of the packet
    rw [hpending, List.eraseIdx_eq_nil_iff] at hnil
    rcases hnil with hnil | ⟨hlengthOne, hzero⟩
    · rw [hnil] at hitem
      cases hitem
    · have hother := hnext ⟨by omega, hone⟩
      rw [List.drop_of_length_le hlengthOne.le] at hother
      cases hother

/-! ### Runs -/

/-- An accepted CONNACK makes the client forget its PINGREQs. -/
theorem pinging_admitted (c : MqttClient cfg) : c.admitted.log.pinging = false := by
  have hconnected : c.connectedNow.log.pinging = false := pinging_of_ends rfl c.log
  have hadvance : c.connectedNow.advanceOutbox.2.log.pinging = false := by
    rcases advanceOutbox_cases c.connectedNow with ⟨h, -⟩ | ⟨item, -, -, h⟩ <;> rw [h]
    · exact hconnected
    · rw [pinging_leave, hconnected]
  rw [admitted]
  split_ifs
  · exact (pinging_cons rfl rfl _).trans hadvance
  · exact hadvance

theorem Pings.admitted_begun {c : MqttClient cfg} (hc : c.Pings) (hopen : c.state ≠ .disconnectingTcp2)
    (hspares : Trace.Always (fun r earlier => r.sparesPing earlier) c.admitted.log)
    (hnil : c.admitted.outbox.pending = []) : c.admitted.bytesSent ≠ 1 := by
  have hadvance : c.connectedNow.advanceOutbox.2.outbox.pending = [] →
      c.connectedNow.advanceOutbox.2.bytesSent ≠ 1 := by
    rcases advanceOutbox_cases c.connectedNow with ⟨h, -⟩ | ⟨item, -, -, h⟩ <;> rw [h]
    · exact hc.begun hopen
    · exact fun _ => Nat.zero_ne_one
  have hstate : c.connectedNow.advanceOutbox.2.state ≠ .disconnectingTcp2 := by
    rcases state_advanceOutbox c.connectedNow with h | h <;> rw [h]
    · exact nofun
    · exact nofun
  rw [admitted] at hspares hnil ⊢
  split_ifs at hspares hnil ⊢
  · exact begun_clearQueue c.connectedNow.advanceOutbox.2 1 hspares hstate hnil
  · exact hadvance hnil

theorem Requested.plain {c : MqttClient cfg} {packet : Packet} {event : Event} (h : c.Requested packet event) :
    event = .ping ∧ IsPing packet ∨
      event.isPing = false ∧ event.isTransportConnect = false ∧ event.isWrite = false := by
  cases h with
  | ping _ hpacket => exact .inl ⟨rfl, isPing_of_builds hpacket⟩
  | _ => exact .inr ⟨rfl, rfl, rfl⟩

theorem Flow.pings {c c' : MqttClient cfg} (h : Flow env c c')
    (hspares : Trace.Always (fun r earlier => r.sparesPing earlier) c'.log) (hc : c.Pings) : c'.Pings := by
  cases h with
  | keep h =>
    refine ⟨?_, ?_⟩
    · rw [h.state, h.log, h.bytesSent]
      exact fun hstate hpinging => (hc.awaits hstate hpinging).grow
        (by rw [h.outbox, List.append_nil]) h.bytesSent
        (by rw [h.log]; exact List.Subset.refl _)
    · rw [h.state, h.outbox, h.bytesSent]
      exact hc.begun
  | note event hmute =>
    refine hc.noted rfl (List.append_nil _).symm rfl rfl ?_ ?_ ?_ <;> cases event <;> first | rfl | cases hmute
  | transportConnect success hstate =>
    -- what was written is forgotten, but the client is not connected
    refine ⟨fun hconnected => ?_, hc.begun⟩
    rw [show (c.note _).state = c.state from rfl, hstate] at hconnected
    cases hconnected
  | move next hleads =>
    refine ⟨fun hconnected => ?_, fun _ => hc.begun ?_⟩
    · -- only an accepted CONNACK leads to `connected`
      obtain rfl : next = .connected := hconnected
      cases hfrom : c.state <;> rw [hfrom] at hleads <;> cases hleads
    · intro hfrom
      rw [hfrom] at hleads
      cases next <;> cases hleads
  | connect => exact ⟨nofun, nofun⟩
  | rewind h =>
    refine ⟨fun hstate hpinging => ?_, fun hopen hnil => ?_⟩
    · have hzero : c.bytesSent = 0 := by
        rcases h with h | ⟨-, -, hzero⟩
        · exact absurd (hstate.symm.trans h) (by decide)
        · exact hzero
      rcases hc.awaits hstate hpinging with hwritten | ⟨before, ping, behind, hsplit, hping, -⟩
      · exact .inl hwritten
      · -- the cursor goes back to the front only where nothing is counted as sent
        refine .inr ⟨c.outbox.passed ++ before, ping, behind, ?_, hping, fun _ _ n hn => ?_⟩
        · show c.outbox.passed ++ c.outbox.pending = _
          rw [hsplit, List.append_assoc]
        · exact absurd (hzero ▸ hn) (Nat.not_lt_zero n)
    · exact hc.begun hopen (List.append_eq_nil_iff.mp hnil).2
  | @request packet _ h =>
    rcases h.plain with ⟨rfl, hping⟩ | ⟨hping, hdial, hwrite⟩
    · refine ⟨fun hstate _ => ?_, fun _ hnil => ?_⟩
      · -- if it is the current packet nothing was sent of it: that would be the 1 that `begun` rules out
        refine .inr ⟨c.outbox.pending, ⟨0, packet, c.tick⟩, [], rfl, hping, fun hfirst hsent n hn => ?_⟩
        have hstate' : c.state = .connected := hstate
        have hsent' : c.bytesSent < 2 := hsent
        have hn' : n < c.bytesSent := hn
        exact absurd (by omega) (hc.begun (by rw [hstate']; decide) hfirst)
      · exact absurd (List.append_eq_nil_iff.mp hnil).2 (List.cons_ne_nil _ _)
    · exact hc.noted rfl rfl rfl rfl hping hdial hwrite
  | answer =>
    refine ⟨fun hstate hpinging => (hc.awaits hstate hpinging).grow rfl rfl (List.Subset.refl _),
      fun _ hnil => ?_⟩
    exact absurd (List.append_eq_nil_iff.mp hnil).2 (List.cons_ne_nil _ _)
  | addDisconnect =>
    refine ⟨nofun, fun _ hnil => absurd (List.append_eq_nil_iff.mp hnil).2 (List.cons_ne_nil _ _)⟩
  | remove hlistens hitem hid => exact hc.remove hitem hid hspares
  | clearQueue deleteSessionData => exact clearQueueApi_pings deleteSessionData hspares
  | sendConnect hstate =>
    refine ⟨fun hconnected => ?_, hc.sendPacket_begun env⟩
    rw [state_sendPacket, hstate] at hconnected
    cases hconnected
  | sendRound => exact hc.sendRound env
  | accept hstate =>
    refine ⟨fun _ hpinging => ?_, fun _ => hc.admitted_begun ?_ hspares.2⟩
    · have hfalse : c.accept.log.pinging = false := (pinging_cons rfl rfl _).trans (pinging_admitted c)
      exact absurd (hpinging.symm.trans hfalse) (by decide)
    · intro h
      rw [h] at hstate
      cases hstate
  | close => exact ⟨nofun, fun _ _ => Nat.zero_ne_one⟩

theorem new_pings (generatedClientId : CString) : (new cfg generatedClientId).Pings :=
  ⟨nofun, fun _ _ => Nat.zero_ne_one⟩

/-! ### The flag -/

@[simp] theorem pingSent_addPacket (c : MqttClient cfg) (build : Alloc → Error × Packet) :
    (c.addPacket env build).2.pingSent = c.pingSent := by
  rcases addPacket_cases env c build with ⟨_, -, h⟩ | ⟨-, h⟩ <;> rw [h] <;> rfl

@[simp] theorem pingSent_publishPacketId (c : MqttClient cfg) (qos : Byte) :
    (c.publishPacketId qos).2.pingSent = c.pingSent := by
  rw [publishPacketId]
  split_ifs <;> rfl

@[simp] theorem pingSent_answerPublish (c : MqttClient cfg) : (c.answerPublish env).2.pingSent = c.pingSent := by
  rcases answerPublish_cases env c with h | ⟨_, -, h⟩ <;> simp [h]

@[simp] theorem pingSent_sendPacket (c : MqttClient cfg) : (c.sendPacket env).2.pingSent = c.pingSent := by
  rcases sendPacket_cases env c with ⟨-, h⟩ | ⟨_, _, _, _, -, -, ⟨-, h⟩ | ⟨-, _, _, h⟩⟩ <;> rw [h] <;> rfl

@[simp] theorem pingSent_advanceOutbox (c : MqttClient cfg) : c.advanceOutbox.2.pingSent = c.pingSent := by
  rcases advanceOutbox_cases c with ⟨h, -⟩ | ⟨item, -, -, h⟩ <;> rw [h]
  rw [farewell]
  split_ifs <;> rfl

@[simp] theorem pingSent_sendRound (c : MqttClient cfg) : (c.sendRound env).pingSent = c.pingSent := by
  rw [sendRound]
  split_ifs <;> simp

theorem pingSent_admitted (c : MqttClient cfg) : c.admitted.pingSent = false := by
  have hadvance : c.connectedNow.advanceOutbox.2.pingSent = false := pingSent_advanceOutbox c.connectedNow
  rw [admitted]
  split_ifs
  · exact hadvance
  · exact hadvance

/-- The flag is set only while a PINGREQ is under way. -/
def Flagged (c : MqttClient cfg) : Prop := c.pingSent → c.log.pinging

/-- Nothing was noted that ends the wait. -/
theorem Flagged.grows {c c' : MqttClient cfg} (hc : c.Flagged) (hping : c'.pingSent = c.pingSent)
    (h : Grows (fun event => !event.endsPing) c c') : c'.Flagged := by
  intro hsent
  obtain ⟨new, hlog, hnew⟩ := h
  rw [hlog]
  exact Trace.since_of_past (fun r hr => by simpa using hnew r hr) (hc (hping ▸ hsent))

/-- Another packet than a PINGRESP came in. -/
theorem grows_received {c : MqttClient cfg} (h : c.incomingType ≠ PacketType.PINGRESP) :
    Grows (fun event => !event.endsPing) c c.received := by
  have hends : (Event.packet c.parser.report).endsPing = false := decide_eq_false h
  exact grows_note c (by rw [hends]; rfl)

/-- It is an acknowledgement, and a packet is taken out. -/
theorem Flagged.removed {c : MqttClient cfg} (hc : c.Flagged) (h : c.incomingType ≠ PacketType.PINGRESP) (it : ℕ)
    {event : Event} (hends : event.endsPing = false) : ((c.received.remove it).note event).Flagged := by
  have hnote : Grows (fun event => !event.endsPing) (c.received.remove it) ((c.received.remove it).note event) :=
    grows_note _ (by rw [hends]; rfl)
  exact hc.grows rfl ((grows_received h).trans ((grows_remove c.received it rfl).trans hnote))

theorem Step.flagged {c c' : MqttClient cfg} (h : Step env c c') (hc : c.Flagged) : c'.Flagged := by
  cases h with
  | quiet h => exact hc.grows h.pingSent (grows_of_log h.log)
  | connectFailed => exact hc.grows rfl (grows_of_log rfl)
  | disconnect force =>
    rw [MqttClient.disconnect]
    split_ifs
    · exact hc.grows rfl ⟨[_, _], rfl, by simp [Event.endsPing, Event.isPingresp]⟩
    · exact hc.grows rfl ⟨[_, _], rfl, by simp [Event.endsPing, Event.isPingresp]⟩
    · exact hc
  | publish | publishChunked =>
    exact hc.grows (pingSent_publishPacketId c _)
      ((grows_publishPacketId c _ fun _ => rfl).trans (grows_of_cons rfl rfl))
  | subscribe | unsubscribe =>
    exact hc.grows rfl ((grows_getNextPacketId c fun _ => rfl).trans (grows_of_cons rfl rfl))
  | sendConnect => exact hc.grows (pingSent_sendPacket c) (grows_sendPacket c fun _ => rfl)
  | sendRound =>
    exact hc.grows (pingSent_sendRound c) (grows_sendRound c (fun _ => rfl) (fun _ => rfl) rfl)
  | ping => exact fun _ => Trace.since_of_hit rfl _
  | ignore hlistens hping =>
    rcases hping with ⟨rfl, hother⟩ | ⟨rfl, -⟩
    · exact hc.grows rfl (grows_received hother)
    · exact fun hsent => absurd hsent Bool.false_ne_true
  | refused _ htype =>
    have hreceived := grows_received (c := c) (by rw [htype]; decide)
    exact hc.grows rfl (hreceived.trans (grows_of_cons rfl rfl))
  | accept =>
    intro hsent
    exact absurd (hsent.symm.trans (pingSent_admitted c.received)) (by decide)
  | message _ htype =>
    have hanswer : Grows (fun event => !event.endsPing) c (c.received.answerPublish env).2 :=
      (grows_received (by rw [htype]; decide)).trans (grows_answerPublish c.received)
    split_ifs
    · exact hc.grows (pingSent_answerPublish c.received) (hanswer.trans (grows_note _ rfl))
    · exact hc.grows (pingSent_answerPublish c.received) hanswer
  | proceed hexchange _ htype =>
    have htypes : proceeding.all (fun exchange => exchange.1 ≠ PacketType.PINGRESP) := by decide
    have hne := of_decide_eq_true (List.all_eq_true.mp htypes _ hexchange)
    have hother : c.incomingType ≠ PacketType.PINGRESP := htype ▸ hne
    exact hc.grows (pingSent_addPacket c.received _)
      ((grows_received hother).trans ((grows_addPacket c.received _).trans (grows_remove _ _ rfl)))
  | finish hexchange _ htype =>
    have htypes : finishing.all (fun exchange => exchange.1 ≠ PacketType.PINGRESP) := by decide
    have hne := of_decide_eq_true (List.all_eq_true.mp htypes _ hexchange)
    exact hc.removed (htype ▸ hne) _ rfl
  | suback _ _ htype | unsuback _ htype => exact hc.removed (by rw [htype]; decide) _ rfl
  | connect | lost | stop | unexpected =>
    exact hc.grows rfl ⟨[_, _], rfl, by simp [Event.endsPing, Event.isPingresp]⟩
  | close => exact hc.grows rfl ⟨[_, _, _], rfl, by simp [Event.endsPing, Event.isPingresp]⟩
  | error | calls | nextPacketId | clearQueue | connecting | established | addDisconnect | timeout =>
    exact hc.grows rfl (grows_of_cons rfl rfl)

theorem Move.flagged {c c' : MqttClient cfg} (h : Move env c c') (hc : c.Flagged) : c'.Flagged := by
  cases h with
  | step h => exact h.flagged hc
  | transportConnect | read | parsed => exact hc.grows rfl (grows_of_cons rfl rfl)

theorem Pings.truthful {c : MqttClient cfg} (hc : c.Pings) (hflagged : c.Flagged) : c.Truthful := by
  intro hstate hsent
  rcases hc.awaits hstate (hflagged hsent) with hwritten | ⟨before, ping, behind, hsplit, hping, -⟩
  · exact .inr hwritten
  · refine .inl ⟨ping, ?_, decide_eq_true hping.packetType⟩
    rw [CursorList.items, hsplit]
    simp

/-- **`_pingSent` does not lie**, in every run in which the queue is not cleared while a PINGREQ is under way and
no packet of which one byte is written makes way for a PINGREQ. -/
theorem run_truthful (env : Env cfg) (generatedClientId : CString) (actions : List Action)
    (h : Trace.Always (fun r earlier => r.sparesPing earlier)
      ((new cfg generatedClientId).run env actions).log) :
    ((new cfg generatedClientId).run env actions).Truthful := by
  have hpings : ((new cfg generatedClientId).run env actions).Pings :=
    run_flow_always env (fun r earlier => r.sparesPing earlier) Pings generatedClientId
      (new_pings generatedClientId) Flow.pings actions h
  have hflagged : ((new cfg generatedClientId).run env actions).Flagged :=
    run_invariant env Flagged generatedClientId nofun Move.flagged actions
  exact hpings.truthful hflagged

/-- The keepalive time runs out in a connected client. -/
def pingScript : Script where
  read := [(9, [0x20, 2, 0, 0])]
  millis := [(14, 15001)]

/-- The PINGREQ is queued by the third call of `loop` and written by the fourth. -/
theorem run_truthful_ping : (pingScript.run [.call .connect, .loop, .loop, .loop, .loop]).Truthful := by
  apply run_truthful
  decide +kernel

/-- A user clears the queue before it is written. -/
theorem not_truthful_clearQueue :
    ¬ ∀ actions : List Action, (pingScript.run actions).Truthful := by
  intro h
  have hlies : ¬ (pingScript.run
      [.call .connect, .loop, .loop, .loop, .call (.clearQueue false)]).Truthful := by decide +kernel
  exact hlies (h _)

/-- A SUBSCRIBE of which one byte is written is acknowledged, and then the keepalive time runs out. -/
def subackScript : Script where
  read := [(9, [0x20, 2, 0, 0]), (22, [0x90, 3, 0, 1, 0])]
  write := [(15, 1), (19, 0)]
  millis := [(24, 15001)]

-- Only the second byte of the PINGREQ is written.
example : ¬ (subackScript.run [.call .connect, .loop, .loop, .call (.subscribe ⟨[0x6b], by decide⟩ 0 []), .loop,
    .loop]).Truthful := by decide +kernel

end MqttClient

end EspMqttClient
