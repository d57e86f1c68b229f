/-
  What a new connection finds in the queue.

  While a client connects, its CONNECT stands under the cursor in front of what was in the queue before and
  what was added since (`Opening`).  The first CONNACK that is accepted takes the CONNECT away and leaves the
  cursor on the first of the others (`run_resumes`).
-/
import EspMqttClient.MqttClient.Equiv.Queued

namespace EspMqttClient

/-! ### Properties of a log -/

namespace Event

/-- Was a packet added to the back of the queue? -/
def isRequest : Event → Bool
  | .publish .. | .publishChunked .. | .subscribe _ | .unsubscribe _ | .ping => true
  | _ => false

/-- Did a user call `clearQueue`?  The client itself calls `_clearQueue(1)` when it accepts a CONNACK, and
`_clearQueue(0)` before the next `connect`. -/
def isClear : Event → Bool
  | .clearQueue clearData => clearData ≠ 1
  | _ => false

/-- Does the event leave alone what `connect`, the requests, `clearQueue` and the writes add up to? -/
def isAside (event : Event) : Bool :=
  !(event.isConnect || event.isRequest || event.isClear || event.isWrite)

end Event

/-- Was the last byte of a CONNECT accepted by the transport? -/
def Record.isConnectEnd (r : Record) : Bool :=
  match r.event with
  | .write bytes => r.outbox.getCurrent.any fun item =>
      item.isType PacketType.CONNECT ∧ r.bytesSent + bytes.length = item.packet.size
  | _ => false

namespace Log

/-- Was `clearQueue` called since the last `connect`? -/
def cleared : Log → Bool := Trace.since (·.event.isConnect) (·.event.isClear)

/-- Was the CONNECT completely written since the last `connect`? -/
def connectSent : Log → Bool := Trace.since (·.event.isConnect) (·.isConnectEnd)

/-- The packets that were in the queue before the last `connect` and those that were added since, without the
CONNECT. -/
def queued : Log → List OutgoingPacket
  | [] => []
  | r :: log =>
    if r.event.isConnect then r.outbox.items.tail
    else if r.event.isRequest then queued log ++ r.outbox.items.getLast?.toList
    else queued log

end Log

namespace Record

/-- When the `onConnect` callback is due, the cursor is on the first packet, of which nothing was sent, and
the queue is what it was when the client connected, with what was added since.  Without a session only the
PUBLISH packets are left. -/
def Resumes (r : Record) (earlier : Log) : Prop :=
  match r.event with
  | .onConnect sessionPresent => earlier.cleared = false → earlier.connectSent → r.bytesSent = 0 ∧
      r.outbox = ⟨[], if sessionPresent then earlier.queued
        else earlier.queued.filter (·.isType PacketType.PUBLISH)⟩
  | _ => True

/-- The `onConnect` callback is not due a second time in one connection. -/
def isFirst (r : Record) (earlier : Log) : Bool := r.event.isOnConnect → ¬ earlier.greeted

end Record

namespace MqttClient

variable {cfg : Config} {env : Env cfg}

/-! ### The invariant -/

/-- The CONNECT is under the cursor. -/
structure Waiting (c : MqttClient cfg) (item : OutgoingPacket) : Prop where
  outbox : c.outbox = ⟨[], item :: c.log.queued⟩
  packetId : item.packet.packetId = 0
  buffered : item.packet.getPayload = none
  other : item.packet.packetType ≠ PacketType.DISCONNECT
  bounded : item.packet.Bounded cfg
  sent : c.log.connectSent → c.bytesSent = item.packet.size

structure Opening (c : MqttClient cfg) : Prop where
  unheard : c.Unheard
  waiting : isConnecting c.state → c.log.cleared = false → ∃ item, c.Waiting item
  resumes : Trace.Always (fun r earlier => r.Resumes earlier) c.log

/-! ### The log -/

theorem resumes_of_event {r : Record} (h : r.event.isOnConnect = false) (earlier : Log) : r.Resumes earlier := by
  rw [Record.Resumes]
  split
  · rename_i heq
    rw [heq] at h
    cases h
  · trivial

theorem isConnectEnd_of_event {r : Record} (h : r.event.isWrite = false) : r.isConnectEnd = false := by
  rw [Record.isConnectEnd]
  split
  · rename_i heq
    rw [heq] at h
    cases h
  · rfl

/-- What is noted aside. -/
theorem Grows.aside {c c' : MqttClient cfg} (h : Grows Event.isAside c c') : c'.log.queued = c.log.queued ∧
    c'.log.cleared = c.log.cleared ∧ c'.log.connectSent = c.log.connectSent := by
  obtain ⟨new, hnew, haside⟩ := h
  rw [hnew]
  clear hnew
  induction new with
  | nil => exact ⟨rfl, rfl, rfl⟩
  | cons r new ih =>
    rw [List.forall_mem_cons] at haside
    obtain ⟨hqueued, hcleared, hsent⟩ := ih haside.2
    have hr := haside.1
    simp only [Event.isAside, Bool.not_eq_true', Bool.or_eq_false_iff] at hr
    obtain ⟨⟨⟨hconnect, hrequest⟩, hclear⟩, hwrite⟩ := hr
    refine ⟨?_, ?_, ?_⟩
    · rw [List.cons_append, Log.queued, hconnect, hrequest]
      exact hqueued
    · rw [List.cons_append, Log.cleared, Trace.since_cons, hclear, hconnect]
      exact hcleared
    · rw [List.cons_append, Log.connectSent, Trace.since_cons, isConnectEnd_of_event hwrite, hconnect]
      exact hsent

/-- Something was noted aside. -/
theorem Waiting.aside {c c' : MqttClient cfg} {item : OutgoingPacket} (hc : c.Waiting item)
    (houtbox : c'.outbox = c.outbox) (hbytes : c'.bytesSent = c.bytesSent) (h : Grows Event.isAside c c') :
    c'.Waiting item := by
  obtain ⟨hqueued, -, hsent⟩ := h.aside
  refine ⟨?_, hc.packetId, hc.buffered, hc.other, hc.bounded, ?_⟩
  · rw [houtbox, hqueued, hc.outbox]
  · rw [hsent, hbytes]
    exact hc.sent

theorem Opening.aside {c c' : MqttClient cfg} (hc : c.Opening) (houtbox : c'.outbox = c.outbox)
    (hbytes : c'.bytesSent = c.bytesSent) (hstate : isConnecting c'.state → isConnecting c.state)
    (hunheard : c'.Unheard) {r : Record} (hlog : c'.log = r :: c.log) (haside : r.event.isAside)
    (hcallback : r.event.isOnConnect = false) :
    c'.Opening := by
  have hgrows : Grows Event.isAside c c' := grows_of_cons hlog haside
  refine ⟨hunheard, fun hconnecting huncleared => ?_, ?_⟩
  · rw [hgrows.aside.2.1] at huncleared
    obtain ⟨item, hwaiting⟩ := hc.waiting (hstate hconnecting) huncleared
    exact ⟨item, hwaiting.aside houtbox hbytes hgrows⟩
  · rw [hlog]
    exact ⟨resumes_of_event hcallback _, hc.resumes⟩

/-! ### Sending the CONNECT -/

/-- When the last byte of the CONNECT is accepted, it is counted. -/
theorem Waiting.sendPacket {c : MqttClient cfg} {item : OutgoingPacket} (hc : c.Waiting item) :
    ∃ item', (c.sendPacket env).2.Waiting item' := by
  have hpending : c.outbox.pending = item :: c.log.queued := by rw [hc.outbox]
  have hpassed : c.outbox.passed = [] := by rw [hc.outbox]
  rcases sendPacket_buffered env hpending hc.buffered with ⟨-, h⟩ | ⟨hlt, timeSent, activity, h⟩ <;> rw [h]
  · refine ⟨item, ?_, hc.packetId, hc.buffered, hc.other, hc.bounded, hc.sent⟩
    show CursorList.mk c.outbox.passed (item :: c.log.queued) = ⟨[], item :: c.log.queued⟩
    rw [hpassed]
  · refine ⟨{ item with timeSent }, ?_, hc.packetId, hc.buffered, hc.other, hc.bounded, ?_⟩
    · show CursorList.mk c.outbox.passed _ = ⟨[], { item with timeSent } :: c.log.queued⟩
      rw [hpassed]
    · rw [log_wrote, Log.connectSent, Trace.since_cons, Bool.or_eq_true]
      rintro (hend | hearlier)
      · have hend : item.isType PacketType.CONNECT ∧ c.bytesSent + ((item.packet.dataAt c.bytesSent).take
            (env.write (c.tick + 1) (item.packet.size - c.bytesSent)).toNat).length = item.packet.size :=
          of_decide_eq_true hend
        have hle := env.write_le (c.tick + 1) (item.packet.size - c.bytesSent)
        have hsize := hc.bounded.size
        have hlength := hend.2
        rw [List.length_take] at hlength
        show cfg.wrap (c.bytesSent + (env.write (c.tick + 1) (item.packet.size - c.bytesSent) %
          cfg.sizeMod).toNat) = item.packet.size
        rw [toNat_emod_sizeMod (by omega) (by omega), cfg.wrap_of_lt (by omega)]
        omega
      · rw [Bool.and_eq_true] at hearlier
        have hsent := hc.sent hearlier.2
        omega

/-! ### The CONNACK -/

/-- The cursor leaves the CONNECT when that was written to its end. -/
theorem Waiting.advanceOutbox {c : MqttClient cfg} {item : OutgoingPacket} (hc : c.Waiting item)
    (hsize : c.bytesSent = item.packet.size) : c.advanceOutbox.2.bytesSent = 0 ∧
      c.advanceOutbox.2.outbox = ⟨[], c.log.queued⟩ := by
  have hpending : c.outbox.pending = item :: c.log.queued := by rw [hc.outbox]
  have hcurrent : c.outbox.getCurrent = some item := getCurrent_eq_some.mpr ⟨_, hpending⟩
  have hremovable : item.packet.removable := by rw [Packet.removable, if_pos hc.packetId]
  rcases advanceOutbox_cases c with ⟨-, hnot⟩ | ⟨item', hcurrent', -, h⟩
  · exact absurd hsize (hnot item hcurrent)
  obtain rfl := Option.some.inj (hcurrent.symm.trans hcurrent')
  rw [h, farewell, if_neg hc.other]
  refine ⟨rfl, ?_⟩
  show leave c.outbox item = _
  rw [leave_eq hpending, if_pos hremovable, hc.outbox]

/-- The first CONNACK that is accepted. -/
theorem Opening.accept {c : MqttClient cfg} (hc : c.Opening) (hwait : cfg.waitForConnack) (hheard : c.Heard)
    (hfirst : ¬ c.log.greeted) {r : Record} (hr : c.accept.log = r :: c.admitted.log) :
    r.Resumes c.admitted.log := by
  have hstate : c.state = .connectingMqtt := (hheard hwait).resolve_right hfirst
  have hgrows : Grows Event.isAside c c.admitted := grows_admitted c (fun _ => rfl) (fun _ => rfl) rfl
  obtain ⟨hqueued, hcleared, hsent⟩ := hgrows.aside
  obtain rfl := (List.cons.inj hr).1
  intro huncleared hwritten
  rw [hcleared] at huncleared
  rw [hsent] at hwritten
  obtain ⟨item, hwaiting⟩ := hc.waiting (by rw [hstate]; rfl) huncleared
  have hconnected : c.connectedNow.Waiting item := hwaiting.aside rfl rfl (grows_of_cons rfl rfl)
  have hconnectedQueued : c.connectedNow.log.queued = c.log.queued := rfl
  obtain ⟨hbytes, houtbox⟩ := hconnected.advanceOutbox (hwaiting.sent hwritten)
  rw [hconnectedQueued] at houtbox
  have hincoming : c.admitted.incoming = c.incoming := congrArg Parser.packet (parser_admitted c)
  have hincoming' : c.connectedNow.advanceOutbox.2.incoming = c.incoming :=
    congrArg Parser.packet (parser_advanceOutbox c.connectedNow)
  show c.admitted.bytesSent = 0 ∧ c.admitted.outbox =
    ⟨[], if decide (c.admitted.incoming.sessionPresent ≠ 0) then c.admitted.log.queued
      else c.admitted.log.queued.filter (·.isType PacketType.PUBLISH)⟩
  rw [hqueued, hincoming]
  by_cases hpresent : c.incoming.sessionPresent = 0
  · have hadmitted : c.admitted = c.connectedNow.advanceOutbox.2.clearQueue 1 := by
      rw [admitted, hincoming', if_pos hpresent]
    rw [hadmitted, hpresent, outbox_clearQueue, houtbox]
    exact ⟨hbytes, rfl⟩
  · have hadmitted : c.admitted = c.connectedNow.advanceOutbox.2 := by
      rw [admitted, hincoming', if_neg hpresent]
    rw [hadmitted, houtbox]
    simp [hbytes, hpresent]

/-! ### Runs -/

theorem isAside_of_isMute {event : Event} (h : event.isMute) :
    event.isAside ∧ event.isOnConnect = false := by
  cases event <;> first | exact ⟨rfl, rfl⟩ | cases h

theorem Requested.isRequest {c : MqttClient cfg} {packet : Packet} {event : Event}
    (h : c.Requested packet event) : event.isRequest ∧ event.isConnect = false ∧ event.isWrite = false ∧
      event.isOnConnect = false ∧ event.isClear = false := by
  cases h <;> exact ⟨rfl, rfl, rfl, rfl, rfl⟩

theorem Opening.request {c : MqttClient cfg} (hc : c.Opening) {packet : Packet} {event : Event}
    (h : c.Requested packet event) (hunheard : ((c.push packet).asked.note event).Unheard) :
    ((c.push packet).asked.note event).Opening := by
  obtain ⟨hrequest, hconnect, hwrite, hcallback, hclear⟩ := h.isRequest
  refine ⟨hunheard, fun hconnecting huncleared => ?_, resumes_of_event hcallback _, hc.resumes⟩
  · have hcleared : Log.cleared ((c.push packet).asked.note event).log = c.log.cleared := by
      show Log.cleared (_ :: c.log) = _
      rw [Log.cleared, Trace.since_cons, hclear, hconnect]
      rfl
    obtain ⟨item, hwaiting⟩ := hc.waiting hconnecting (hcleared ▸ huncleared)
    refine ⟨item, ?_, hwaiting.packetId, hwaiting.buffered, hwaiting.other, hwaiting.bounded, fun hsent => ?_⟩
    · have houtbox : (c.push packet).outbox = ⟨[], item :: (c.log.queued ++ [⟨0, packet, c.tick⟩])⟩ := by
        show c.outbox.emplace _ = _
        rw [hwaiting.outbox]
        rfl
      have hqueued : Log.queued ((c.push packet).asked.note event).log =
          c.log.queued ++ (c.push packet).outbox.items.getLast?.toList := by
        show Log.queued (_ :: c.log) = _
        rw [Log.queued, if_neg (by rw [hconnect]; nofun), if_pos hrequest]
        rfl
      rw [hqueued, show (c.push packet).outbox.items = c.outbox.items ++ [_] from CursorList.items_emplace _ _,
        List.getLast?_append_cons]
      exact houtbox
    · apply hwaiting.sent
      have hsame : Log.connectSent ((c.push packet).asked.note event).log = c.log.connectSent := by
        show Log.connectSent (_ :: c.log) = _
        rw [Log.connectSent, Trace.since_cons, isConnectEnd_of_event hwrite, hconnect]
        rfl
      exact hsame ▸ hsent

/-- Nothing is accepted. -/
theorem resumes_of_grows {c c' : MqttClient cfg} (h : Grows (fun event => !event.isOnConnect) c c')
    (hc : Trace.Always (fun r earlier => r.Resumes earlier) c.log) :
    Trace.Always (fun r earlier => r.Resumes earlier) c'.log := by
  obtain ⟨new, hnew, hevents⟩ := h
  rw [hnew]
  exact hc.append fun r hr earlier => resumes_of_event (by simpa using hevents r hr) earlier

theorem cleared_sendPacket (env : Env cfg) (c : MqttClient cfg) :
    (c.sendPacket env).2.log.cleared = c.log.cleared := by
  have hgrows : Grows Event.isWrite c (c.sendPacket env).2 := grows_sendPacket c fun _ => rfl
  obtain ⟨new, hnew, hwrites⟩ := hgrows
  rw [hnew]
  refine Trace.since_append (fun r hr => ?_) c.log
  have hwrite := hwrites r hr
  cases hevent : r.event <;> rw [hevent] at hwrite <;> first | exact ⟨rfl, rfl⟩ | cases hwrite

theorem Flow.opening {c c' : MqttClient cfg} (hwait : cfg.waitForConnack) (h : Flow env c c')
    (hfirst : Trace.Always (fun r earlier => r.isFirst earlier) c'.log) (hc : c.Opening) : c'.Opening := by
  have hunheard := h.unheard hc.unheard
  -- a client that is not connecting afterwards
  have hopened : ∀ {c' : MqttClient cfg}, isConnecting c'.state = false →
      Trace.Always (fun r earlier => r.Resumes earlier) c'.log → c'.Opening := by
    intro c' hstate hresumes
    have hnot : ¬ isConnecting c'.state := by
      rw [hstate]
      exact Bool.false_ne_true
    exact ⟨fun h => absurd h hnot, fun h => absurd h hnot, hresumes⟩
  cases h with
  | keep h =>
    refine ⟨hunheard, ?_, ?_⟩
    · rw [h.state, h.log]
      intro hconnecting huncleared
      obtain ⟨item, hwaiting⟩ := hc.waiting hconnecting huncleared
      exact ⟨item, hwaiting.aside h.outbox h.bytesSent (grows_of_log h.log)⟩
    · rw [h.log]
      exact hc.resumes
  | note event hmute =>
    obtain ⟨haside, hcallback⟩ := isAside_of_isMute hmute
    exact hc.aside rfl rfl id hunheard rfl haside hcallback
  | transportConnect => exact hc.aside rfl rfl id hunheard rfl rfl rfl
  | move next hleads => exact hc.aside rfl rfl (leads_isConnecting hleads) hunheard rfl rfl rfl
  | @connect args packet hstate hpacket =>
    obtain ⟨alloc, hbuilt⟩ := hpacket
    obtain ⟨-, hid, hnone, htype, -⟩ := Packet.connect_built hbuilt
    refine ⟨hunheard, fun _ _ => ⟨⟨0, packet, c.tick⟩, rfl, hid, hnone, ?_, Packet.connect_bounded hbuilt,
      nofun⟩,
      trivial, trivial, hc.resumes⟩
    rcases htype with htype | htype <;> rw [htype] <;> decide
  | rewind h =>
    have hstate : isConnecting c.state = false := by
      rcases h with h | ⟨h, -, -⟩
      · rw [h]
        rfl
      · exact hc.unheard.not_connecting hwait h
    exact hopened hstate hc.resumes
  | request h => exact hc.request h hunheard
  | answer hlistens =>
    have hstate := not_connecting_of_listens hlistens
    exact hopened hstate hc.resumes
  | addDisconnect => exact hopened rfl ⟨trivial, hc.resumes⟩
  | remove hlistens =>
    have hstate := not_connecting_of_listens hlistens
    exact hopened hstate ⟨trivial, hc.resumes⟩
  | clearQueue deleteSessionData =>
    refine ⟨hunheard, fun _ huncleared => ?_, trivial, hc.resumes⟩
    cases deleteSessionData <;> cases huncleared
  | sendConnect hstate =>
    refine ⟨hunheard, fun hconnecting huncleared => ?_, ?_⟩
    · rw [state_sendPacket] at hconnecting
      obtain ⟨item, hwaiting⟩ := hc.waiting hconnecting (cleared_sendPacket env c ▸ huncleared)
      exact hwaiting.sendPacket
    · exact resumes_of_grows (grows_sendPacket c fun _ => rfl) hc.resumes
  | sendRound hsends =>
    have hstate : isConnecting (c.sendRound env).state = false := by
      rcases state_sendRound env c with h | h <;> rw [h]
      · exact hc.unheard.not_connecting hwait hsends.1
      · rfl
    exact hopened hstate (resumes_of_grows (grows_sendRound c (fun _ => rfl) (fun _ => rfl) rfl) hc.resumes)
  | accept hstate hheard =>
    have hungreeted : ¬ c.log.greeted := greeted_admitted c ▸ of_decide_eq_true hfirst.1 rfl
    have hresumes : Trace.Always (fun r earlier => r.Resumes earlier) c.admitted.log :=
      resumes_of_grows (grows_admitted c (fun _ => rfl) (fun _ => rfl) rfl) hc.resumes
    apply hopened
    · show isConnecting c.admitted.state = false
      rcases state_admitted c with h | h <;> rw [h] <;> rfl
    · exact ⟨hc.accept hwait hheard hungreeted rfl, hresumes⟩
  | close => exact hopened rfl ⟨trivial, trivial, trivial, hc.resumes⟩

end MqttClient

end EspMqttClient
