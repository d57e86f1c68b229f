/-
  What the server has still to acknowledge.

  PUBLISH, PUBREC and PUBREL packets are acknowledged in the order in which they were sent, and only the first of
  them in the queue is looked at.  If the server acknowledges every sending once, in order, no acknowledgement is
  ignored while its packet is there, whatever is sent again and wherever the connection is lost: what was
  acknowledged is out of the queue, and what waits in front of the cursor is what the server has still to
  acknowledge (`run_settlesInOrder`).
-/
import EspMqttClient.Data.Window
import EspMqttClient.MqttClient.Equiv.Inner
import EspMqttClient.MqttClient.Equiv.Sent

namespace EspMqttClient

/-! ### Acknowledgements in order -/

/-- The type of the packets that are acknowledged by those of this type in the order in which they were sent. -/
def acknowledges (type : MQTTPacketType) : Option MQTTPacketType :=
  if type = PacketType.PUBACK ∨ type = PacketType.PUBREC then some PacketType.PUBLISH
  else if type = PacketType.PUBREL then some PacketType.PUBREC
  else if type = PacketType.PUBCOMP then some PacketType.PUBREL
  else none

/-- The packet id of an acknowledgement for a packet of this type. -/
def Record.acknowledged (request : MQTTPacketType) (r : Record) : Option UInt16 :=
  match r.event with
  | .packet report =>
    if acknowledges (report.packetType &&& 0xF0) = some request then some report.packetId else none
  | _ => none

/-- Is it a packet of this type that stays in the queue when it was sent? -/
def OutgoingPacket.awaits (request : MQTTPacketType) (item : OutgoingPacket) : Bool :=
  item.isType request && !item.packet.removable

namespace Log

/-- The packets of this type that were sent since the last `connect` and wait to be acknowledged, each as often
as it was sent. -/
def awaiting (request : MQTTPacketType) : Log → List OutgoingPacket :=
  Trace.gather (·.event.isConnect) fun r => r.sentItem.toList.filter (·.awaits request)

/-- The packet ids that were acknowledged since the last `connect`. -/
def answers (request : MQTTPacketType) : Log → List UInt16 :=
  Trace.gather (·.event.isConnect) fun r => (r.acknowledged request).toList

/-- What a server that acknowledges every sending in order has still to acknowledge. -/
def due (request : MQTTPacketType) (log : Log) : List OutgoingPacket :=
  (log.awaiting request).drop (log.answers request).length

end Log

/-- An acknowledgement is for the next one that is owed. -/
def Record.inOrder (request : MQTTPacketType) (r : Record) (earlier : Log) : Bool :=
  (r.acknowledged request).all fun packetId => (earlier.due request).head?.any (·.packet.packetId = packetId)

/-- The packet as an entry of the queue. -/
def OutgoingPacket.entry (request : MQTTPacketType) (item : OutgoingPacket) : Entry UInt16 where
  key := item.added
  waits := item.isType request
  id := item.packet.packetId

def entries (request : MQTTPacketType) (items : List OutgoingPacket) : List (Entry UInt16) :=
  items.map (·.entry request)

theorem entries_get {request : MQTTPacketType} {items : List OutgoingPacket} {i : ℕ} {item : OutgoingPacket}
    (h : items[i]? = some item) : (entries request items)[i]? = some (item.entry request) := by
  rw [entries, List.getElem?_map, h, Option.map_some]

namespace MqttClient

variable {cfg : Config} {env : Env cfg} {request : MQTTPacketType}

/-! ### What was sent -/

/-- Anything but the start of a connection and a packet's being sent. -/
def isApart : Event → Bool
  | .connect _ | .sent _ => false
  | _ => true

theorem isApart_of_isMute {event : Event} (h : event.isMute) : isApart event := by
  cases event <;> first | rfl | cases h

theorem awaiting_cons (r : Record) (log : Log) : Log.awaiting request (r :: log) =
    if r.event.isConnect then [] else log.awaiting request ++ r.sentItem.toList.filter (·.awaits request) := rfl

theorem answers_cons (r : Record) (log : Log) : Log.answers request (r :: log) =
    if r.event.isConnect then [] else log.answers request ++ (r.acknowledged request).toList := rfl

theorem Grows.awaiting {c c' : MqttClient cfg} (h : Grows isApart c c') :
    c'.log.awaiting request = c.log.awaiting request := by
  obtain ⟨new, hlog, hnew⟩ := h
  rw [hlog]
  refine Trace.gather_append (fun r hr => ?_) c.log
  have hr := hnew r hr
  rw [Record.sentItem]
  cases hevent : r.event <;> rw [hevent] at hr <;> first | exact ⟨rfl, rfl⟩ | cases hr

/-- A packet that was read and marked as a duplicate is the same entry. -/
theorem entry_touched {item item' : OutgoingPacket} (h : Touched cfg item item') (hproper : Proper item.packet) :
    item'.entry request = item.entry request := by
  rw [OutgoingPacket.entry, OutgoingPacket.entry, OutgoingPacket.isType, OutgoingPacket.isType, h.added,
    h.reads.packetId, h.reads.packetType hproper.toFormed]

/-! ### The queue -/

/-- What waits in front of the cursor was sent since the last `connect`, and in order. -/
def Attends (request : MQTTPacketType) (c : MqttClient cfg) : Prop :=
  Entry.Lined c.tick (entries request c.outbox.passed) (entries request c.outbox.pending)
    (entries request (c.log.awaiting request))

theorem Attends.grows {c c' : MqttClient cfg} (hc : c.Attends request)
    (hpassed : entries request c'.outbox.passed = entries request c.outbox.passed)
    (hpending : entries request c'.outbox.pending = entries request c.outbox.pending) (htick : c.tick ≤ c'.tick)
    (hgrows : Grows isApart c c') : c'.Attends request := by
  rw [Attends, hpassed, hpending, hgrows.awaiting]
  exact Entry.Lined.mono hc htick

theorem Attends.keeps {c c' : MqttClient cfg} (hc : c.Attends request) (houtbox : c'.outbox = c.outbox)
    (htick : c.tick ≤ c'.tick) (hgrows : Grows isApart c c') : c'.Attends request :=
  hc.grows (by rw [houtbox]) (by rw [houtbox]) htick hgrows

theorem Attends.sublist {c c' : MqttClient cfg} (hc : c.Attends request)
    (hitems : c'.outbox.items.Sublist c.outbox.items) (hpassed : c'.outbox.passed ⊆ c.outbox.passed)
    (htick : c.tick ≤ c'.tick) (hgrows : Grows isApart c c') : c'.Attends request := by
  have hsub := hitems.map (·.entry request)
  rw [CursorList.items, CursorList.items, List.map_append, List.map_append] at hsub
  rw [Attends, hgrows.awaiting]
  exact (Entry.Lined.sublist hc hsub (List.map_subset _ hpassed)).mono htick

theorem Attends.push {c : MqttClient cfg} (hc : c.Attends request) (packet : Packet) :
    (c.push packet).asked.Attends request := by
  show Entry.Lined (c.tick + 1) (entries request c.outbox.passed)
    (entries request (c.outbox.pending ++ [⟨0, packet, c.tick⟩])) (entries request (c.log.awaiting request))
  rw [entries, entries, List.map_append]
  exact Entry.Lined.push hc rfl

/-! ### Sending -/

theorem Attends.sendPacket {c : MqttClient cfg} (hc : c.Attends request) (hproper : c.QueuesProper) :
    (c.sendPacket env).2.Attends request := by
  have hgrows : Grows isApart c (c.sendPacket env).2 := grows_sendPacket c fun _ => rfl
  rcases sendPacket_cases env c with ⟨-, h⟩ | ⟨item, rest, available, packet, hpending, havailable, h⟩
  · rw [h]
    exact hc
  have hmem : item ∈ c.outbox.items := by
    rw [CursorList.items, hpending]
    simp
  have hentry : ∀ timeSent,
      (⟨timeSent, packet, item.added⟩ : OutgoingPacket).entry request = item.entry request := fun timeSent =>
    entry_touched ⟨rfl, Packet.reads_of_available havailable⟩ (hproper item hmem)
  rcases h with ⟨-, h⟩ | ⟨-, timeSent, activity, h⟩ <;> rw [h] at hgrows ⊢
  · refine hc.grows rfl ?_ (Nat.le_succ _) hgrows
    rw [hpending]
    exact congrArg (· :: _) (hentry _)
  · refine hc.grows rfl ?_ (Nat.le_add_right _ 4) hgrows
    rw [hpending]
    exact congrArg (· :: _) (hentry _)

theorem sendPacket_queuesProper {c : MqttClient cfg} (hproper : c.QueuesProper) :
    (c.sendPacket env).2.QueuesProper := by
  intro item' hmem
  obtain ⟨item, hmem, htouched⟩ := sendPacket_stays env c item' hmem
  exact (hproper item hmem).reads htouched.reads

theorem grows_farewell (c : MqttClient cfg) (packet : Packet) : Grows isApart c (c.farewell packet) := by
  rw [farewell]
  split_ifs
  · exact grows_of_cons rfl rfl
  · exact grows_of_log rfl

/-- The current packet was sent. -/
theorem Attends.advanceOutbox {c : MqttClient cfg} (hc : c.Attends request) (hproper : c.QueuesProper) :
    c.advanceOutbox.2.Attends request := by
  rcases advanceOutbox_cases c with ⟨h, -⟩ | ⟨item, hcurrent, -, h⟩ <;> rw [h]
  · exact hc
  obtain ⟨rest, hpending⟩ := getCurrent_eq_some.mp hcurrent
  have hproper := hproper item (CursorList.getCurrent_mem hcurrent)
  have hsent : Log.awaiting request (((c.farewell item.packet).note (.sent item.packet)).leaveCurrent item).log =
      c.log.awaiting request ++ [item].filter (·.awaits request) := by
    have hcurrent : (c.farewell item.packet).outbox.getCurrent = some item := by rw [outbox_farewell, hcurrent]
    rw [← (grows_farewell c item.packet).awaiting]
    show Log.awaiting request (_ :: (c.farewell item.packet).log) = _
    rw [awaiting_cons]
    show _ ++ List.filter _ (c.farewell item.packet).outbox.getCurrent.toList = _
    rw [hcurrent, Option.toList_some]
  have houtbox : (((c.farewell item.packet).note (.sent item.packet)).leaveCurrent item).outbox =
      leave c.outbox item := by
    show leave (c.farewell item.packet).outbox item = _
    rw [outbox_farewell]
  have htick : (((c.farewell item.packet).note (.sent item.packet)).leaveCurrent item).tick = c.tick := by
    show (c.farewell item.packet).tick = _
    rw [farewell]
    split_ifs <;> rfl
  have hlined : Entry.Lined c.tick (entries request c.outbox.passed)
      (item.entry request :: entries request rest) (entries request (c.log.awaiting request)) := by
    rw [Attends, hpending] at hc
    exact hc
  rw [Attends, hsent, houtbox, htick, leave_eq hpending]
  by_cases hremovable : item.packet.removable
  · have hawaits : ¬ item.awaits request := by
      rw [OutgoingPacket.awaits, hremovable, Bool.not_true, Bool.and_false]
      exact Bool.false_ne_true
    rw [if_pos hremovable, List.filter_cons_of_neg hawaits, List.filter_nil, List.append_nil]
    exact hlined.sublist (List.Sublist.append_left (List.sublist_cons_self _ _) _) (List.Subset.refl _)
  have htouched : Touched cfg item (kept item) := kept_touched item
  have hentry : (kept item).entry request = item.entry request := entry_touched htouched hproper
  rw [if_neg hremovable, entries, entries, entries, List.map_append, List.map_append, List.map_singleton, hentry]
  cases htype : item.isType request with
  | true =>
    have hawaits : item.awaits request := by
      rw [OutgoingPacket.awaits, htype, Bool.true_and, Bool.not_eq_true']
      exact Bool.eq_false_of_not_eq_true hremovable
    rw [List.filter_cons_of_pos hawaits, List.filter_nil, List.map_singleton]
    exact hlined.pass htype
  | false =>
    have hawaits : ¬ item.awaits request := by
      rw [OutgoingPacket.awaits, htype, Bool.false_and]
      exact Bool.false_ne_true
    rw [List.filter_cons_of_neg hawaits, List.filter_nil, List.map_nil, List.append_nil]
    exact hlined.skip htype

/-! ### Flows -/

theorem Attends.filter {c : MqttClient cfg} (hc : c.Attends request) (clearData : ℕ) :
    (c.clearQueue clearData).Attends request := by
  rw [clearQueue_eq]
  refine hc.sublist ?_ List.filter_sublist.subset le_rfl (grows_of_cons rfl rfl)
  rw [CursorList.items_filter]
  exact List.filter_sublist

theorem Requested.isApart {c : MqttClient cfg} {packet : Packet} {event : Event}
    (h : c.Requested packet event) : isApart event := by
  cases h <;> rfl

/-- **The queue**: what a flow does to it. -/
theorem Flow.attends {c c' : MqttClient cfg} (h : Flow env c c') (hproper : c.QueuesProper)
    (hc : c.Attends request) : c'.Attends request := by
  cases h with
  | keep h => exact hc.keeps h.outbox h.tick (grows_of_log h.log)
  | note event hmute => exact hc.keeps rfl le_rfl (grows_note c (isApart_of_isMute hmute))
  | transportConnect => exact hc.keeps rfl le_rfl (grows_note c rfl)
  | move next => exact hc.keeps rfl le_rfl (grows_setState c rfl)
  | @connect args packet =>
    have hstart := Entry.Lined.start (a := OutgoingPacket.entry request ⟨0, packet, c.tick⟩) hc rfl
    rw [entries, entries, ← List.map_append] at hstart
    exact hstart
  | rewind => exact hc.sublist (List.Sublist.refl _) (List.nil_subset _) le_rfl (grows_of_log rfl)
  | request h => exact (hc.push _).keeps rfl le_rfl (grows_note _ h.isApart)
  | answer => exact hc.push _
  | addDisconnect => exact (hc.push _).keeps rfl le_rfl (grows_setState _ rfl)
  | @remove it =>
    refine hc.sublist ?_ ?_ le_rfl (grows_remove c it rfl)
    · show (c.outbox.remove it).items.Sublist _
      rw [CursorList.items_remove]
      exact List.eraseIdx_sublist _ _
    · show (c.outbox.remove it).passed ⊆ _
      rw [CursorList.remove]
      split_ifs
      · exact (List.eraseIdx_sublist _ _).subset
      · exact List.Subset.refl _
  | clearQueue deleteSessionData => exact hc.filter _
  | sendConnect => exact hc.sendPacket hproper
  | sendRound =>
    rw [MqttClient.sendRound]
    split_ifs
    · exact (hc.sendPacket hproper).advanceOutbox (sendPacket_queuesProper hproper)
    · exact hc.sendPacket hproper
  | accept =>
    have hadvance : c.connectedNow.advanceOutbox.2.Attends request :=
      Attends.advanceOutbox (hc.keeps rfl le_rfl (grows_of_cons rfl rfl)) hproper
    have hadmitted : c.admitted.Attends request := by
      rw [admitted]
      split_ifs
      · exact hadvance.filter 1
      · exact hadvance
    exact hadmitted.keeps rfl le_rfl (grows_note _ rfl)
  | close => exact (hc.filter 0).keeps rfl le_rfl (grows_of_cons_cons rfl rfl rfl)

/-! ### What comes in -/

/-- Anything but the start of a connection, a packet's being taken in and its consequences for the queue. -/
def isOngoing : Event → Bool
  | .connect _ | .packet _ | .remove _ => false
  | _ => true

/-- Anything but the start of a connection and a packet's being taken in. -/
def isFurther (event : Event) : Bool := !event.isConnect && event.isOther

/-- A packet is taken in.  If it acknowledges packets of this type, the first of these goes or nothing does. -/
structure TakesIn (request : MQTTPacketType) (c c' : MqttClient cfg) : Prop where
  grows : Grows isFurther c.received c'
  acknowledged : acknowledges c.incomingType = some request → c.state ≠ .connectingMqtt ∧ Grows isApart c c' ∧
    (c'.log = c.received.log ∨ ∃ it, c.findFirst request c.incoming.packetId = some it ∧
      ∀ item ∈ c'.outbox.items, item ∈ c.outbox.items.eraseIdx it ∨ c.tick ≤ item.added)

theorem takesIn_of_type {c c' : MqttClient cfg} {type : MQTTPacketType} (htype : c.incomingType = type)
    (hother : acknowledges type = none) (hgrows : Grows isFurther c.received c') :
    TakesIn request c c' :=
  ⟨hgrows, fun h => by rw [htype, hother] at h; cases h⟩

theorem acknowledges_of_finishing {type request' : MQTTPacketType} (h : (type, request') ∈ finishing) :
    acknowledges type = some request' := by
  simp only [finishing, List.mem_cons, Prod.mk.injEq, List.not_mem_nil, or_false] at h
  rcases h with ⟨rfl, rfl⟩ | ⟨rfl, rfl⟩ <;> rfl

theorem acknowledges_of_proceeding {type request' next : MQTTPacketType}
    (h : (type, request', next) ∈ proceeding) : acknowledges type = some request' := by
  simp only [proceeding, List.mem_cons, Prod.mk.injEq, List.not_mem_nil, or_false] at h
  rcases h with ⟨rfl, rfl, -⟩ | ⟨rfl, rfl, -⟩ <;> rfl

/-- **A step**: a connection is started, or nothing comes in, or a packet is taken in. -/
theorem Step.takesIn {c c' : MqttClient cfg} (h : Step env c c') (request : MQTTPacketType) :
    (∃ r s : Record, r.event.isConnect = false ∧ r.acknowledged request = none ∧ r.sentItem = none ∧
      s.event.isConnect ∧ c'.log = r :: s :: c.log) ∨ Grows isOngoing c c' ∨ TakesIn request c c' := by
  cases h with
  | connect => exact .inl ⟨_, _, rfl, rfl, rfl, rfl, rfl⟩
  | quiet h => exact .inr (.inl (grows_of_log h.log))
  | connectFailed => exact .inr (.inl (grows_of_log rfl))
  | disconnect force =>
    refine .inr (.inl ?_)
    rw [MqttClient.disconnect]
    split_ifs
    · exact (grows_note c rfl).trans (grows_of_cons rfl rfl)
    · exact (grows_note c rfl).trans (grows_of_cons rfl rfl)
    · exact grows_of_log rfl
  | publish | publishChunked =>
    exact .inr (.inl ((grows_publishPacketId c _ fun _ => rfl).trans (grows_of_cons rfl rfl)))
  | subscribe | unsubscribe =>
    exact .inr (.inl ((grows_getNextPacketId c fun _ => rfl).trans (grows_of_cons rfl rfl)))
  | sendConnect => exact .inr (.inl (grows_sendPacket c fun _ => rfl))
  | sendRound => exact .inr (.inl (grows_sendRound c (fun _ => rfl) (fun _ => rfl) rfl))
  | lost | stop | unexpected => exact .inr (.inl (grows_of_cons_cons rfl rfl rfl))
  | close => exact .inr (.inl ⟨[_, _, _], rfl, by simp [isOngoing]⟩)
  | error | calls | nextPacketId | clearQueue | connecting | established | addDisconnect | ping | timeout =>
    exact .inr (.inl (grows_of_cons rfl rfl))
  | ignore hlistens =>
    exact .inr (.inr ⟨grows_of_log rfl, fun _ => ⟨hlistens.opened, grows_of_cons rfl rfl, .inl rfl⟩⟩)
  | refused _ htype => exact .inr (.inr (takesIn_of_type htype rfl (grows_of_cons rfl rfl)))
  | accept _ htype =>
    refine .inr (.inr (takesIn_of_type htype rfl ?_))
    exact (grows_admitted c.received (fun _ => rfl) (fun _ => rfl) rfl).trans (grows_note _ rfl)
  | message _ htype =>
    refine .inr (.inr (takesIn_of_type htype rfl ?_))
    split_ifs
    · exact (grows_answerPublish c.received).trans (grows_note _ rfl)
    · exact grows_answerPublish c.received
  | @finish it type request' hexchange hlistens htype hid hfind =>
    refine .inr (.inr ⟨(grows_remove c.received it rfl).trans (grows_note _ rfl), fun hack => ?_⟩)
    rw [htype, acknowledges_of_finishing hexchange, Option.some_inj] at hack
    refine ⟨hlistens.opened, ?_, .inr ⟨it, hack ▸ hfind, fun item hmem => .inl ?_⟩⟩
    · exact (grows_note c rfl).trans ((grows_remove c.received it rfl).trans (grows_note _ rfl))
    · rwa [← CursorList.items_remove]
  | @proceed it type request' next hexchange hlistens htype hid hfind =>
    have hadd : Grows isApart c (c.received.addPacket env fun alloc =>
        Packet.ack cfg alloc next c.incoming.packetId).2 :=
      (grows_note c rfl).trans (grows_addPacket c.received _)
    refine .inr (.inr ⟨(grows_addPacket c.received _).trans (grows_remove _ it rfl), fun hack => ?_⟩)
    rw [htype, acknowledges_of_proceeding hexchange, Option.some_inj] at hack
    refine ⟨hlistens.opened, hadd.trans (grows_remove _ it rfl), .inr ⟨it, hack ▸ hfind, fun item hmem => ?_⟩⟩
    obtain ⟨_, -, hitem, -, -⟩ := findFirst_spec hfind
    obtain ⟨hlt, -⟩ := List.getElem?_eq_some_iff.mp hitem
    rcases addPacket_cases env c.received fun alloc => Packet.ack cfg alloc next c.incoming.packetId with
      ⟨packet, -, hpush⟩ | ⟨-, hpush⟩ <;> rw [hpush] at hmem
    · change item ∈ ((c.outbox.emplace ⟨0, packet, c.tick⟩).remove it).items at hmem
      rw [CursorList.items_remove, CursorList.items_emplace, List.eraseIdx_append_of_lt_length hlt,
        List.mem_append, List.mem_singleton] at hmem
      refine hmem.imp_right fun heq => ?_
      rw [heq]
    · change item ∈ (c.outbox.remove it).items at hmem
      rw [CursorList.items_remove] at hmem
      exact .inl hmem
  | suback _ _ htype =>
    exact .inr (.inr (takesIn_of_type htype rfl ((grows_remove c.received _ rfl).trans (grows_note _ rfl))))
  | unsuback _ htype =>
    exact .inr (.inr (takesIn_of_type htype rfl ((grows_remove c.received _ rfl).trans (grows_note _ rfl))))

/-! ### No acknowledgement is ignored that has its packet -/

/-- Does a handler take a packet out? -/
def isRemove : Event → Bool
  | .remove _ => true
  | _ => false

/-- What is noted first with a move is not that a packet is taken out: before that something came in. -/
theorem Move.first {c c' : MqttClient cfg} (h : Move env c c') {s : Record} (hs : s :: c.log <:+ c'.log) :
    isRemove s.event = false := by
  have hnew : ∀ (new : Log) {r : Record}, c'.log = new ++ r :: c.log → isRemove r.event = false →
      isRemove s.event = false := by
    intro new r hlog hr
    have hr' : r :: c.log <:+ c'.log := ⟨new, hlog.symm⟩
    have heq := (List.suffix_of_suffix_length_le hs hr' le_rfl).eq_of_length rfl
    rwa [(List.cons.inj heq).1]
  cases h with
  | transportConnect | read | parsed => exact hnew [] rfl rfl
  | step h =>
    rcases h.takesIn PacketType.PUBLISH with ⟨r, t, -, -, -, ht, hlog⟩ | ⟨new, hlog, hall⟩ | ⟨⟨new, hlog, -⟩, -⟩
    · refine hnew [r] hlog ?_
      cases hevent : t.event <;> rw [hevent] at ht <;> first | rfl | cases ht
    · obtain ⟨before, hbefore⟩ := hs
      have hmem : s ∈ new := by
        have heq : before ++ [s] ++ c.log = new ++ c.log := by simp [← hlog, ← hbefore]
        rw [← List.append_cancel_right heq]
        simp
      have hongoing := hall s hmem
      cases hevent : s.event <;> rw [hevent] at hongoing <;> first | rfl | cases hongoing
    · exact hnew new hlog rfl

theorem Moves.first {c c' : MqttClient cfg} (h : Moves env c c') {s : Record} (hs : s :: c.log <:+ c'.log) :
    isRemove s.event = false := by
  induction h with
  | refl => exact absurd hs.length_le (by simp)
  | @tail b d hmoves hmove ih =>
    by_cases hlength : (s :: c.log).length ≤ b.log.length
    · exact ih (List.suffix_of_suffix_length_le hs (Moves.log_suffix (.single hmove)) hlength)
    · have hsuffix := Moves.log_suffix hmoves
      have heq : c.log = b.log := hsuffix.eq_of_length (by
        have hle := hsuffix.length_le
        rw [List.length_cons] at hlength
        omega)
      exact hmove.first (heq ▸ hs)

/-- The handler of an acknowledgement. -/
theorem handle_acknowledges (env : Env cfg) {c : MqttClient cfg} (hstate : c.state ≠ .connectingMqtt)
    (htype : acknowledges c.incomingType = some request) : (c.handle env).2 = c.received.finish env request ∨
      ∃ next, (c.handle env).2 = c.received.proceed env request next := by
  rw [acknowledges] at htype
  rw [handle]
  dsimp only
  rw [← received, ← incomingType, if_neg fun h => hstate h.1]
  split_ifs at htype with hpublish hpubrel hpubcomp
  · obtain rfl := Option.some_inj.mp htype
    rcases hpublish with hpuback | hpubrec
    · rw [hpuback]
      exact .inl rfl
    · rw [hpubrec]
      exact .inr ⟨_, rfl⟩
  · obtain rfl := Option.some_inj.mp htype
    rw [hpubrel]
    exact .inr ⟨_, rfl⟩
  · obtain rfl := Option.some_inj.mp htype
    rw [hpubcomp]
    exact .inl rfl

theorem log_remove (c : MqttClient cfg) (it : ℕ) :
    ∃ s : Record, isRemove s.event ∧ (c.remove it).log = s :: c.log := ⟨_, rfl, rfl⟩

/-- A packet that is found is taken out. -/
theorem handle_removes (env : Env cfg) {c : MqttClient cfg} (hstate : c.state ≠ .connectingMqtt)
    (htype : acknowledges c.incomingType = some request) {it : ℕ}
    (hfind : c.findFirst request c.incoming.packetId = some it) :
    ∃ s : Record, isRemove s.event ∧ s :: c.received.log <:+ (c.handle env).2.log := by
  have hfind' : c.received.findFirst request c.received.incoming.packetId = some it := hfind
  rcases handle_acknowledges env hstate htype with h | ⟨next, h⟩ <;> rw [h]
  · obtain ⟨s, hs, hlog⟩ := log_remove c.received it
    rw [finish, hfind']
    exact ⟨s, hs, hlog ▸ (internal_callback (c.received.remove it) .onPublish rfl).log_suffix⟩
  · rw [proceed, hfind']
    rcases addPacket_cases env c.received fun alloc =>
        Packet.ack cfg alloc next c.received.incoming.packetId with ⟨packet, -, hadd⟩ | ⟨-, hadd⟩ <;>
      simp only [hadd]
    · obtain ⟨s, hs, hlog⟩ := log_remove (c.received.push packet).asked it
      exact ⟨s, hs, hlog ▸ List.suffix_rfl⟩
    · obtain ⟨s, hs, hlog⟩ := log_remove c.received.asked it
      exact ⟨s, hs, hlog ▸ List.suffix_rfl⟩

/-- **No acknowledgement is ignored** in a run that has its packet at the first place. -/
theorem not_ignored {c c' d : MqttClient cfg} (hlog : c'.log = c.received.log) (hmoves : Moves env c' d)
    (hall : d.AllHandled env) (hstate : c.state ≠ .connectingMqtt)
    (htype : acknowledges c.incomingType = some request) : c.findFirst request c.incoming.packetId = none := by
  cases hfind : c.findFirst request c.incoming.packetId with
  | none => rfl
  | some it =>
    exfalso
    have hsuffix : c.received.log <:+ d.log := hlog ▸ Moves.log_suffix hmoves
    obtain ⟨e, he, hhandled⟩ := Trace.always_iff.mp hall _ _ hsuffix Bool.false_ne_true
    -- the client that handled the packet stood like `c`
    obtain ⟨hrecord, -⟩ := List.cons.inj he
    have hreport : e.parser.report = c.parser.report := Event.packet.inj (congrArg Record.event hrecord)
    have hid : e.incoming.packetId = c.incoming.packetId := congrArg Parser.Report.packetId hreport
    have htype' : e.incomingType = c.incomingType :=
      congrArg (fun report => report.packetType &&& 0xF0) hreport
    have houtbox : e.outbox = c.outbox := congrArg Record.outbox hrecord
    have hfind' : e.findFirst request e.incoming.packetId = some it := by
      rw [← hfind, hid, findFirst, findFirst, houtbox]
    have hstate' : e.state ≠ .connectingMqtt := by
      rw [show e.state = c.state from congrArg Record.state hrecord]
      exact hstate
    obtain ⟨s, hremove, hs⟩ := handle_removes env hstate' (htype'.symm ▸ htype) hfind'
    have hs' : s :: c'.log <:+ d.log := by
      rw [he] at hs
      rw [hlog]
      exact hs.trans hhandled
    exact absurd (hmoves.first hs') (by simp [hremove])

/-! ### What is acknowledged is not in the queue -/

/-- What was acknowledged was sent and is not in the queue. -/
structure SettlesInOrder (request : MQTTPacketType) (c : MqttClient cfg) : Prop where
  answers_le : (c.log.answers request).length ≤ (c.log.awaiting request).length
  settled : Entry.Settled (entries request (c.log.awaiting request)) (c.log.answers request).length
    (entries request c.outbox.items)

theorem lined_items {c : MqttClient cfg} (hc : c.Attends request) : Entry.Lined c.tick
    (entries request c.outbox.passed) (entries request c.outbox.pending)
    (entries request (c.log.awaiting request)) ∧
    entries request c.outbox.items = entries request c.outbox.passed ++ entries request c.outbox.pending :=
  ⟨hc, List.map_append⟩

/-- The acknowledgements and the packets that wait for them, when nothing comes in. -/
theorem answers_of_grows (request : MQTTPacketType) {c c' : MqttClient cfg} (h : Grows isFurther c c') :
    c'.log.answers request = c.log.answers request ∧ c.log.awaiting request <+: c'.log.awaiting request := by
  obtain ⟨new, hlog, hnew⟩ := h
  rw [hlog]
  clear hlog
  induction new with
  | nil => exact ⟨rfl, List.prefix_rfl⟩
  | cons r new ih =>
    rw [List.forall_mem_cons, isFurther, Bool.and_eq_true, Bool.not_eq_true'] at hnew
    obtain ⟨⟨hconnect, hother⟩, hnew⟩ := hnew
    obtain ⟨hanswers, hawaiting⟩ := ih hnew
    have hacknowledged : r.acknowledged request = none := by
      rw [Record.acknowledged]
      cases hevent : r.event <;> rw [hevent] at hother
      all_goals first | rfl | cases hother
    rw [List.cons_append, answers_cons, awaiting_cons, hconnect, hacknowledged, hanswers]
    exact ⟨List.append_nil _, hawaiting.trans (List.prefix_append _ _)⟩

theorem entries_later {c c' : MqttClient cfg} (h : Flows env c c') (hdated : c.Dated) {a : Entry UInt16}
    (ha : a ∈ entries request c'.outbox.items) :
    (∃ b ∈ entries request c.outbox.items, b.key = a.key) ∨ c.tick ≤ a.key := by
  obtain ⟨item', hmem, rfl⟩ := List.mem_map.mp ha
  rcases (h.items hdated).2 item' hmem with ⟨item, hmem, htouched⟩ | hle
  · exact .inl ⟨item.entry request, List.mem_map_of_mem hmem, htouched.added.symm⟩
  · exact .inr hle

/-- What was acknowledged does not come back. -/
theorem SettlesInOrder.stays_settled {c c' : MqttClient cfg} (hc : c.SettlesInOrder request) (h : Move env c c')
    (hdated : c.Dated) (hattends : c.Attends request)
    (hawaiting : c.log.awaiting request <+: c'.log.awaiting request) :
    Entry.Settled (entries request (c'.log.awaiting request)) (c.log.answers request).length
      (entries request c'.outbox.items) := by
  refine hc.settled.later (hawaiting.map _) ?_ (lined_items hattends).1.sent_lt fun a =>
    entries_later h.flows hdated
  rw [entries, List.length_map]
  exact hc.answers_le

theorem SettlesInOrder.later {c c' : MqttClient cfg} (hc : c.SettlesInOrder request) (h : Move env c c')
    (hdated : c.Dated) (hattends : c.Attends request)
    (hanswers : c'.log.answers request = c.log.answers request)
    (hawaiting : c.log.awaiting request <+: c'.log.awaiting request) : c'.SettlesInOrder request where
  answers_le := hanswers ▸ hc.answers_le.trans hawaiting.length_le
  settled := hanswers ▸ hc.stays_settled h hdated hattends hawaiting

/-- The first packet of a type is found. -/
theorem findFirst_of_split {c : MqttClient cfg} {before behind : List OutgoingPacket} {item : OutgoingPacket}
    (hitems : c.outbox.items = before ++ item :: behind)
    (hbefore : ∀ other ∈ before, other.isType request = false) (htype : item.isType request) :
    c.findFirst request item.packet.packetId = some before.length := by
  have hitem : c.outbox.items[before.length]? = some item := by
    rw [hitems, List.getElem?_append_right le_rfl, Nat.sub_self, List.getElem?_cons_zero]
  refine findFirst_eq ?_ hitem rfl
  rw [CursorList.find, hitems, List.findIdx?_append, List.findIdx?_eq_none_iff.mpr hbefore, List.findIdx?_cons,
    htype]
  simp

/-- The next acknowledgement in order finds what it names, if that is in the queue. -/
theorem Attends.found {c : MqttClient cfg} (hc : c.Attends request) (hsettles : c.SettlesInOrder request)
    {s : OutgoingPacket} (hs : (c.log.awaiting request)[(c.log.answers request).length]? = some s)
    (htype : s.isType request) (hmem : s.entry request ∈ entries request c.outbox.items) :
    ∃ it, c.findFirst request s.packet.packetId = some it ∧
      ∀ item ∈ c.outbox.items.eraseIdx it, item.added ≠ s.added := by
  obtain ⟨hlined, heq⟩ := lined_items hc
  have hsettled := hsettles.settled
  rw [heq] at hmem hsettled
  obtain ⟨before, behind, hsplit, hbefore, hothers⟩ := hlined.first hsettled (entries_get hs) hmem
  rw [← heq, entries] at hsplit
  obtain ⟨front, back, hitems, rfl, hback⟩ := List.map_eq_append_iff.mp hsplit
  obtain ⟨item, rest, rfl, hitem, rfl⟩ := List.map_eq_cons_iff.mp hback
  have hid : item.packet.packetId = s.packet.packetId := congrArg Entry.id hitem
  have htype' : item.isType request = true := (congrArg Entry.waits hitem).trans htype
  refine ⟨front.length, hid ▸ findFirst_of_split hitems (fun other h => ?_) htype', fun other h => ?_⟩
  · exact hbefore _ (List.mem_map_of_mem h)
  · rw [hitems, List.eraseIdx_append_of_length_le le_rfl, Nat.sub_self, List.eraseIdx_cons_zero] at h
    refine hothers (other.entry request) ?_
    rw [← List.map_append]
    exact List.mem_map_of_mem h

/-- After the next acknowledgement in order, what it names is not in the queue. -/
theorem Attends.acknowledged {c c' : MqttClient cfg} (hc : c.Attends request)
    (hsettles : c.SettlesInOrder request) (h : Move env c c') (hdated : c.Dated) {s : OutgoingPacket}
    (hs : (c.log.awaiting request)[(c.log.answers request).length]? = some s) (htype : s.isType request)
    (hid : s.packet.packetId = c.incoming.packetId)
    (hfirst : c'.log = c.received.log → c.findFirst request c.incoming.packetId = none)
    (htakes : c'.log = c.received.log ∨ ∃ it, c.findFirst request c.incoming.packetId = some it ∧
      ∀ item ∈ c'.outbox.items, item ∈ c.outbox.items.eraseIdx it ∨ c.tick ≤ item.added) :
    ∀ a ∈ entries request c'.outbox.items, a.key ≠ (s.entry request).key := by
  intro a ha hkey
  obtain ⟨hlined, heq⟩ := lined_items hc
  have hsent : s.entry request ∈ entries request (c.log.awaiting request) :=
    List.mem_map_of_mem (List.mem_of_getElem? hs)
  have hlt := hlined.sent_lt _ hsent
  rcases entries_later h.flows hdated ha with ⟨b, hb, hb'⟩ | hle
  · have hbs : b = s.entry request := hlined.same _ hsent b (heq ▸ hb) (hb'.trans hkey)
    obtain ⟨it, hfind, hothers⟩ := hc.found hsettles hs htype (hbs ▸ hb)
    rw [hid] at hfind
    rcases htakes with hlog | ⟨it', hfind', htakes⟩
    · rw [hfirst hlog] at hfind
      cases hfind
    · obtain rfl := Option.some_inj.mp (hfind'.symm.trans hfind)
      obtain ⟨item, hmem, rfl⟩ := List.mem_map.mp ha
      rcases htakes item hmem with hmem | hle
      · exact hothers item hmem hkey
      · have hle : c.tick ≤ (item.entry request).key := hle
        omega
  · omega

theorem isType_of_mem_awaiting {log : Log} {item : OutgoingPacket} (h : item ∈ log.awaiting request) :
    item.isType request := by
  induction log with
  | nil => cases h
  | cons r log ih =>
    rw [awaiting_cons] at h
    split_ifs at h
    · cases h
    · rcases List.mem_append.mp h with h | h
      · exact ih h
      · exact (Bool.and_eq_true_iff.mp (List.mem_filter.mp h).2).1

theorem answers_received (c : MqttClient cfg) : c.received.log.answers request = c.log.answers request ++
    if acknowledges c.incomingType = some request then [c.incoming.packetId] else [] := by
  show Log.answers request (_ :: c.log) = _
  rw [answers_cons]
  show _ ++ Option.toList
    (if acknowledges c.incomingType = some request then some c.incoming.packetId else none) = _
  split_ifs <;> rfl

theorem awaiting_received (c : MqttClient cfg) : c.received.log.awaiting request = c.log.awaiting request :=
  Grows.awaiting (grows_note c rfl)

/-- What an acknowledgement in order names is the next one that is owed. -/
theorem owed_of_inOrder {c : MqttClient cfg} (htype : acknowledges c.incomingType = some request)
    (horder : Trace.Always (fun r earlier => r.inOrder request earlier) c.received.log) :
    ∃ s, (c.log.awaiting request)[(c.log.answers request).length]? = some s ∧
      s.packet.packetId = c.incoming.packetId := by
  obtain ⟨hr, -⟩ := horder
  rw [Record.inOrder] at hr
  change Option.all _
    (if acknowledges c.incomingType = some request then some c.incoming.packetId else none) at hr
  rw [if_pos htype, Option.all_some, Log.due, List.head?_drop, Option.any_eq_true] at hr
  obtain ⟨s, hs, hid⟩ := hr
  exact ⟨s, hs, of_decide_eq_true hid⟩

/-- **Acknowledgements in order**: what a move does to what was acknowledged. -/
theorem Move.settlesInOrder {c c' : MqttClient cfg} (h : Move env c c') (hdated : c.Dated)
    (hattends : c.Attends request)
    (hfirst : c'.log = c.received.log → c.state ≠ .connectingMqtt → acknowledges c.incomingType = some request →
      c.findFirst request c.incoming.packetId = none)
    (horder : Trace.Always (fun r earlier => r.inOrder request earlier) c'.log)
    (hc : c.SettlesInOrder request) : c'.SettlesInOrder request := by
  have hgrows : Grows isFurther c c' → c'.SettlesInOrder request := by
    intro hgrows
    obtain ⟨hanswers, hawaiting⟩ := answers_of_grows request hgrows
    exact hc.later h hdated hattends hanswers hawaiting
  cases h with
  | transportConnect | read | parsed => exact hgrows (grows_of_cons rfl rfl)
  | step hstep =>
    rcases hstep.takesIn request with ⟨r, s, hr, hacknowledged, hsent, hs, hlog⟩ | hongoing | ⟨htaken, htakes⟩
    · have hanswers : c'.log.answers request = [] := by
        rw [hlog, answers_cons, answers_cons, hr, hs, hacknowledged]
        rfl
      have hsettled := Entry.settled_zero (entries request (c'.log.awaiting request))
        (entries request c'.outbox.items)
      exact ⟨hanswers ▸ Nat.zero_le _, hanswers ▸ hsettled⟩
    · refine hgrows (Grows.imp hongoing fun event hevent => ?_)
      cases event <;> first | rfl | cases hevent
    obtain ⟨hanswers, hawaiting⟩ := answers_of_grows request htaken
    rw [awaiting_received] at hawaiting
    rw [answers_received] at hanswers
    by_cases htype : acknowledges c.incomingType = some request
    · obtain ⟨hstate, hapart, htakes⟩ := htakes htype
      rw [if_pos htype] at hanswers
      have hreceived : Trace.Always (fun r earlier => r.inOrder request earlier) c.received.log := by
        obtain ⟨new, hlog, -⟩ := htaken
        rw [hlog] at horder
        exact horder.of_append
      obtain ⟨s, hs, hid⟩ := owed_of_inOrder htype hreceived
      have hgone := hattends.acknowledged hc (.step hstep) hdated hs
        (isType_of_mem_awaiting (List.mem_of_getElem? hs)) hid (fun hlog => hfirst hlog hstate htype) htakes
      have hsettled := hc.stays_settled (.step hstep) hdated hattends hawaiting
      have hsent : (c'.log.awaiting request)[(c.log.answers request).length]? = some s := by
        rw [hapart.awaiting, hs]
      have hlt := (List.getElem?_eq_some_iff.mp hs).1
      have hlength : (c'.log.answers request).length = (c.log.answers request).length + 1 := by
        rw [hanswers, List.length_append, List.length_singleton]
      exact ⟨by rw [hlength, hapart.awaiting]; exact hlt, hlength ▸ hsettled.answer (entries_get hsent) hgone⟩
    · rw [if_neg htype, List.append_nil] at hanswers
      exact hc.later (.step hstep) hdated hattends hanswers hawaiting

theorem Flows.attends {c c' : MqttClient cfg} (h : Flows env c c') (hproper : c.QueuesProper)
    (hc : c.Attends request) : c'.Attends request := by
  induction h with
  | refl => exact hc
  | tail hflows hflow ih => exact hflow.attends (Flows.queuesProper hflows hproper) ih

/-- **Runs**: from here on every acknowledgement is in order, and every packet is handled. -/
theorem Moves.settlesInOrder {c d : MqttClient cfg} (h : Moves env c d) (hall : d.AllHandled env)
    (horder : Trace.Always (fun r earlier => r.inOrder request earlier) d.log) (hproper : c.QueuesProper)
    (hdated : c.Dated) (hattends : c.Attends request) (hc : c.SettlesInOrder request) :
    d.Attends request ∧ d.SettlesInOrder request := by
  induction h using Relation.ReflTransGen.head_induction_on with
  | refl => exact ⟨hattends, hc⟩
  | @head c c' hmove hmoves ih =>
    have horder' : Trace.Always (fun r earlier => r.inOrder request earlier) c'.log := by
      obtain ⟨new, hlog⟩ := Moves.log_suffix hmoves
      rw [← hlog] at horder
      exact horder.of_append
    refine ih (Flows.queuesProper hmove.flows hproper) (Flows.items hmove.flows hdated).1
      (Flows.attends hmove.flows hproper hattends) (hmove.settlesInOrder hdated hattends ?_ horder' hc)
    exact fun hlog hstate htype => not_ignored hlog hmoves hall hstate htype

/-- **No acknowledgement is lost on the client**: if the server acknowledges the packets of a type that were sent
in this connection in order, each as often as it was sent, then what it acknowledged is not in the queue any
more, and what waits in front of the cursor is what it has still to acknowledge. -/
theorem run_settlesInOrder (env : Env cfg) (generatedClientId : CString) (actions : List Action)
    (request : MQTTPacketType)
    (horder : Trace.Always (fun r earlier => r.inOrder request earlier)
      ((new cfg generatedClientId).run env actions).log) :
    (∀ sent ∈ (((new cfg generatedClientId).run env actions).log.awaiting request).take
        (((new cfg generatedClientId).run env actions).log.answers request).length,
      ∀ item ∈ ((new cfg generatedClientId).run env actions).outbox.items, item.added ≠ sent.added) ∧
    ∀ item ∈ ((new cfg generatedClientId).run env actions).outbox.passed, item.isType request →
      ∃ sent ∈ ((new cfg generatedClientId).run env actions).log.due request,
        sent.added = item.added ∧ sent.packet.packetId = item.packet.packetId := by
  have hmoves : Moves env _ ((new cfg generatedClientId).run env actions) :=
    run_moves actions (new_ready generatedClientId)
  obtain ⟨hattends, hsettles⟩ := hmoves.settlesInOrder (run_allHandled env generatedClientId actions) horder
    (fun _ h => absurd h List.not_mem_nil) (fun _ h => absurd h List.not_mem_nil) Entry.lined_nil
    ⟨le_rfl, Entry.settled_zero _ _⟩
  generalize (new cfg generatedClientId).run env actions = c at *
  refine ⟨fun sent hsent item hitem hadded => ?_, fun item hitem htype => ?_⟩
  · refine hsettles.settled (sent.entry request) ?_ (item.entry request) (List.mem_map_of_mem hitem) hadded
    rw [entries, ← List.map_take]
    exact List.mem_map_of_mem hsent
  · obtain ⟨hlined, heq⟩ := lined_items hattends
    have howed := hlined.owed (heq ▸ hsettles.settled) (List.mem_map_of_mem hitem) htype
    rw [entries, ← List.map_drop] at howed
    obtain ⟨sent, hsent, hentry⟩ := List.mem_map.mp howed
    exact ⟨sent, hsent, congrArg Entry.key hentry, congrArg Entry.id hentry⟩

/-- Two messages are sent again after a while, and a third one behind them.  Then the acknowledgements come. -/
def resentScript : Script where
  read := [(11, [0x20, 2, 1, 0]), (44, [0x40, 2, 0, 1, 0x40, 2, 0, 2]), (49, [0x40, 2, 0, 1])]
  millis := [(29, 10001)]

def resentActions : List Action :=
  [.call (.publish ⟨[0x69], by decide⟩ 1 false [7]), .call (.publish ⟨[0x69], by decide⟩ 1 false [8]),
    .call .connect, .loop, .loop, .loop, .loop, .call (.publish ⟨[0x69], by decide⟩ 1 false [9]), .loop, .loop]

/-- The third message is among those that the server has still to acknowledge. -/
theorem run_settlesInOrder_resent : ∃ sent ∈ (resentScript.run resentActions).log.due PacketType.PUBLISH,
    sent.packet.packetId = 3 := by
  obtain ⟨item, hmem, htype, hid⟩ : ∃ item ∈ (resentScript.run resentActions).outbox.passed,
      item.isType PacketType.PUBLISH ∧ item.packet.packetId = 3 := by decide +kernel
  obtain ⟨sent, hsent, -, hid'⟩ := (run_settlesInOrder (resentScript.env .linux) ⟨[0x63], by decide⟩
    resentActions PacketType.PUBLISH (by decide +kernel)).2 item hmem htype
  exact ⟨sent, hsent, hid'.trans hid⟩

end MqttClient

end EspMqttClient
