/-
  CONNECT comes first.

  What is written in a connection begins with the CONNECT that `connect` was called for, and until a CONNACK is
  accepted there is nothing else (`run_greets`).  The CONNECT stands under the cursor until it is written to its
  end (`Begun`); then there is nothing more to be said about it (`Done`).
-/
import EspMqttClient.MqttClient.Equiv.Queued

namespace EspMqttClient

/-- The bytes of a CONNECT that is built from these arguments. -/
def connectBytes (cfg : Config) (args : Packet.ConnectArgs) : List Byte :=
  (Packet.connect cfg ⟨0, true, true⟩ args).2.data

/-! ### Properties of a log -/

/-- Does the event say nothing of `connect`, the CONNACK and what is written? -/
def Event.isPlain (event : Event) : Bool :=
  !(event.isConnect || event.isTransportConnect || event.isWrite || event.isOnConnect)

namespace Log

/-- What the last `connect` built its CONNECT from. -/
def connectArgs : Log → Option Packet.ConnectArgs
  | [] => none
  | r :: log => match r.event with
    | .connect args => some args
    | _ => connectArgs log

/-- What the CONNECT of this connection was built from. -/
def greeting : Log → Option Packet.ConnectArgs
  | [] => none
  | r :: log => if r.event.isTransportConnect then connectArgs log else greeting log

/-- Was a CONNACK accepted in this connection? -/
def answered : Log → Bool := Trace.since (·.event.isTransportConnect) (·.event.isOnConnect)

end Log

namespace Record

/-- What is written in this connection is a part of its CONNECT until a CONNACK is accepted, and begins with it
after that.  No other packet is written to before the CONNECT is complete. -/
def greets (cfg : Config) (r : Record) (earlier : Log) : Bool :=
  match Log.greeting (r :: earlier) with
  | none => r.isWriting = false
  | some args =>
    (Log.answered (r :: earlier) = false → Log.written (r :: earlier) <+: connectBytes cfg args) ∧
    (Log.written (r :: earlier) <+: connectBytes cfg args ∨
      connectBytes cfg args <+: Log.written (r :: earlier)) ∧
    (r.isWriting → connectBytes cfg args <+: earlier.written ∨
      r.outbox.getCurrent.any (·.packet.data = connectBytes cfg args))

/-- The queue is not cleared on the way to a CONNACK, nor when the current packet is a CONNECT, but for the end
of the connection. -/
def isSparing (r : Record) : Bool :=
  match r.event with
  | .clearQueue _ => r.state = .disconnectingTcp2 ∨ ¬ MqttClient.isConnecting r.state ∧
      ¬ r.outbox.getCurrent.any fun item => item.isType PacketType.CONNECT ∧ item.packet.packetId = 0
  | _ => true

end Record

namespace Packet

variable {cfg : Config}

/-- A CONNECT that was built has these bytes. -/
theorem data_connect {alloc : Alloc} {args : ConnectArgs} {packet : Packet}
    (h : connect cfg alloc args = (.SUCCESS, packet)) : packet.data = connectBytes cfg args := by
  have hagain : ∃ packet', connect cfg ⟨0, true, true⟩ args = (.SUCCESS, packet') := by
    rw [connect] at h ⊢
    split_ifs at h ⊢ with hclient
    · cases h
    · exact ⟨_, rfl⟩
  obtain ⟨packet', h'⟩ := hagain
  rw [connectBytes, h', (connect_built h).2.2.2.2 _ _ h']

/-- A CONNECT is known by its first byte, if it has one. -/
theorem connect_type {alloc : Alloc} {args : ConnectArgs} {packet : Packet}
    (h : connect cfg alloc args = (.SUCCESS, packet)) :
    packet.data = [] ∨ packet.packetType = PacketType.CONNECT := by
  rw [connect] at h
  split_ifs at h with hclient
  · cases h
  cases halloc : allocate cfg alloc (connectLength cfg args) false with
  | none => simp [halloc] at h
  | some b =>
    rw [halloc] at h
    obtain ⟨-, -, -, hdata⟩ := formed_ofBuffer h
    have hbegins : Begins (fillConnect cfg b args) (PacketType.CONNECT ||| HeaderFlag.CONNECT_RESERVED) := by
      rw [allocate_eq halloc]
      exact fillConnect_begins _ args
    rw [packetType_eq, hdata]
    rcases hbegins.2 with hnil | hhead
    · exact .inl hnil
    · rw [hhead]
      exact .inr (by decide)

end Packet

namespace MqttClient

variable {cfg : Config} {env : Env cfg}

/-! ### The invariant -/

/-- The CONNECT is under the cursor. -/
structure Front (c : MqttClient cfg) (args : Packet.ConnectArgs) (item : OutgoingPacket)
    (rest : List OutgoingPacket) : Prop where
  outbox : c.outbox = ⟨[], item :: rest⟩
  built : ∃ alloc, Packet.connect cfg alloc args = (.SUCCESS, item.packet)

/-- The CONNECT is under the cursor, and what was sent of it is all that was written. -/
def Begun (c : MqttClient cfg) : Prop :=
  ∃ args item rest, c.Front args item rest ∧ c.log.greeting = some args ∧
    c.log.written = (connectBytes cfg args).take c.bytesSent ∧ c.bytesSent ≤ item.packet.size

/-- The CONNECT was written. -/
def Done (cfg : Config) (log : Log) : Prop :=
  ∃ args, log.greeting = some args ∧ connectBytes cfg args <+: log.written

/-- What is true of the log. -/
structure Spoken (cfg : Config) (log : Log) : Prop where
  early : ∀ args, log.greeting = some args → log.answered = false → log.written <+: connectBytes cfg args
  either : ∀ args, log.greeting = some args →
    log.written <+: connectBytes cfg args ∨ connectBytes cfg args <+: log.written
  answered : log.greeted → log.answered
  greets : Trace.Always (fun r earlier => r.greets cfg earlier) log

structure Greeting (c : MqttClient cfg) : Prop where
  unheard : c.Unheard
  idle : c.Idle
  dialling : c.state = .connectingTcp1 → ∃ args item rest, c.Front args item rest ∧
    c.log.connectArgs = some args ∧ c.bytesSent = 0
  begun : c.state = .connectingTcp2 ∨ c.state = .connectingMqtt → c.Begun
  going : c.state.isOnline → c.log.greeted → c.Begun ∨ Done cfg c.log
  spoken : Spoken cfg c.log

/-! ### The log -/

theorem written_cons {r : Record} (hdial : r.event.isTransportConnect = false) (log : Log) :
    Log.written (r :: log) = log.written ++ r.event.writtenBytes := by
  rw [Log.written, Trace.gather_cons, hdial]
  rfl

theorem greeting_cons {r : Record} (hdial : r.event.isTransportConnect = false) (log : Log) :
    Log.greeting (r :: log) = log.greeting := by
  rw [Log.greeting, hdial]
  rfl

theorem connectArgs_cons {r : Record} (hconnect : r.event.isConnect = false) (log : Log) :
    Log.connectArgs (r :: log) = log.connectArgs := by
  rw [Log.connectArgs]
  split
  · rename_i heq
    rw [heq] at hconnect
    cases hconnect
  · rfl

theorem answered_cons {r : Record} (hdial : r.event.isTransportConnect = false)
    (hcallback : r.event.isOnConnect = false) (log : Log) : Log.answered (r :: log) = log.answered := by
  rw [Log.answered, Trace.since_cons, hdial, hcallback]
  rfl

theorem greeted_cons {r : Record} (hconnect : r.event.isConnect = false)
    (hcallback : r.event.isOnConnect = false) (log : Log) : Log.greeted (r :: log) = log.greeted := by
  rw [Log.greeted, Trace.since_cons, hconnect, hcallback]
  rfl

theorem greets_of_some {r : Record} {earlier : Log} {args : Packet.ConnectArgs}
    (hgreeting : Log.greeting (r :: earlier) = some args)
    (hearly : Log.answered (r :: earlier) = false → Log.written (r :: earlier) <+: connectBytes cfg args)
    (heither : Log.written (r :: earlier) <+: connectBytes cfg args ∨
      connectBytes cfg args <+: Log.written (r :: earlier))
    (hwriting : r.isWriting → connectBytes cfg args <+: earlier.written ∨
      r.outbox.getCurrent.any (·.packet.data = connectBytes cfg args)) : r.greets cfg earlier := by
  rw [Record.greets, hgreeting]
  exact decide_eq_true ⟨hearly, heither, hwriting⟩

/-- Where nothing is written, what was true of the log stays true. -/
theorem Spoken.cons {log : Log} {r : Record} (hgreeted : Log.greeted (r :: log) → Log.answered (r :: log))
    (hwrite : r.event.isWrite = false) (hlog : Spoken cfg log)
    (hearly : ∀ args, Log.greeting (r :: log) = some args → Log.answered (r :: log) = false →
      Log.written (r :: log) <+: connectBytes cfg args)
    (heither : ∀ args, Log.greeting (r :: log) = some args → Log.written (r :: log) <+: connectBytes cfg args ∨
      connectBytes cfg args <+: Log.written (r :: log)) : Spoken cfg (r :: log) := by
  have hwriting := isWriting_of_event hwrite
  refine ⟨hearly, heither, hgreeted, ?_, hlog.greets⟩
  cases hgreeting : Log.greeting (r :: log) with
  | none =>
    show r.greets cfg log
    rw [Record.greets, hgreeting, hwriting]
    rfl
  | some args =>
    refine greets_of_some hgreeting (hearly args hgreeting) (heither args hgreeting) fun h => ?_
    rw [hwriting] at h
    cases h

/-- Something was noted that is neither a write nor a new connection. -/
theorem Spoken.noted {log : Log} {r : Record} (hlog : Spoken cfg log)
    (hdial : r.event.isTransportConnect = false) (hwrite : r.event.isWrite = false)
    (hgreeted : Log.greeted (r :: log) → Log.answered (r :: log)) : Spoken cfg (r :: log) := by
  have hwritten := written_cons hdial log
  rw [writtenBytes_of_event hwrite, List.append_nil] at hwritten
  apply hlog.cons hgreeted hwrite
  · rw [hwritten, greeting_cons hdial]
    intro args hgreeting hanswered
    rw [Log.answered, Trace.since_cons, hdial, Bool.or_eq_false_iff] at hanswered
    exact hlog.early args hgreeting hanswered.2
  · rw [hwritten, greeting_cons hdial]
    exact hlog.either

/-- What a plain event leaves alone. -/
theorem isPlain_iff {event : Event} : event.isPlain ↔ event.isConnect = false ∧
    event.isTransportConnect = false ∧ event.isWrite = false ∧ event.isOnConnect = false := by
  simp only [Event.isPlain, Bool.not_eq_true', Bool.or_eq_false_iff, and_assoc]

theorem Grows.plain {c c' : MqttClient cfg} (h : Grows Event.isPlain c c') :
    c'.log.written = c.log.written ∧ c'.log.greeting = c.log.greeting ∧
      c'.log.connectArgs = c.log.connectArgs ∧ c'.log.greeted = c.log.greeted := by
  obtain ⟨new, hnew, hplain⟩ := h
  rw [hnew]
  clear hnew
  induction new with
  | nil => exact ⟨rfl, rfl, rfl, rfl⟩
  | cons r new ih =>
    rw [List.forall_mem_cons] at hplain
    obtain ⟨h1, h2, h3, h4⟩ := ih hplain.2
    obtain ⟨hconnect, hdial, hwrite, hcallback⟩ := isPlain_iff.mp hplain.1
    rw [List.cons_append, written_cons hdial, greeting_cons hdial, connectArgs_cons hconnect,
      greeted_cons hconnect hcallback, writtenBytes_of_event hwrite, List.append_nil]
    exact ⟨h1, h2, h3, h4⟩

theorem Spoken.plain {c c' : MqttClient cfg} (hc : Spoken cfg c.log) (h : Grows Event.isPlain c c') :
    Spoken cfg c'.log := by
  obtain ⟨new, hnew, hplain⟩ := h
  rw [hnew]
  clear hnew
  induction new with
  | nil => exact hc
  | cons r new ih =>
    rw [List.forall_mem_cons] at hplain
    have hlog := ih hplain.2
    obtain ⟨hconnect, hdial, hwrite, hcallback⟩ := isPlain_iff.mp hplain.1
    apply hlog.noted hdial hwrite
    rw [greeted_cons hconnect hcallback, answered_cons hdial hcallback]
    exact hlog.answered

/-- The transport accepted something. -/
theorem Spoken.write {log : Log} {r : Record} (hlog : Spoken cfg log) (hr : r.event.isWrite)
    {args : Packet.ConnectArgs} (hgreeting : log.greeting = some args)
    (h : log.written ++ r.event.writtenBytes <+: connectBytes cfg args ∧
        r.outbox.getCurrent.any (·.packet.data = connectBytes cfg args) ∨
      connectBytes cfg args <+: log.written ∧ log.answered) : Spoken cfg (r :: log) := by
  have hevent : r.event.isTransportConnect = false ∧ r.event.isConnect = false ∧
      r.event.isOnConnect = false := by
    cases hevent : r.event <;> rw [hevent] at hr <;> first | exact ⟨rfl, rfl, rfl⟩ | cases hr
  obtain ⟨hdial, hconnect, hcallback⟩ := hevent
  have hanswered := answered_cons hdial hcallback log
  have hwritten := written_cons hdial log
  have hsame := greeting_cons hdial log
  have hearly : Log.answered (r :: log) = false → Log.written (r :: log) <+: connectBytes cfg args := by
    rw [hanswered, hwritten]
    rcases h with ⟨h, -⟩ | ⟨-, h⟩
    · exact fun _ => h
    · intro hunanswered
      rw [h] at hunanswered
      cases hunanswered
  have heither : Log.written (r :: log) <+: connectBytes cfg args ∨
      connectBytes cfg args <+: Log.written (r :: log) := by
    rw [hwritten]
    rcases h with ⟨h, -⟩ | ⟨h, -⟩
    · exact .inl h
    · exact .inr (h.trans (List.prefix_append _ _))
  have hargs : ∀ args', Log.greeting (r :: log) = some args' → args = args' := by
    rw [hsame, hgreeting]
    exact fun args' h => Option.some.inj h
  refine ⟨fun args' h' => ?_, fun args' h' => ?_, ?_, greets_of_some (hsame.trans hgreeting) hearly heither ?_,
    hlog.greets⟩
  · rw [← hargs args' h']
    exact hearly
  · rw [← hargs args' h']
    exact heither
  · rw [greeted_cons hconnect hcallback, hanswered]
    exact hlog.answered
  · intro _
    rcases h with ⟨-, h⟩ | ⟨h, -⟩
    · exact .inr h
    · exact .inl h

/-! ### Sending -/

theorem Front.buffered {c : MqttClient cfg} {args : Packet.ConnectArgs} {item : OutgoingPacket}
    {rest : List OutgoingPacket} (h : c.Front args item rest) :
    item.packet.getPayload = none ∧ item.packet.data = connectBytes cfg args ∧
      item.packet.size = (connectBytes cfg args).length ∧ item.packet.packetId = 0 ∧
      item.packet.Bounded cfg := by
  obtain ⟨alloc, hbuilt⟩ := h.built
  obtain ⟨hformed, hid, hnone, -, -⟩ := Packet.connect_built hbuilt
  have hdata := Packet.data_connect hbuilt
  exact ⟨hnone, hdata, hdata ▸ hformed.buffered hnone, hid, Packet.connect_bounded hbuilt⟩

/-- The next bytes of the CONNECT are written. -/
theorem Begun.sendPacket {c : MqttClient cfg} (hwrite : ∀ tick size, 0 ≤ env.write tick size) (hc : c.Begun)
    (hs : Spoken cfg c.log) : (c.sendPacket env).2.Begun ∧ Spoken cfg (c.sendPacket env).2.log := by
  obtain ⟨args, item, rest, hfront, hgreeting, hwritten, hle⟩ := hc
  obtain ⟨hnone, hdata, hsize, -, hbounded⟩ := hfront.buffered
  have hpending : c.outbox.pending = item :: rest := by rw [hfront.outbox]
  have hpassed : c.outbox.passed = [] := by rw [hfront.outbox]
  rcases sendPacket_buffered env hpending hnone with ⟨-, h⟩ | ⟨hlt, timeSent, activity, h⟩ <;> rw [h]
  · refine ⟨⟨args, item, rest, ⟨?_, hfront.built⟩, hgreeting, hwritten, hle⟩, hs⟩
    show CursorList.mk c.outbox.passed (item :: rest) = _
    rw [hpassed]
  · have hresult := hwrite (c.tick + 1) (item.packet.size - c.bytesSent)
    have hresult' := env.write_le (c.tick + 1) (item.packet.size - c.bytesSent)
    generalize env.write (c.tick + 1) (item.packet.size - c.bytesSent) = result at hresult hresult' ⊢
    have hmod := hbounded.size
    have hbytes : (c.wrote item rest result timeSent activity).bytesSent = c.bytesSent + result.toNat := by
      show cfg.wrap (c.bytesSent + (result % cfg.sizeMod).toNat) = _
      rw [toNat_emod_sizeMod (by omega) (by omega), cfg.wrap_of_lt (by omega)]
    have htaken : item.packet.dataAt c.bytesSent = (connectBytes cfg args).drop c.bytesSent := by
      rw [Packet.dataAt, hnone, hdata]
    have hmore : c.log.written ++ (c.written item rest result).event.writtenBytes =
        (connectBytes cfg args).take (c.bytesSent + result.toNat) := by
      show c.log.written ++ (item.packet.dataAt c.bytesSent).take result.toNat = _
      rw [htaken, hwritten, List.take_add]
    refine ⟨⟨args, { item with timeSent }, rest, ⟨?_, hfront.built⟩, ?_, ?_, ?_⟩, ?_⟩
    · show CursorList.mk c.outbox.passed _ = _
      rw [hpassed]
    · rw [log_wrote, greeting_cons rfl]
      exact hgreeting
    · rw [log_wrote, written_cons rfl, hbytes, hmore]
    · show (c.wrote item rest result timeSent activity).bytesSent ≤ item.packet.size
      omega
    · rw [log_wrote]
      refine hs.write rfl hgreeting (.inl ⟨?_, ?_⟩)
      · rw [hmore]
        exact List.take_prefix _ _
      · show (some item).any (·.packet.data = connectBytes cfg args)
        simpa using hdata

/-- What is written behind the CONNECT. -/
theorem Done.sendPacket {c : MqttClient cfg} (env : Env cfg) (hc : Done cfg c.log) (hanswered : c.log.answered)
    (hs : Spoken cfg c.log) : Done cfg (c.sendPacket env).2.log ∧ Spoken cfg (c.sendPacket env).2.log := by
  obtain ⟨args, hgreeting, hprefixed⟩ := hc
  rcases sendPacket_cases env c with ⟨-, h⟩ | ⟨item, rest, available, packet, -, -, h⟩
  · rw [h]
    exact ⟨⟨args, hgreeting, hprefixed⟩, hs⟩
  rcases h with ⟨-, h⟩ | ⟨-, timeSent, activity, h⟩ <;> rw [h]
  · exact ⟨⟨args, hgreeting, hprefixed⟩, hs⟩
  · dsimp only
    rw [log_wrote]
    refine ⟨⟨args, (greeting_cons rfl _).trans hgreeting, ?_⟩,
      hs.write rfl hgreeting (.inr ⟨hprefixed, hanswered⟩)⟩
    rw [written_cons rfl]
    exact hprefixed.trans (List.prefix_append _ _)

/-- When the cursor leaves the CONNECT that was written. -/
theorem Begun.done {c : MqttClient cfg} (hc : c.Begun) {item : OutgoingPacket}
    (hcurrent : c.outbox.getCurrent = some item) (hsize : c.bytesSent = item.packet.size) : Done cfg c.log := by
  obtain ⟨args, item', rest, hfront, hgreeting, hwritten, -⟩ := hc
  obtain rfl : item' = item := by
    rw [hfront.outbox] at hcurrent
    exact Option.some.inj hcurrent
  obtain ⟨-, -, hlength, -, -⟩ := hfront.buffered
  refine ⟨args, hgreeting, ?_⟩
  rw [hsize, hlength, List.take_length] at hwritten
  exact hwritten ▸ List.prefix_rfl

theorem Done.plain {c c' : MqttClient cfg} (hc : Done cfg c.log) (h : Grows Event.isPlain c c') :
    Done cfg c'.log := by
  obtain ⟨args, hgreeting, hprefixed⟩ := hc
  obtain ⟨hwritten, hsame, -, -⟩ := h.plain
  exact ⟨args, hsame.trans hgreeting, hwritten ▸ hprefixed⟩

/-- The cursor may leave a packet. -/
theorem advanceOutbox_going {c : MqttClient cfg} (h : c.Begun ∨ Done cfg c.log) :
    c.advanceOutbox.2.Begun ∨ Done cfg c.advanceOutbox.2.log := by
  have hgrows : Grows Event.isPlain c c.advanceOutbox.2 := grows_advanceOutbox c (fun _ => rfl) rfl
  rcases h with hbegun | hdone
  · rcases advanceOutbox_cases c with ⟨hsame, -⟩ | ⟨item, hcurrent, hsize, -⟩
    · rw [hsame]
      exact .inl hbegun
    · exact .inr ((hbegun.done hcurrent hsize).plain hgrows)
  · exact .inr (hdone.plain hgrows)

theorem sendRound_going {c : MqttClient cfg} (hwrite : ∀ tick size, 0 ≤ env.write tick size)
    (h : c.Begun ∨ Done cfg c.log) (hanswered : c.log.answered) (hs : Spoken cfg c.log) :
    ((c.sendRound env).Begun ∨ Done cfg (c.sendRound env).log) ∧ Spoken cfg (c.sendRound env).log := by
  have hsend : ((c.sendPacket env).2.Begun ∨ Done cfg (c.sendPacket env).2.log) ∧
      Spoken cfg (c.sendPacket env).2.log := by
    rcases h with hbegun | hdone
    · exact ⟨.inl (hbegun.sendPacket hwrite hs).1, (hbegun.sendPacket hwrite hs).2⟩
    · exact ⟨.inr (hdone.sendPacket env hanswered hs).1, (hdone.sendPacket env hanswered hs).2⟩
  rw [sendRound]
  split_ifs
  · exact ⟨advanceOutbox_going hsend.1, hsend.2.plain (grows_advanceOutbox _ (fun _ => rfl) rfl)⟩
  · exact hsend

/-! ### Clearing -/

/-- The CONNECT is not cleared away before it is written. -/
theorem clearQueue_going {c : MqttClient cfg} (clearData : ℕ) (h : c.Begun ∨ Done cfg c.log)
    (hstate : c.state ≠ .disconnectingTcp2) {r : Record} (hlog : (c.clearQueue clearData).log = r :: c.log)
    (hsparing : r.isSparing) :
    (c.clearQueue clearData).Begun ∨ Done cfg (c.clearQueue clearData).log := by
  have hgrows : Grows Event.isPlain c (c.clearQueue clearData) := grows_of_cons rfl rfl
  rcases h with hbegun | hdone
  · obtain rfl := (List.cons.inj hlog).1
    have hspared := (of_decide_eq_true hsparing).resolve_left hstate
    obtain ⟨args, item, rest, hfront, hgreeting, -, -⟩ := hbegun
    obtain ⟨alloc, hbuilt⟩ := hfront.built
    obtain ⟨-, hdata, -, hid, -⟩ := hfront.buffered
    have hcurrent : c.outbox.getCurrent = some item := by
      rw [hfront.outbox]
      rfl
    have hnil : connectBytes cfg args = [] := by
      rcases Packet.connect_type hbuilt with hnil | htype
      · rw [← hdata, hnil]
      · refine absurd ?_ hspared.2
        show c.outbox.getCurrent.any _
        rw [hcurrent]
        simp [OutgoingPacket.isType, htype, hid]
    have hdone : Done cfg c.log := ⟨args, hgreeting, by rw [hnil]; exact List.nil_prefix⟩
    exact .inr (hdone.plain hgrows)
  · exact .inr (hdone.plain hgrows)

/-! ### Runs -/

/-- The front of the queue stays as it is. -/
def KeepsFront (c c' : MqttClient cfg) : Prop :=
  ∀ args item rest, c.Front args item rest → ∃ rest', c'.Front args item rest'

theorem keepsFront_of_outbox {c c' : MqttClient cfg} (h : c'.outbox = c.outbox) : KeepsFront c c' :=
  fun _ _ rest hfront => ⟨rest, by rw [h, hfront.outbox], hfront.built⟩

theorem keepsFront_push (c : MqttClient cfg) (packet : Packet) : KeepsFront c (c.push packet).asked := by
  intro args item rest hfront
  refine ⟨rest ++ [⟨0, packet, c.tick⟩], ?_, hfront.built⟩
  show c.outbox.emplace _ = _
  rw [hfront.outbox]
  rfl

/-- A packet with a packet id is not the CONNECT. -/
theorem keepsFront_remove {c : MqttClient cfg} {it : ℕ} {item : OutgoingPacket}
    (hitem : c.outbox.items[it]? = some item) (hid : item.packet.packetId ≠ 0) : KeepsFront c (c.remove it) := by
  intro args front rest hfront
  obtain ⟨-, -, -, hzero, -⟩ := hfront.buffered
  cases it with
  | zero =>
    rw [hfront.outbox] at hitem
    obtain rfl := Option.some.inj hitem
    exact absurd hzero hid
  | succ it =>
    refine ⟨rest.eraseIdx it, ?_, hfront.built⟩
    show c.outbox.remove (it + 1) = _
    rw [hfront.outbox]
    rfl

theorem Begun.keep {c c' : MqttClient cfg} (hc : c.Begun) (hfront : KeepsFront c c')
    (hgrows : Grows Event.isPlain c c') (hbytes : c'.bytesSent = c.bytesSent) : c'.Begun := by
  obtain ⟨args, item, rest, hbegun, hgreeting, hwritten, hle⟩ := hc
  obtain ⟨rest', hfront⟩ := hfront args item rest hbegun
  obtain ⟨hsame, hsame', -, -⟩ := hgrows.plain
  exact ⟨args, item, rest', hfront, hsame'.trans hgreeting, by rw [hsame, hbytes, hwritten], hbytes ▸ hle⟩

/-- Neither the front of the queue nor what was written of it changed. -/
theorem Greeting.keep {c c' : MqttClient cfg} (hc : c.Greeting) (hunheard : c'.Unheard) (hidle : c'.Idle)
    (hfront : KeepsFront c c') (hgrows : Grows Event.isPlain c c') (hbytes : c'.bytesSent = c.bytesSent)
    (hdialling : c'.state = .connectingTcp1 → c.state = .connectingTcp1)
    (hbegun : c'.state = .connectingTcp2 ∨ c'.state = .connectingMqtt →
      c.state = .connectingTcp2 ∨ c.state = .connectingMqtt)
    (hgoing : c'.state.isOnline → c.log.greeted → c.state.isOnline) : c'.Greeting where
  unheard := hunheard
  idle := hidle
  dialling hstate := by
    obtain ⟨args, item, rest, hdial, hargs, hzero⟩ := hc.dialling (hdialling hstate)
    obtain ⟨rest', hfront⟩ := hfront args item rest hdial
    exact ⟨args, item, rest', hfront, hgrows.plain.2.2.1.trans hargs, hbytes.trans hzero⟩
  begun hstate := (hc.begun (hbegun hstate)).keep hfront hgrows hbytes
  going hstate hgreeted := by
    rw [hgrows.plain.2.2.2] at hgreeted
    rcases hc.going (hgoing hstate hgreeted) hgreeted with h | h
    · exact .inl (h.keep hfront hgrows hbytes)
    · exact .inr (h.plain hgrows)
  spoken := hc.spoken.plain hgrows

theorem isPlain_of_isMute {event : Event} (h : event.isMute) : event.isPlain := by
  cases event <;> first | rfl | cases h

theorem Requested.isPlain {c : MqttClient cfg} {packet : Packet} {event : Event}
    (h : c.Requested packet event) : event.isPlain := by
  cases h <;> rfl

/-- The transport is told to connect. -/
theorem Greeting.transportConnect {c : MqttClient cfg} (hc : c.Greeting) (success : Bool)
    (hstate : c.state = .connectingTcp1) (hunheard : (c.note (.transportConnect success)).Unheard) :
    (c.note (.transportConnect success)).Greeting := by
  have hnot : ∀ state : State, state ≠ .connectingTcp1 → (c.note (.transportConnect success)).state ≠ state := by
    rintro state hne rfl
    exact hne hstate
  refine ⟨hunheard, hc.idle, fun _ => ?_, fun h => ?_, fun h => ?_, ?_⟩
  · obtain ⟨args, item, rest, hfront, hargs, hzero⟩ := hc.dialling hstate
    exact ⟨args, item, rest, ⟨hfront.outbox, hfront.built⟩, hargs, hzero⟩
  · rcases h with h | h
    · exact absurd h (hnot _ nofun)
    · exact absurd h (hnot _ nofun)
  · rw [show (c.note (.transportConnect success)).state = c.state from rfl, hstate] at h
    cases h
  · have hgreeted := hunheard (by rw [show (c.note _).state = c.state from rfl, hstate]; rfl)
    refine hc.spoken.cons (fun h => ?_) rfl (fun _ _ _ => List.nil_prefix) (fun _ _ => .inl List.nil_prefix)
    have hgreeted : Log.greeted (_ :: c.log) = false := hgreeted
    rw [hgreeted] at h
    cases h

/-- The client goes from `connectingTcp1` to `connectingTcp2`. -/
theorem Greeting.dial {c : MqttClient cfg} (hc : c.Greeting) (hstate : c.state = .connectingTcp1)
    (hdialling : c.log.dialling) : (c.setState .connectingTcp2).Begun := by
  obtain ⟨args, item, rest, hfront, hargs, hzero⟩ := hc.dialling hstate
  have hgrows : Grows Event.isPlain c (c.setState .connectingTcp2) := grows_of_cons rfl rfl
  obtain ⟨hwritten, hgreeting, -, -⟩ := hgrows.plain
  have hnow : c.log.greeting = some args ∧ c.log.written = [] := by
    cases hlog : c.log with
    | nil =>
      rw [hlog] at hargs
      cases hargs
    | cons r log =>
      rw [hlog] at hargs hdialling
      have hdial : r.event.isTransportConnect := hdialling
      have hconnect : r.event.isConnect = false := by
        cases hevent : r.event <;> rw [hevent] at hdial <;> first | rfl | cases hdial
      rw [connectArgs_cons hconnect] at hargs
      rw [Log.greeting, if_pos hdial, Log.written, Trace.gather_cons, if_pos hdial]
      exact ⟨hargs, rfl⟩
  refine ⟨args, item, rest, ⟨hfront.outbox, hfront.built⟩, hgreeting.trans hnow.1, ?_, ?_⟩
  · rw [hwritten, hnow.2, show (c.setState .connectingTcp2).bytesSent = c.bytesSent from rfl, hzero,
      List.take_zero]
  · show c.bytesSent ≤ _
    omega

theorem leads_online {state next : State} (h : leads state next) (hnext : next.isOnline) :
    state.isOnline ∨ isConnecting state := by
  cases state <;> first | exact .inl rfl | exact .inr rfl | (cases next <;> cases h)

theorem leads_of_isConnecting {state next : State} (h : leads state next) (hnext : isConnecting next) :
    state = .connectingTcp1 ∧ next = .connectingTcp2 ∨ state = .connectingTcp2 ∧ next = .connectingMqtt := by
  cases next <;> first
    | (cases hnext; done)
    | (cases state <;> first | exact .inl ⟨rfl, rfl⟩ | exact .inr ⟨rfl, rfl⟩ | cases h)

theorem Greeting.move {c : MqttClient cfg} (hc : c.Greeting) {next : State} (hleads : leads c.state next)
    (hdialling : next = .connectingTcp2 → c.log.dialling) (hunheard : (c.setState next).Unheard)
    (hidle : (c.setState next).Idle) : (c.setState next).Greeting := by
  have hgrows : Grows Event.isPlain c (c.setState next) := grows_of_cons rfl rfl
  have hgoing : (c.setState next).state.isOnline → c.log.greeted → c.state.isOnline := by
    intro hnext hgreeted
    refine (leads_online hleads hnext).resolve_right fun hconnecting => ?_
    rw [hc.unheard hconnecting] at hgreeted
    cases hgreeted
  by_cases hconnecting : isConnecting next
  · rcases leads_of_isConnecting hleads hconnecting with ⟨hstate, rfl⟩ | ⟨hstate, rfl⟩
    · exact ⟨hunheard, hidle, nofun, fun _ => hc.dial hstate (hdialling rfl), nofun, hc.spoken.plain hgrows⟩
    · exact hc.keep hunheard hidle (keepsFront_of_outbox rfl) hgrows rfl nofun (fun _ => .inl hstate) hgoing
  · refine hc.keep hunheard hidle (keepsFront_of_outbox rfl) hgrows rfl (fun hnext => ?_)
      (fun hnext => ?_) hgoing
    · obtain rfl : next = .connectingTcp1 := hnext
      exact absurd rfl hconnecting
    · have hnext : next = .connectingTcp2 ∨ next = .connectingMqtt := hnext
      rcases hnext with rfl | rfl
      · exact absurd rfl hconnecting
      · exact absurd rfl hconnecting

theorem Greeting.connect {c : MqttClient cfg} (hc : c.Greeting) {args : Packet.ConnectArgs} {packet : Packet}
    (hstate : c.state = .disconnected)
    (hpacket : Builds (fun alloc => Packet.connect cfg alloc args) packet) :
    (({ c with outbox := c.outbox.emplaceFront ⟨0, packet, c.tick⟩ }.asked.note
        (.connect args)).setState .connectingTcp1).Greeting := by
  refine ⟨fun _ => rfl, nofun, fun _ => ?_, nofun, nofun, ?_⟩
  · exact ⟨args, ⟨0, packet, c.tick⟩, c.outbox.items, ⟨rfl, hpacket⟩, rfl, hc.idle hstate⟩
  · have hcalled : Spoken cfg ({ c with outbox := c.outbox.emplaceFront ⟨0, packet, c.tick⟩ }.asked.note
        (.connect args)).log := hc.spoken.noted rfl rfl nofun
    exact hcalled.plain (grows_of_cons rfl rfl)

/-- A CONNACK is accepted. -/
theorem Greeting.accept {c : MqttClient cfg} (hc : c.Greeting) (hwait : cfg.waitForConnack)
    (hstate : c.state.isOnline) (hheard : c.Heard) (hunheard : c.accept.Unheard) (hidle : c.accept.Idle)
    (hsparing : Trace.Always (fun r _ => r.isSparing) c.accept.log) : c.accept.Greeting := by
  have hgoing : c.Begun ∨ Done cfg c.log := by
    rcases hheard hwait with hmqtt | hgreeted
    · exact .inl (hc.begun (.inr hmqtt))
    · exact hc.going hstate hgreeted
  have hconnected : c.connectedNow.Begun ∨ Done cfg c.connectedNow.log := by
    have hgrows : Grows Event.isPlain c c.connectedNow := grows_of_cons rfl rfl
    rcases hgoing with h | h
    · exact .inl (h.keep (keepsFront_of_outbox rfl) hgrows rfl)
    · exact .inr (h.plain hgrows)
  have hadvanced := advanceOutbox_going hconnected
  have hadmitted : c.admitted.Begun ∨ Done cfg c.admitted.log := by
    have hsparing : Trace.Always (fun r _ => r.isSparing) c.admitted.log := hsparing.2
    rw [admitted] at hsparing ⊢
    split_ifs at hsparing ⊢
    · refine clearQueue_going 1 hadvanced ?_ rfl hsparing.1
      rcases state_advanceOutbox c.connectedNow with h | h <;> rw [h] <;> exact State.noConfusion
    · exact hadvanced
  have hgrows : Grows Event.isPlain c c.admitted := grows_admitted c (fun _ => rfl) (fun _ => rfl) rfl
  have hspoken := hc.spoken.plain hgrows
  have hnot : isConnecting c.admitted.state = false := by
    rcases state_admitted c with h | h <;> rw [h] <;> rfl
  have hnotState : ∀ state : State, isConnecting state → c.admitted.state ≠ state := by
    rintro state h rfl
    rw [hnot] at h
    cases h
  refine ⟨hunheard, hidle, fun h => absurd h (hnotState _ rfl), fun h => ?_, fun _ _ => ?_, ?_⟩
  · rcases h with h | h
    · exact absurd h (hnotState _ rfl)
    · exact absurd h (hnotState _ rfl)
  · rcases hadmitted with ⟨args, item, rest, hfront, hgreeting, hwritten, hle⟩ | ⟨args, hgreeting, hprefixed⟩
    · refine .inl ⟨args, item, rest, ⟨hfront.outbox, hfront.built⟩, (greeting_cons rfl _).trans hgreeting,
        ?_, hle⟩
      exact (written_cons rfl _).trans ((List.append_nil _).trans hwritten)
    · refine .inr ⟨args, (greeting_cons rfl _).trans hgreeting, ?_⟩
      rw [MqttClient.accept, note, written_cons rfl]
      exact hprefixed.trans (List.prefix_append _ _)
  · exact hspoken.noted rfl rfl fun _ => rfl

theorem Flow.greeting {c c' : MqttClient cfg} (hwait : cfg.waitForConnack)
    (hwrite : ∀ tick size, 0 ≤ env.write tick size) (h : Flow env c c')
    (hsparing : Trace.Always (fun r _ => r.isSparing) c'.log) (hc : c.Greeting) : c'.Greeting := by
  have hunheard := h.unheard hc.unheard
  have hidle := h.idle hc.idle
  cases h with
  | keep h =>
    exact hc.keep hunheard hidle (keepsFront_of_outbox h.outbox) (grows_of_log h.log) h.bytesSent (h.state ▸ id)
      (h.state ▸ id) fun hstate _ => h.state ▸ hstate
  | note event hmute =>
    exact hc.keep hunheard hidle (keepsFront_of_outbox rfl)
      (grows_of_cons rfl (isPlain_of_isMute hmute)) rfl id id
      fun hstate _ => hstate
  | transportConnect success hstate => exact hc.transportConnect success hstate hunheard
  | move next hleads hdialling => exact hc.move hleads hdialling hunheard hidle
  | connect hstate hpacket => exact hc.connect hstate hpacket
  | rewind h =>
    -- the CONNECT is at the front already
    refine hc.keep hunheard hidle (fun args item rest hfront => ⟨rest, ?_, hfront.built⟩)
      (grows_of_log rfl) rfl id id
      fun hstate _ => hstate
    show c.outbox.resetCurrent = _
    rw [hfront.outbox]
    rfl
  | @request packet event h =>
    have hgrows : Grows Event.isPlain c ((c.push packet).asked.note event) := grows_of_cons rfl h.isPlain
    refine hc.keep hunheard hidle (fun args item rest hfront => ?_) hgrows rfl id id fun hstate _ => hstate
    obtain ⟨rest', hfront⟩ := keepsFront_push c packet args item rest hfront
    exact ⟨rest', hfront.outbox, hfront.built⟩
  | answer =>
    exact hc.keep hunheard hidle (keepsFront_push c _) (grows_of_log rfl) rfl id id fun hstate _ => hstate
  | @addDisconnect packet hstate =>
    have hgrows : Grows Event.isPlain c ((c.push packet).asked.setState .disconnectingMqtt2) :=
      grows_of_cons rfl rfl
    refine hc.keep hunheard hidle (fun args item rest hfront => ?_) hgrows rfl nofun nofun fun _ _ => ?_
    · obtain ⟨rest', hfront⟩ := keepsFront_push c packet args item rest hfront
      exact ⟨rest', hfront.outbox, hfront.built⟩
    · rw [hstate]
      rfl
  | remove _ hitem hid =>
    exact hc.keep hunheard hidle (keepsFront_remove hitem hid) (grows_of_cons rfl rfl) rfl id id
      fun hstate _ => hstate
  | clearQueue deleteSessionData =>
    -- by assumption nothing is cleared while the CONNECT waits
    have hspared := of_decide_eq_true hsparing.1
    have hnot : ∀ state : State, isConnecting state → c.state ≠ state := by
      rintro state hconnecting rfl
      rcases hspared with h | h
      · have hstate : c.state = .disconnectingTcp2 := h
        rw [hstate] at hconnecting
        cases hconnecting
      · exact h.1 hconnecting
    refine ⟨hunheard, hidle, fun h => absurd h (hnot _ rfl), fun h => ?_, fun hstate hgreeted => ?_,
      hc.spoken.plain (grows_of_cons rfl rfl)⟩
    · rcases h with h | h
      · exact absurd h (hnot _ rfl)
      · exact absurd h (hnot _ rfl)
    · refine clearQueue_going _ (hc.going hstate hgreeted) ?_ rfl hsparing.1
      rintro htcp2
      have hstate : c.state.isOnline := hstate
      rw [htcp2] at hstate
      cases hstate
  | sendConnect hstate =>
    obtain ⟨hbegun, hspoken⟩ := (hc.begun (.inr hstate)).sendPacket hwrite hc.spoken
    refine ⟨hunheard, hidle, fun h => ?_, fun _ => hbegun, fun _ _ => .inl hbegun, hspoken⟩
    rw [state_sendPacket, hstate] at h
    cases h
  | sendRound hsends =>
    -- what goes out here is behind the CONNACK, and so behind the CONNECT
    have hgreeted := hsends.1.2 hwait
    obtain ⟨hgoing, hspoken⟩ := sendRound_going hwrite (hc.going hsends.1.1 hgreeted)
      (hc.spoken.answered hgreeted) hc.spoken
    have hnot : ∀ state : State, isConnecting state → (c.sendRound env).state ≠ state := by
      rintro state hconnecting rfl
      rcases state_sendRound env c with h | h <;> rw [h] at hconnecting
      · rw [hc.unheard.not_connecting hwait hsends.1] at hconnecting
        cases hconnecting
      · cases hconnecting
    refine ⟨hunheard, hidle, fun h => absurd h (hnot _ rfl), fun h => ?_, fun _ _ => hgoing, hspoken⟩
    rcases h with h | h
    · exact absurd h (hnot _ rfl)
    · exact absurd h (hnot _ rfl)
  | accept hstate hheard => exact hc.accept hwait hstate hheard hunheard hidle hsparing
  | close =>
    have hgrows : Grows Event.isPlain c c.close := ⟨[_, _, _], rfl, by simp [Event.isPlain, Event.isConnect,
      Event.isTransportConnect, Event.isWrite, Event.isOnConnect]⟩
    exact ⟨hunheard, hidle, nofun, nofun, nofun, hc.spoken.plain hgrows⟩

/-- **CONNECT comes first**, in every run in which the queue is not cleared before the CONNECT is written and
the CONNACK accepted. -/
theorem run_greets (env : Env cfg) (hwait : cfg.waitForConnack) (hwrite : ∀ tick size, 0 ≤ env.write tick size)
    (generatedClientId : CString) (actions : List Action)
    (h : Trace.Always (fun r _ => r.isSparing) ((new cfg generatedClientId).run env actions).log) :
    Trace.Always (fun r earlier => r.greets cfg earlier) ((new cfg generatedClientId).run env actions).log := by
  have hnew : (new cfg generatedClientId).Greeting :=
    ⟨nofun, fun _ => rfl, nofun, nofun, nofun, nofun, nofun, nofun, trivial⟩
  have hgreeting : ((new cfg generatedClientId).run env actions).Greeting :=
    run_flow_always env (fun r _ => r.isSparing) Greeting generatedClientId hnew
      (fun h => h.greeting hwait hwrite) actions h
  exact hgreeting.spoken.greets

/-- A server that accepts the connection while a message waits behind the CONNECT. -/
def patientScript : Script where
  read := [(10, [0x20, 2, 1, 0])]

theorem run_greets_patient : Trace.Always (fun r earlier => r.greets .linux earlier)
    (patientScript.run [.call .connect, .call (.publish ⟨[0x61], by decide⟩ 1 false [1, 2]), .loop, .loop,
      .loop]).log := by
  apply run_greets
  · decide
  · exact Script.write_nonneg .linux patientScript
  · decide +kernel

/-- When the queue is cleared while the client connects, the message comes first. -/
theorem not_greets_cleared : ¬ Trace.Always (fun r earlier => r.greets .linux earlier)
    (patientScript.run [.call .connect, .call (.publish ⟨[0x61], by decide⟩ 1 false [1, 2]),
      .call (.clearQueue false), .loop, .loop]).log := by
  decide +kernel

end MqttClient

end EspMqttClient
