/-
  What is written in a connection, packet by packet.

  The stream of a connection falls into frames, one for each packet that was written to its end, and what was
  written of the current packet.  Every frame is a whole packet and `bytesSent` counts the rest, as long as no
  packet is taken out of the outbox after a part of it was written (`run_framed`).
-/
import EspMqttClient.MqttClient.Equiv.Once

namespace EspMqttClient

/-! ### Properties of a log -/

/-- What the transport took at once: of which packet, from which position on. -/
structure Piece where
  added : ℕ
  position : ℕ
  bytes : List Byte
deriving DecidableEq

/-- The positions of a packet that a piece holds. -/
def Piece.positions (piece : Piece) : List ℕ := List.range' piece.position piece.bytes.length

namespace Record

/-- A new connection is made or asked for. -/
def isOpening (r : Record) : Bool := r.event.isConnect || r.event.isTransportConnect

/-- Was the current packet written to its end? -/
def isSent (r : Record) : Bool :=
  match r.event with
  | .sent _ => true
  | _ => false

/-- What is written, if anything. -/
def pieces (r : Record) : List Piece :=
  match r.event with
  | .write bytes => if bytes = [] then [] else r.outbox.getCurrent.toList.map (⟨·.added, r.bytesSent, bytes⟩)
  | _ => []

end Record

namespace Log

/-- The bytes of this connection. -/
def stream : Log → List Byte := Trace.gather (·.isOpening) (·.event.writtenBytes)

/-- What was written since the last packet was written to its end. -/
def begun : Log → List Piece := Trace.gather (fun r => r.isOpening || r.isSent) (·.pieces)

/-- The packets that were written to their ends in this connection, and the pieces of each. -/
def frames : Log → List (OutgoingPacket × List Piece)
  | [] => []
  | r :: log =>
    if r.isOpening then []
    else if r.isSent then frames log ++ r.outbox.getCurrent.toList.map (·, begun log)
    else frames log

end Log

/-- The bytes of some pieces, one after the other. -/
def bytesOf (pieces : List Piece) : List Byte := pieces.flatMap (·.bytes)

/-- The pieces are the first `n` bytes of this packet, each position written once and in order. -/
structure Covers (item : OutgoingPacket) (n : ℕ) (pieces : List Piece) : Prop where
  owner : ∀ piece ∈ pieces, piece.added = item.added
  positions : pieces.flatMap (·.positions) = List.range n
  bytes : item.packet.getPayload = none → bytesOf pieces = item.packet.data.take n

instance (item : OutgoingPacket) (n : ℕ) (pieces : List Piece) : Decidable (Covers item n pieces) :=
  decidable_of_iff ((∀ piece ∈ pieces, piece.added = item.added) ∧
      pieces.flatMap (·.positions) = List.range n ∧
      (item.packet.getPayload.isNone → bytesOf pieces = item.packet.data.take n))
    ⟨fun ⟨h1, h2, h3⟩ => ⟨h1, h2, fun h => h3 (by rw [h]; rfl)⟩,
      fun h => ⟨h.owner, h.positions, fun hnone => h.bytes (Option.isNone_iff_eq_none.mp hnone)⟩⟩

/-- What was begun is the first part of the current packet, and `bytesSent` is its length. -/
def Partly (pieces : List Piece) (bytesSent : ℕ) : Option OutgoingPacket → Prop
  | some item => Covers item bytesSent pieces ∧ bytesSent ≤ item.packet.size
  | none => pieces = [] ∧ bytesSent = 0

instance (pieces : List Piece) (bytesSent : ℕ) (current : Option OutgoingPacket) :
    Decidable (Partly pieces bytesSent current) := by
  cases current <;> unfold Partly <;> infer_instance

/-- The stream is a sequence of whole packets and the first bytes of the current packet. -/
structure Framed (log : Log) (current : Option OutgoingPacket) (bytesSent : ℕ) : Prop where
  stream : log.stream = (log.frames.flatMap fun frame => bytesOf frame.2) ++ bytesOf log.begun
  whole : ∀ frame ∈ log.frames, Covers frame.1 frame.1.packet.size frame.2
  partly : Partly log.begun bytesSent current

instance (log : Log) (current : Option OutgoingPacket) (bytesSent : ℕ) :
    Decidable (Framed log current bytesSent) :=
  decidable_of_iff (log.stream = (log.frames.flatMap fun frame => bytesOf frame.2) ++ bytesOf log.begun ∧
      (∀ frame ∈ log.frames, Covers frame.1 frame.1.packet.size frame.2) ∧ Partly log.begun bytesSent current)
    ⟨fun ⟨h1, h2, h3⟩ => ⟨h1, h2, h3⟩, fun h => ⟨h.stream, h.whole, h.partly⟩⟩

namespace Record

/-- While there is a connection, its stream falls into frames. -/
def isFramed (r : Record) (earlier : Log) : Bool :=
  r.state.isOnline → Framed earlier r.outbox.getCurrent r.bytesSent

/-- The current packet stays in the outbox once a part of it was written, and what a payload callback makes
available is in the buffer and in the packet. -/
def isConsistent (r : Record) : Bool :=
  match r.event with
  | .remove position => position ≠ r.outbox.cursor ∨ r.bytesSent = 0
  | .clearQueue clearData => ¬ r.state.isOnline ∨ r.bytesSent = 0 ∨
      r.outbox.getCurrent.all (MqttClient.keeps clearData)
  | .write _ => r.outbox.getCurrent.all fun item => item.packet.getPayload.isSome →
      item.packet.payloadEndIndex + 1 - r.bytesSent ≤ (item.packet.dataAt r.bytesSent).length ∧
        item.packet.payloadEndIndex < item.packet.size
  | _ => true

end Record

/-! ### The log -/

theorem stream_cons {r : Record} (hopening : r.isOpening = false) (log : Log) :
    Log.stream (r :: log) = log.stream ++ r.event.writtenBytes := by
  rw [Log.stream, Trace.gather_cons, hopening]
  rfl

theorem begun_cons {r : Record} (hopening : r.isOpening = false) (hsent : r.isSent = false) (log : Log) :
    Log.begun (r :: log) = log.begun ++ r.pieces := by
  rw [Log.begun, Trace.gather_cons, hopening, hsent]
  rfl

theorem frames_cons {r : Record} (hopening : r.isOpening = false) (hsent : r.isSent = false) (log : Log) :
    Log.frames (r :: log) = log.frames := by
  rw [Log.frames, hopening, hsent]
  rfl

theorem pieces_of_event {r : Record} (h : r.event.isWrite = false) : r.pieces = [] := by
  rw [Record.pieces]
  split
  · rename_i heq
    rw [heq] at h
    cases h
  · rfl

/-- A connection in which nothing was written. -/
structure Blank (log : Log) : Prop where
  stream : log.stream = []
  begun : log.begun = []
  frames : log.frames = []

theorem blank_of_opening {r : Record} (h : r.isOpening) (log : Log) : Blank (r :: log) where
  stream := by rw [Log.stream, Trace.gather_cons, if_pos h]
  begun := by rw [Log.begun, Trace.gather_cons, h]; rfl
  frames := by rw [Log.frames, if_pos h]

theorem Blank.cons {log : Log} (hlog : Blank log) {r : Record} (hsent : r.isSent = false)
    (hwrite : r.event.isWrite = false) : Blank (r :: log) := by
  cases hopening : r.isOpening with
  | true => exact blank_of_opening hopening log
  | false =>
    refine ⟨?_, ?_, ?_⟩
    · rw [stream_cons hopening, hlog.stream, MqttClient.writtenBytes_of_event hwrite]
      rfl
    · rw [begun_cons hopening hsent, hlog.begun, pieces_of_event hwrite]
      rfl
    · rw [frames_cons hopening hsent, hlog.frames]

/-! ### Frames -/

theorem covers_nil (item : OutgoingPacket) : Covers item 0 [] := ⟨nofun, rfl, fun _ => rfl⟩

/-- What covers nothing is nothing. -/
theorem partly_zero_iff {pieces : List Piece} (hpieces : ∀ piece ∈ pieces, piece.bytes ≠ [])
    {current : Option OutgoingPacket} : Partly pieces 0 current ↔ pieces = [] := by
  cases current with
  | none => exact ⟨fun h => h.1, fun h => ⟨h, rfl⟩⟩
  | some item =>
    refine ⟨fun h => ?_, fun h => h ▸ ⟨covers_nil item, Nat.zero_le _⟩⟩
    have hpositions := h.1.positions
    rw [List.range_zero, List.flatMap_eq_nil_iff] at hpositions
    refine List.eq_nil_iff_forall_not_mem.mpr fun piece hmem => hpieces piece hmem ?_
    have hnil := hpositions piece hmem
    rw [Piece.positions, List.range'_eq_nil_iff, List.length_eq_zero_iff] at hnil
    exact hnil

theorem bytes_ne_of_begun (log : Log) : ∀ piece ∈ log.begun, piece.bytes ≠ [] := by
  induction log with
  | nil => nofun
  | cons r log ih =>
    rw [Log.begun, Trace.gather_cons]
    split_ifs
    · nofun
    · intro piece hmem
      rcases List.mem_append.mp hmem with hmem | hmem
      · exact ih piece hmem
      · rw [Record.pieces] at hmem
        split at hmem
        · split_ifs at hmem with hnil
          · cases hmem
          · obtain ⟨item, -, rfl⟩ := List.mem_map.mp hmem
            exact hnil
        · cases hmem

theorem Blank.framed {log : Log} (h : Blank log) (current : Option OutgoingPacket) : Framed log current 0 := by
  refine ⟨by rw [h.stream, h.frames, h.begun]; rfl, by rw [h.frames]; nofun, ?_⟩
  exact (partly_zero_iff (bytes_ne_of_begun log)).mpr h.begun

section

variable {log : Log} {current : Option OutgoingPacket} {item : OutgoingPacket} {n : ℕ}

/-- With nothing sent of the current packet another one may take its place. -/
theorem Framed.zero (h : Framed log current 0) (current' : Option OutgoingPacket) : Framed log current' 0 := by
  have hpieces := bytes_ne_of_begun log
  exact ⟨h.stream, h.whole, (partly_zero_iff hpieces).mpr ((partly_zero_iff hpieces).mp h.partly)⟩

/-- Something was noted that is neither a write nor the end of a packet. -/
theorem Framed.noted (h : Framed log current n) {r : Record} (hopening : r.isOpening = false)
    (hsent : r.isSent = false) (hwrite : r.event.isWrite = false) : Framed (r :: log) current n := by
  have hbegun : Log.begun (r :: log) = log.begun := by
    rw [begun_cons hopening hsent, pieces_of_event hwrite, List.append_nil]
  refine ⟨?_, ?_, ?_⟩
  · rw [stream_cons hopening, MqttClient.writtenBytes_of_event hwrite, List.append_nil, hbegun,
      frames_cons hopening hsent]
    exact h.stream
  · rw [frames_cons hopening hsent]
    exact h.whole
  · rw [hbegun]
    exact h.partly

/-- The current packet was read, or the time it was sent at was set. -/
theorem Framed.touched (h : Framed log (some item) n) {item' : OutgoingPacket}
    (hadded : item'.added = item.added)
    (hsize : item'.packet.size = item.packet.size) (hget : item'.packet.getPayload = item.packet.getPayload)
    (hdata : item.packet.getPayload = none → item'.packet.data = item.packet.data) :
    Framed log (some item') n := by
  refine ⟨h.stream, h.whole, ⟨?_, h.partly.1.positions, fun hnone => ?_⟩, hsize ▸ h.partly.2⟩
  · rw [hadded]
    exact h.partly.1.owner
  · rw [hget] at hnone
    rw [hdata hnone]
    exact h.partly.1.bytes hnone

/-- More of the current packet was written. -/
theorem Framed.write (h : Framed log (some item) n) {r : Record} {bytes : List Byte}
    (hevent : r.event = .write bytes) (hcurrent : r.outbox.getCurrent = some item) (hposition : r.bytesSent = n)
    (hsize : n + bytes.length ≤ item.packet.size)
    (hbytes : item.packet.getPayload = none → bytes = (item.packet.data.drop n).take bytes.length) :
    Framed (r :: log) (some item) (n + bytes.length) := by
  have hopening : r.isOpening = false := by rw [Record.isOpening, hevent]; rfl
  have hsent : r.isSent = false := by rw [Record.isSent, hevent]
  have hwritten : r.event.writtenBytes = bytes := by rw [hevent]; rfl
  have hpieces : bytesOf r.pieces = bytes ∧ r.pieces.flatMap (·.positions) = List.range' n bytes.length ∧
      ∀ piece ∈ r.pieces, piece.added = item.added := by
    rw [Record.pieces, hevent, hcurrent, hposition]
    dsimp only
    split_ifs with hnil
    · rw [hnil]
      exact ⟨rfl, rfl, nofun⟩
    · refine ⟨?_, ?_, fun piece hmem => ?_⟩
      · simp [bytesOf]
      · simp [Piece.positions]
      · rw [List.mem_singleton.mp hmem]
  obtain ⟨hbytesOf, hpositions, howner⟩ := hpieces
  refine ⟨?_, ?_, ⟨fun piece hmem => ?_, ?_, fun hnone => ?_⟩, hsize⟩
  · rw [stream_cons hopening, hwritten, frames_cons hopening hsent, begun_cons hopening hsent, h.stream, bytesOf,
      bytesOf, List.flatMap_append, List.append_assoc]
    congr 2
    exact hbytesOf.symm
  · rw [frames_cons hopening hsent]
    exact h.whole
  · rw [begun_cons hopening hsent] at hmem
    rcases List.mem_append.mp hmem with hmem | hmem
    · exact h.partly.1.owner piece hmem
    · exact howner piece hmem
  · have happend : List.range' 0 n ++ List.range' (0 + n) bytes.length = List.range' 0 (n + bytes.length) :=
      List.range'_append_1
    rw [Nat.zero_add] at happend
    rw [begun_cons hopening hsent, List.flatMap_append, h.partly.1.positions, hpositions, List.range_eq_range',
      happend, List.range_eq_range']
  · rw [begun_cons hopening hsent, bytesOf, List.flatMap_append, List.take_add]
    have hfirst := h.partly.1.bytes hnone
    rw [bytesOf] at hfirst hbytesOf
    rw [hfirst, hbytesOf, ← hbytes hnone]

/-- The current packet was written to its end. -/
theorem Framed.sent (h : Framed log (some item) n) {r : Record} (hopening : r.isOpening = false)
    (hsent : r.isSent) (hwrite : r.event.isWrite = false) (hcurrent : r.outbox.getCurrent = some item)
    (hsize : n = item.packet.size) (current' : Option OutgoingPacket) : Framed (r :: log) current' 0 := by
  have hbegun : Log.begun (r :: log) = [] := by rw [Log.begun, Trace.gather_cons, hsent, Bool.or_true]; rfl
  have hframes : Log.frames (r :: log) = log.frames ++ [(item, log.begun)] := by
    rw [Log.frames, hopening, hsent, hcurrent]
    rfl
  refine ⟨?_, fun frame hmem => ?_, (partly_zero_iff (bytes_ne_of_begun _)).mpr hbegun⟩
  · rw [stream_cons hopening, MqttClient.writtenBytes_of_event hwrite, hframes, hbegun,
      List.flatMap_append, h.stream]
    simp [bytesOf]
  · rw [hframes] at hmem
    rcases List.mem_append.mp hmem with hmem | hmem
    · exact h.whole frame hmem
    · rw [List.mem_singleton.mp hmem]
      exact hsize ▸ h.partly.1

end

namespace MqttClient

variable {cfg : Config} {env : Env cfg}

/-! ### In a connection -/

/-- What was written so far falls into frames, and it always did. -/
structure Steady (c : MqttClient cfg) : Prop where
  framed : Framed c.log c.outbox.getCurrent c.bytesSent
  always : Trace.Always (fun r earlier => r.isFramed earlier) c.log

theorem isFramed_of_framed {r : Record} {log : Log} (h : Framed log r.outbox.getCurrent r.bytesSent) :
    r.isFramed log := decide_eq_true fun _ => h

/-- Something was noted that is neither a write nor the end of a packet. -/
theorem Steady.noted {c c' : MqttClient cfg} (hc : c.Steady) {r : Record} (hlog : c'.log = r :: c.log)
    (hcurrent : r.outbox = c.outbox) (hposition : r.bytesSent = c.bytesSent) (hopening : r.isOpening = false)
    (hsent : r.isSent = false) (hwrite : r.event.isWrite = false)
    (houtbox : c'.outbox.getCurrent = c.outbox.getCurrent) (hbytes : c'.bytesSent = c.bytesSent) :
    c'.Steady where
  framed := by
    rw [hlog, houtbox, hbytes]
    exact hc.framed.noted hopening hsent hwrite
  always := by
    rw [hlog]
    refine ⟨isFramed_of_framed ?_, hc.always⟩
    rw [hcurrent, hposition]
    exact hc.framed

/-- The rest of the queue changed. -/
theorem Steady.current {c c' : MqttClient cfg} (hc : c.Steady) (hlog : c'.log = c.log)
    (houtbox : c'.outbox.getCurrent = c.outbox.getCurrent) (hbytes : c'.bytesSent = c.bytesSent) : c'.Steady :=
  ⟨by rw [hlog, houtbox, hbytes]; exact hc.framed, hlog ▸ hc.always⟩

/-- With nothing sent of the current packet the cursor may be anywhere. -/
theorem Steady.zero {c c' : MqttClient cfg} (hc : c.Steady) (hlog : c'.log = c.log) (hzero : c.bytesSent = 0)
    (hbytes : c'.bytesSent = c.bytesSent) : c'.Steady := by
  have hframed := hc.framed
  rw [hzero] at hframed
  refine ⟨?_, hlog ▸ hc.always⟩
  rw [hlog, hbytes, hzero]
  exact hframed.zero _

/-- A packet goes to the back of the queue. -/
theorem Steady.push {c : MqttClient cfg} (hc : c.Steady) (packet : Packet) : (c.push packet).asked.Steady := by
  cases hcurrent : c.outbox.getCurrent with
  | none =>
    have hpartly := hc.framed.partly
    rw [hcurrent] at hpartly
    exact hc.zero rfl hpartly.2 rfl
  | some item =>
    obtain ⟨rest, hpending⟩ := getCurrent_eq_some.mp hcurrent
    refine hc.current rfl ?_ rfl
    show (c.outbox.pending ++ [_]).head? = c.outbox.pending.head?
    rw [hpending, List.cons_append, List.head?_cons, List.head?_cons]

/-- What is available is a part of the packet and in its buffer. -/
theorem available_le {c : MqttClient cfg} {item : OutgoingPacket} {packet : Packet} {available : ℕ}
    (hformed : item.packet.Formed)
    (havailable : item.packet.available cfg c.tick c.bytesSent = (available, packet)) (hne : available ≠ 0)
    (hchunked : packet.getPayload.isSome → packet.payloadEndIndex + 1 - c.bytesSent ≤
      (packet.dataAt c.bytesSent).length ∧ packet.payloadEndIndex < packet.size) :
    available ≤ (packet.dataAt c.bytesSent).length ∧ c.bytesSent + available ≤ packet.size := by
  cases hget : packet.getPayload with
  | none =>
    have hnone : item.packet.getPayload = none := (Packet.reads_of_available havailable).getPayload ▸ hget
    rw [Packet.available_buffered hnone] at havailable
    obtain ⟨rfl, rfl⟩ := Prod.mk.inj havailable
    have hsize := hformed.buffered hnone
    rw [Packet.dataAt, hget]
    show _ ≤ (item.packet.data.drop c.bytesSent).length ∧ _
    rw [List.length_drop]
    omega
  | some callback =>
    have hsome : item.packet.getPayload = some callback :=
      (Packet.reads_of_available havailable).getPayload ▸ hget
    obtain ⟨hroom, hend⟩ := hchunked (by rw [hget]; rfl)
    rw [Packet.available, hsome] at havailable
    split_ifs at havailable
    · exact absurd (Prod.mk.inj havailable).1.symm hne
    · obtain ⟨q, hq, -⟩ := Packet.chunkedAvailable_cases cfg c.tick callback item.packet c.bytesSent
      obtain ⟨rfl, rfl⟩ := Prod.mk.inj (hq.symm.trans havailable)
      omega

/-- The transport takes some of the current packet. -/
theorem Steady.sendPacket {c : MqttClient cfg} (hc : c.Steady) (hwrite : ∀ tick size, 0 ≤ env.write tick size)
    (hproper : c.QueuesProper) (hbounded : c.QueuesBounded)
    (hconsistent : Trace.Always (fun r _ => r.isConsistent) (c.sendPacket env).2.log) :
    (c.sendPacket env).2.Steady := by
  rcases sendPacket_cases env c with ⟨-, h⟩ | ⟨item, rest, available, packet, hpending, havailable, h⟩
  · rw [h]
    exact hc
  have hmem : item ∈ c.outbox.items := by simp [CursorList.items, hpending]
  have hreads := Packet.reads_of_available havailable
  have hframed := hc.framed
  rw [CursorList.getCurrent, hpending, List.head?_cons] at hframed
  have hdata : item.packet.getPayload = none → packet.data = item.packet.data := by
    intro hnone
    rw [Packet.available_buffered hnone] at havailable
    rw [(Prod.mk.inj havailable).2]
  have htouched : ∀ timeSent, Framed c.log (some ⟨timeSent, packet, item.added⟩) c.bytesSent :=
    fun timeSent => hframed.touched rfl hreads.size hreads.getPayload hdata
  rcases h with ⟨-, h⟩ | ⟨hne, timeSent, activity, h⟩ <;> rw [h] at hconsistent ⊢
  · exact ⟨htouched item.timeSent, hc.always⟩
  · dsimp only at hconsistent ⊢
    generalize hresult : env.write (c.tick + 1) available = result at hconsistent ⊢
    have hle : result ≤ available := hresult ▸ env.write_le (c.tick + 1) available
    have hpos : 0 ≤ result := hresult ▸ hwrite _ _
    rw [log_wrote] at hconsistent
    have hchunked : packet.getPayload.isSome → packet.payloadEndIndex + 1 - c.bytesSent ≤
        (packet.dataAt c.bytesSent).length ∧ packet.payloadEndIndex < packet.size :=
          of_decide_eq_true hconsistent.1
    obtain ⟨hroom, hend⟩ := available_le (hproper item hmem).toFormed havailable hne hchunked
    have hlength : ((packet.dataAt c.bytesSent).take result.toNat).length = result.toNat := by
      rw [List.length_take]
      omega
    have hlt : c.bytesSent + result.toNat < cfg.sizeMod := by
      have := ((hbounded item hmem).reads hreads).size
      omega
    have hbytes : (c.wrote { item with packet } rest result timeSent activity).bytesSent =
        c.bytesSent + ((packet.dataAt c.bytesSent).take result.toNat).length := by
      show cfg.wrap (c.bytesSent + (result % cfg.sizeMod).toNat) = _
      rw [hlength, toNat_emod_sizeMod hpos (by omega), cfg.wrap_of_lt hlt]
    have hwritten : Framed (c.written { item with packet } rest result :: c.log) (some { item with packet })
        (c.bytesSent + ((packet.dataAt c.bytesSent).take result.toNat).length) := by
      refine (htouched item.timeSent).write rfl rfl rfl ?_ fun hnone => ?_
      · rw [hlength]
        show c.bytesSent + result.toNat ≤ packet.size
        omega
      · have hnone : packet.getPayload = none := hnone
        show (packet.dataAt c.bytesSent).take result.toNat =
          (packet.data.drop c.bytesSent).take ((packet.dataAt c.bytesSent).take result.toNat).length
        rw [hlength, Packet.dataAt, hnone]
    refine ⟨?_, isFramed_of_framed (htouched item.timeSent), hc.always⟩
    rw [log_wrote, hbytes]
    exact hwritten.touched rfl rfl rfl fun _ => rfl

/-- The cursor leaves a packet that was written to its end. -/
theorem Steady.advanceOutbox {c : MqttClient cfg} (hc : c.Steady) : c.advanceOutbox.2.Steady := by
  rcases advanceOutbox_cases c with ⟨h, -⟩ | ⟨item, hcurrent, hsize, h⟩ <;> rw [h]
  · exact hc
  have hfarewell : (c.farewell item.packet).Steady ∧ (c.farewell item.packet).bytesSent = c.bytesSent := by
    rw [farewell]
    split_ifs
    · exact ⟨hc.noted rfl rfl rfl rfl rfl rfl rfl rfl, rfl⟩
    · exact ⟨hc, rfl⟩
  obtain ⟨hsteady, hbytes⟩ := hfarewell
  have hframed := hsteady.framed
  rw [outbox_farewell, hcurrent, hbytes] at hframed
  refine ⟨hframed.sent rfl rfl rfl ?_ hsize _, isFramed_of_framed hsteady.framed, hsteady.always⟩
  show (c.farewell item.packet).outbox.getCurrent = some item
  rw [outbox_farewell, hcurrent]

theorem Steady.sendRound {c : MqttClient cfg} (hc : c.Steady) (hwrite : ∀ tick size, 0 ≤ env.write tick size)
    (hproper : c.QueuesProper) (hbounded : c.QueuesBounded)
    (hconsistent : Trace.Always (fun r _ => r.isConsistent) (c.sendRound env).log) :
    (c.sendRound env).Steady := by
  rw [MqttClient.sendRound] at hconsistent ⊢
  split_ifs at hconsistent ⊢
  · have hgrows : Grows (fun _ => true) _ (c.sendPacket env).2.advanceOutbox.2 :=
      grows_advanceOutbox _ (fun _ => rfl) rfl
    obtain ⟨new, hnew⟩ := hgrows.log_suffix
    exact (hc.sendPacket hwrite hproper hbounded (Trace.Always.of_append (hnew ▸ hconsistent))).advanceOutbox
  · exact hc.sendPacket hwrite hproper hbounded hconsistent

theorem Steady.clearQueue {c : MqttClient cfg} (hc : c.Steady) {clearData : ℕ}
    (h : c.bytesSent = 0 ∨ c.outbox.getCurrent.all (keeps clearData)) : (c.clearQueue clearData).Steady := by
  have hnote : (c.note (.clearQueue clearData)).Steady := hc.noted rfl rfl rfl rfl rfl rfl rfl rfl
  rw [clearQueue_eq]
  rcases h with hzero | hkept
  · exact hnote.zero rfl hzero rfl
  · refine hnote.current rfl ?_ rfl
    show (c.outbox.pending.filter (keeps clearData)).head? = c.outbox.pending.head?
    rw [CursorList.getCurrent] at hkept
    cases hpending : c.outbox.pending with
    | nil => rfl
    | cons item rest =>
      rw [hpending] at hkept
      have hkept : keeps clearData item := hkept
      rw [List.filter_cons_of_pos hkept, List.head?_cons, List.head?_cons]

theorem Steady.remove {c : MqttClient cfg} (hc : c.Steady) {position : ℕ}
    (h : position ≠ c.outbox.cursor ∨ c.bytesSent = 0) : (c.remove position).Steady := by
  have hnote : (c.note (.remove position)).Steady := hc.noted rfl rfl rfl rfl rfl rfl rfl rfl
  rcases h with hne | hzero
  · refine hnote.current rfl ?_ rfl
    show (c.outbox.remove position).pending.head? = c.outbox.pending.head?
    rw [CursorList.remove]
    split_ifs
    · rfl
    · obtain ⟨k, hk⟩ : ∃ k, position - c.outbox.cursor = k + 1 := ⟨position - c.outbox.cursor - 1, by omega⟩
      rw [hk]
      cases c.outbox.pending <;> rfl
  · exact hnote.zero rfl hzero rfl

/-- A CONNACK is accepted. -/
theorem Steady.accept {c : MqttClient cfg} (hc : c.Steady)
    (hconsistent : Trace.Always (fun r _ => r.isConsistent) c.accept.log) : c.accept.Steady := by
  have hconnected : c.connectedNow.Steady := hc.noted rfl rfl rfl rfl rfl rfl rfl rfl
  have hadvance := hconnected.advanceOutbox
  have hadmitted : c.admitted.Steady := by
    have hconsistent : Trace.Always (fun r _ => r.isConsistent) c.admitted.log := hconsistent.2
    rw [admitted] at hconsistent ⊢
    split_ifs at hconsistent ⊢
    · apply hadvance.clearQueue
      rcases of_decide_eq_true hconsistent.1 with h | h
      · rcases state_advanceOutbox c.connectedNow with hstate | hstate
        · exact absurd (congrArg State.isOnline hstate) h
        · exact absurd (congrArg State.isOnline hstate) h
      · exact h
    · exact hadvance
  exact hadmitted.noted rfl rfl rfl rfl rfl rfl rfl rfl

/-! ### Runs -/

/-- Was the client told to connect, and is there no connection yet? -/
def isDialling (state : State) : Prop := state = .connectingTcp1 ∨ state = .connectingTcp2

structure Streaming (c : MqttClient cfg) : Prop where
  proper : c.QueuesProper
  bounded : c.QueuesBounded
  idle : c.Idle
  dialling : isDialling c.state → Blank c.log ∧ c.bytesSent = 0
  online : c.state.isOnline → Framed c.log c.outbox.getCurrent c.bytesSent
  always : Trace.Always (fun r earlier => r.isFramed earlier) c.log

/-- Something was noted. -/
theorem Streaming.noted {c c' : MqttClient cfg} (hc : c.Streaming) (hproper : c'.QueuesProper)
    (hbounded : c'.QueuesBounded) (hidle : c'.Idle) {r : Record} (hlog : c'.log = r :: c.log)
    (hstate : r.state = c.state) (hcurrent : r.outbox = c.outbox) (hposition : r.bytesSent = c.bytesSent)
    (hopening : r.isOpening = false) (hsent : r.isSent = false) (hwrite : r.event.isWrite = false)
    (houtbox : c'.outbox.getCurrent = c.outbox.getCurrent) (hbytes : c'.bytesSent = c.bytesSent)
    (hdialling : isDialling c'.state → isDialling c.state)
    (honline : c'.state.isOnline → c.state.isOnline ∨ isDialling c.state) : c'.Streaming := by
  refine ⟨hproper, hbounded, hidle, fun h => ?_, fun h => ?_, ?_⟩ <;> rw [hlog]
  · obtain ⟨hblank, hzero⟩ := hc.dialling (hdialling h)
    exact ⟨hblank.cons hsent hwrite, hbytes.trans hzero⟩
  · rw [hbytes]
    rcases honline h with hstate | hstate
    · rw [houtbox]
      exact (hc.online hstate).noted hopening hsent hwrite
    · obtain ⟨hblank, hzero⟩ := hc.dialling hstate
      rw [hzero]
      exact (hblank.cons hsent hwrite).framed _
  · refine ⟨decide_eq_true ?_, hc.always⟩
    rw [hstate, hcurrent, hposition]
    exact hc.online

theorem Requested.isOpening {c : MqttClient cfg} {packet : Packet} {event : Event}
    (h : c.Requested packet event) :
    (event.isConnect || event.isTransportConnect) = false := by
  cases h <;> rfl

theorem Requested.isSent {c : MqttClient cfg} {packet : Packet} {r : Record} (h : c.Requested packet r.event) :
    r.isSent = false := by
  obtain ⟨event, _, _, _, _⟩ := r
  cases event <;> first | rfl | cases h

end MqttClient

end EspMqttClient
