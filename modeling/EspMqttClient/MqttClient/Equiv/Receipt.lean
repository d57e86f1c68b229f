/-
  A PUBLISH that comes in.

  However the bytes are cut, the client handles the slices of a PUBLISH one after the other (`Receives`).
  The last one is answered, with one acknowledgement or with none, and the ones before it are not
  (`receives_publish`).  A client that stays connected receives all that it reads (`loop_receives`).
-/
import EspMqttClient.MqttClient.Equiv.Acks
import EspMqttClient.MqttClient.Equiv.Incoming
import EspMqttClient.Packets.Equiv.Publish
import EspMqttClient.Packets.Equiv.Slices

namespace EspMqttClient

namespace MqttClient

variable {cfg : Config} (env : Env cfg)

/-- The parser consumed some bytes. -/
def consume (c : MqttClient cfg) (parser : Parser cfg) (bytes : List Byte) : MqttClient cfg :=
  { c with parser }.note (.parsed bytes)

@[simp] theorem parser_consume (c : MqttClient cfg) (parser : Parser cfg) (bytes : List Byte) :
    (c.consume parser bytes).parser = parser := rfl

/-- A stretch of a run: the bytes that the parser consumes and the clients that have a packet to handle,
before they do.  Between two calls of the parser anything may happen that leaves it alone. -/
inductive Receives : MqttClient cfg → List Byte → List (MqttClient cfg) → MqttClient cfg → Prop
  | nil {c} : Receives c [] [] c
  | meanwhile {c d c' bytes handled} (hparser : d.parser = c.parser) (h : Receives d bytes handled c') :
      Receives c bytes handled c'
  | awaitData {c c' input n parser bytes handled} (hparse : c.parser.parseInput input = (.awaitData, n, parser))
      (h : Receives (c.consume parser (input.take n)) bytes handled c') :
      Receives c (input.take n ++ bytes) handled c'
  | packet {c c' input n parser bytes handled} (hparse : c.parser.parseInput input = (.packet, n, parser))
      (h : Receives ((c.consume parser (input.take n)).handle env).2 bytes handled c') :
      Receives c (input.take n ++ bytes) (c.consume parser (input.take n) :: handled) c'

/-- The acknowledgement that a PUBLISH with this quality of service asks for. -/
def answerType (qos : Byte) : Option MQTTPacketType :=
  if qos = 1 then some PacketType.PUBACK else if qos = 2 then some PacketType.PUBREC else none

/-- What answers a PUBLISH: one acknowledgement with its packet id, or nothing. -/
def IsAnswer (qos : Byte) (packetId : UInt16) (follow : List OutgoingPacket) : Prop :=
  match answerType qos with
  | some type => ∃ item : OutgoingPacket, follow = [item] ∧ item.isFor type packetId
  | none => follow = []

/-- A client handles its packet: up to the `onMessage` callback, if it is called, `follow` is added at the
back of the queue and nothing else changes in it. -/
def Adds (c : MqttClient cfg) (follow : List OutgoingPacket) : Prop :=
  ∃ c' : MqttClient cfg, c'.outbox.items = c.outbox.items ++ follow ∧ c'.log = c.received.log ∧
    ((c.handle env).2 = c' ∨ (c.handle env).2 = c'.callback env .onMessage (.onMessage c.parser.report))

/-- The packet that was parsed is a slice of a PUBLISH. -/
structure IsSlice (m : Publish) (c : MqttClient cfg) : Prop where
  packetType : c.incoming.packetType = Parser.sentByte m.qos m.retain m.dup
  topic : c.parser.report.topic = m.topic.takeWhile (· ≠ 0)
  packetId : m.qos ≠ 0 → c.incoming.packetId = m.packetId
  total : c.incoming.payload.total = m.payload.length

/-- Does a slice complete its PUBLISH? -/
def isLastSlice (c : MqttClient cfg) : Bool :=
  c.incoming.payload.index + c.incoming.payload.length = c.incoming.payload.total

variable {env}

/-! ### The parser -/

theorem parser_call (c : MqttClient cfg) (apiCall : ApiCall) : (c.call env apiCall).parser = c.parser := by
  cases apiCall with
  | connect =>
    rw [call, connect]
    dsimp only
    split_ifs
    · rw [addPacketFront]
      split_ifs with hnode
      · dsimp only
        split_ifs <;> rfl
      · rfl
    · rfl
  | disconnect force => exact parser_disconnect c force
  | publish topic qos retain payload =>
    rw [call, publish]
    split_ifs
    · rfl
    · rcases addPacket_cases env (c.publishPacketId qos).2 fun alloc =>
        Packet.publish cfg alloc (c.publishPacketId qos).1 topic payload qos retain with
        ⟨_, -, hadd⟩ | ⟨-, hadd⟩ <;> simp only [hadd]
      · exact parser_publishPacketId c qos
      · exact parser_publishPacketId c qos
  | publishChunked topic qos retain callback length =>
    rw [call, publishChunked]
    split_ifs
    · rfl
    · rcases addPacket_cases env (c.publishPacketId qos).2 fun alloc =>
        Packet.publishChunked cfg alloc (c.publishPacketId qos).1 topic callback length qos retain with
        ⟨_, -, hadd⟩ | ⟨-, hadd⟩ <;> simp only [hadd]
      · exact parser_publishPacketId c qos
      · exact parser_publishPacketId c qos
  | subscribe topic qos args =>
    rw [call, subscribe]
    split_ifs
    · rfl
    · rcases addPacket_cases env c.getNextPacketId.2 fun alloc =>
        Packet.subscribe cfg alloc c.getNextPacketId.1 ((topic, qos) :: args) with
        ⟨_, -, hadd⟩ | ⟨-, hadd⟩ <;> simp only [hadd] <;> rfl
  | unsubscribe topic args =>
    rw [call, unsubscribe]
    split_ifs
    · rfl
    · rcases addPacket_cases env c.getNextPacketId.2 fun alloc =>
        Packet.unsubscribe cfg alloc c.getNextPacketId.1 (topic :: args) with
        ⟨_, -, hadd⟩ | ⟨-, hadd⟩ <;> simp only [hadd] <;> rfl
  | clearQueue deleteSessionData => rfl
  | set setting => rfl

theorem parser_callback (c : MqttClient cfg) (callback : Callback) (event : Event) :
    (c.callback env callback event).parser = c.parser := by
  have hcalls : ∀ (apiCalls : List ApiCall) (c : MqttClient cfg),
      (apiCalls.foldl (fun c apiCall => c.call env apiCall) c).parser = c.parser := by
    intro apiCalls
    induction apiCalls with
    | nil => exact fun _ => rfl
    | cons apiCall apiCalls ih =>
      intro c
      rw [List.foldl_cons, ih, parser_call]
  rw [MqttClient.callback]
  dsimp only
  split_ifs
  · rw [hcalls]
    rfl
  · rfl

theorem parser_finish (c : MqttClient cfg) (type : MQTTPacketType) : (c.finish env type).parser = c.parser := by
  rw [finish]
  cases c.findFirst type c.incoming.packetId with
  | none => rfl
  | some it => exact parser_callback _ _ _

theorem parser_proceed (c : MqttClient cfg) (type next : MQTTPacketType) :
    (c.proceed env type next).parser = c.parser := by
  rw [proceed]
  cases c.findFirst type c.incoming.packetId with
  | none => rfl
  | some it => exact parser_addPacket c _

theorem parser_onConnack (c : MqttClient cfg) : (c.onConnack env).parser = c.parser := by
  by_cases hcode : c.incoming.returnCode = 0
  · rw [onConnack_of_accepted hcode, parser_callback, parser_admitted]
  · rw [onConnack, if_neg hcode]
    rfl

theorem parser_onPublish (c : MqttClient cfg) : (c.onPublish env).parser = c.parser := by
  rw [onPublish]
  dsimp only
  split_ifs
  · rw [parser_callback, parser_answerPublish]
  · rw [parser_answerPublish]

theorem parser_onSuback (c : MqttClient cfg) : (c.onSuback env).parser = c.parser := by
  rw [onSuback]
  cases c.outbox.find (·.isFor PacketType.SUBSCRIBE c.incoming.packetId) with
  | none => rfl
  | some it => exact parser_callback _ _ _

theorem parser_onUnsuback (c : MqttClient cfg) : (c.onUnsuback env).parser = c.parser := by
  rw [onUnsuback]
  cases c.outbox.find (·.packet.packetId = c.incoming.packetId) with
  | none => rfl
  | some it => exact parser_callback _ _ _

/-- To handle a packet leaves the parser alone. -/
theorem parser_handle (c : MqttClient cfg) : (c.handle env).2.parser = c.parser := by
  have hbranch {p : Prop} [Decidable p] {yes no : Bool × MqttClient cfg} (hyes : yes.2.parser = c.parser)
      (hno : no.2.parser = c.parser) : (if p then yes else no).2.parser = c.parser := by
    split
    · exact hyes
    · exact hno
  rw [handle]
  refine hbranch rfl (hbranch (parser_onConnack _) (hbranch ?_ ?_))
  · dsimp only
    split
    · rfl
    · exact parser_onPublish _
  · refine hbranch (parser_finish _ _) (hbranch (parser_proceed _ _ _) (hbranch (parser_proceed _ _ _) ?_))
    refine hbranch (parser_finish _ _) (hbranch (parser_onSuback _) (hbranch (parser_onUnsuback _) ?_))
    exact hbranch rfl rfl

/-! ### Slices -/

/-- What is seen of a client that has a packet to handle. -/
def seen (c : MqttClient cfg) : Parser.Report × Bool := (c.parser.report, c.parser.parse = .fixedHeader)

/-- What a client receives is, slices put together, what a walk over the bytes gives. -/
theorem Receives.results {c c' : MqttClient cfg} {bytes : List Byte} {handled : List (MqttClient cfg)}
    (h : Receives env c bytes handled c') (hok : c.parser.Ok) (start : ℕ) :
    ∃ rs : List Parser.Result, rs.map (fun r => (r.report, r.complete)) = handled.map seen ∧
      Parser.merge rs = Parser.merge (Parser.walk start 0 c.parser bytes).results := by
  induction h generalizing start with
  | nil => exact ⟨[], rfl, rfl⟩
  | meanwhile hparser h ih =>
    rw [← hparser] at hok ⊢
    exact ih hok start
  | @awaitData c c' input n parser bytes handled hparse h ih =>
    obtain ⟨hlength, hwalk⟩ := Parser.walk_of_awaitData hok hparse start
    obtain rfl | ⟨byte, rest, rfl⟩ : input = [] ∨ ∃ byte rest, input = byte :: rest := by
      cases input with
      | nil => exact .inl rfl
      | cons byte rest => exact .inr ⟨byte, rest, rfl⟩
    · cases hparse
      exact ih hok start
    · have hok' := (hok.parseInput byte rest).1
      rw [hparse] at hok'
      obtain ⟨rs, hrs, hmerge⟩ := ih hok' (start + n)
      refine ⟨rs, hrs, ?_⟩
      have happend := Parser.walk_append bytes _ _ (le_refl (byte :: rest).length) start hok
      rw [hwalk, Parser.Fed.idle_andThen] at happend
      have htake : (byte :: rest).take n = byte :: rest := by
        rw [hlength, List.take_length]
      rw [hmerge, htake, happend.results]
      rfl
  | @packet c c' input n parser bytes handled hparse h ih =>
    obtain ⟨hle, q, hsimilar, hreport, hwalk⟩ := Parser.walk_of_packet hok hparse start
    obtain ⟨byte, rest, rfl⟩ : ∃ byte rest, input = byte :: rest := by
      cases input with
      | nil => cases hparse
      | cons byte rest => exact ⟨byte, rest, rfl⟩
    have hok' := (hok.parseInput byte rest).1
    rw [hparse] at hok'
    rw [parser_handle] at ih
    obtain ⟨rs, hrs, hmerge⟩ := ih hok' (start + n)
    have happend := Parser.walk_append bytes _ _ (le_refl ((byte :: rest).take n).length) start hok
    rw [hwalk, Parser.Fed.cons_andThen, Parser.Fed.idle_andThen] at happend
    refine ⟨q.result (start + n) :: rs, ?_, ?_⟩
    · rw [List.map_cons, List.map_cons, hrs]
      congr 1
      show (q.report, decide (q.parse = .fixedHeader)) = (parser.report, decide (parser.parse = .fixedHeader))
      rw [hreport, hsimilar.parse]
    · have hsame := (Parser.walk_similar bytes 0 (start + n) hsimilar).1
      rw [happend.results]
      show Parser.merge (q.result (start + n) :: rs) =
        Parser.merge (q.result (start + n) :: (Parser.walk (start + n) 0 q bytes).results)
      rw [hsame]
      exact Parser.slices.coalesce_cons_congr hmerge _

/-- A sound parser stays sound, and a slice that does not bring the parser back to the start of a packet is
not the last one. -/
theorem Receives.handled_sound {c c' : MqttClient cfg} {bytes : List Byte} {handled : List (MqttClient cfg)}
    (h : Receives env c bytes handled c') (hsound : c.parser.Sound) :
    ∀ d ∈ handled, d.parser.Sound ∧ (d.parser.parse ≠ .fixedHeader → ¬ d.isLastSlice) := by
  induction h with
  | nil => exact fun d hd => absurd hd List.not_mem_nil
  | meanwhile hparser h ih =>
    rw [← hparser] at hsound
    exact ih hsound
  | @awaitData c c' input n parser bytes handled hparse h ih =>
    have hsound' := (hsound.parseInput input).1
    rw [hparse] at hsound'
    exact ih hsound'
  | @packet c c' input n parser bytes handled hparse h ih =>
    have hsound' := (hsound.parseInput input).1
    rw [hparse] at hsound'
    rw [parser_handle] at ih
    rw [List.forall_mem_cons]
    refine ⟨⟨hsound', fun hnot hlast => ?_⟩, ih hsound'⟩
    exact Parser.parseInput_incomplete hparse hnot (of_decide_eq_true hlast)

/-! ### Answers -/

theorem handle_publish (env : Env cfg) {c : MqttClient cfg} (hstate : c.state = .connected)
    (htype : c.incomingType = PacketType.PUBLISH) : (c.handle env).2 = c.received.onPublish env := by
  have hreceived : c.received.state = .connected := hstate
  have hgoes : ¬ State.disconnectingMqtt1.toNat ≤ c.received.state.toNat := by
    rw [hreceived]
    decide
  rw [handle]
  dsimp only
  rw [← received, ← incomingType, htype, if_neg, if_neg (by decide), if_pos rfl]
  · dsimp only
    rw [if_neg hgoes]
  · rw [hstate]
    exact fun h => by cases h.1

/-- An acknowledgement that there is memory for is at the back of the queue. -/
theorem addPacket_answer (c : MqttClient cfg) (type : MQTTPacketType) (packetId : UInt16)
    (htype : Packet.ackByte type &&& 0xF0 = type) (halloc : (env.alloc c.tick).Suffices cfg) :
    ∃ item : OutgoingPacket, item.isFor type packetId ∧
      (c.addPacket env fun alloc => Packet.ack cfg alloc type packetId).2.outbox.items =
        c.outbox.items ++ [item] ∧
      (c.addPacket env fun alloc => Packet.ack cfg alloc type packetId).2.log = c.log := by
  obtain ⟨packet, hpacket, hadd⟩ := addPacket_of_suffices c type packetId halloc
  obtain ⟨-, hid, -, hpacketType⟩ := Packet.ack_built hpacket
  refine ⟨⟨0, packet, c.tick⟩, isFor_of_isType ?_ hid, ?_, ?_⟩
  · rw [OutgoingPacket.isType, decide_eq_true_iff, hpacketType, htype]
  · rw [hadd]
    exact CursorList.items_emplace _ _
  · rw [hadd]
    rfl

/-- Only the last slice is answered. -/
theorem answerPublish_adds (c : MqttClient cfg) (halloc : (env.alloc c.tick).Suffices cfg) :
    ∃ follow, (c.answerPublish env).2.outbox.items = c.outbox.items ++ follow ∧
      (c.answerPublish env).2.log = c.log ∧
      if c.isLastSlice then IsAnswer c.incoming.qos c.incoming.packetId follow else follow = [] := by
  rw [answerPublish]
  dsimp only
  by_cases hlast : c.isLastSlice
  · have hcomplete := of_decide_eq_true hlast
    simp only [hcomplete, decide_true, if_true, if_pos hlast, IsAnswer, answerType]
    by_cases h₁ : c.incoming.qos = 1
    · obtain ⟨item, hfor, hitems, hlog⟩ :=
        addPacket_answer c PacketType.PUBACK c.incoming.packetId (by decide) halloc
      simp only [if_pos h₁]
      exact ⟨[item], hitems, hlog, item, rfl, hfor⟩
    · by_cases h₂ : c.incoming.qos = 2
      · obtain ⟨item, hfor, hitems, hlog⟩ :=
          addPacket_answer c PacketType.PUBREC c.incoming.packetId (by decide) halloc
        simp only [if_neg h₁, if_pos h₂]
        exact ⟨[item], hitems, hlog, item, rfl, hfor⟩
      · simp only [if_neg h₁, if_neg h₂]
        exact ⟨[], (List.append_nil _).symm, trivial, rfl⟩
  · have hcomplete : ¬ c.incoming.payload.index + c.incoming.payload.length = c.incoming.payload.total :=
      fun h => hlast (decide_eq_true h)
    refine ⟨[], ?_, ?_, by rw [if_neg hlast]⟩
    · rw [List.append_nil]
      split_ifs <;> simp_all
    · split_ifs <;> simp_all

/-- A connected client that has memory answers the last slice of a PUBLISH and no other. -/
theorem handle_adds {c : MqttClient cfg} {m : Publish} (hslice : c.IsSlice m) (hstate : c.state = .connected)
    (halloc : (env.alloc c.tick).Suffices cfg) :
    ∃ follow, c.Adds env follow ∧
      if c.isLastSlice then IsAnswer m.qos m.packetId follow else follow = [] := by
  obtain ⟨⟨htype, -⟩, -, hqos, -⟩ := Parser.sentByte_spec m.qos_le m.retain m.dup
  have hincoming : c.incomingType = PacketType.PUBLISH := by
    rw [incomingType, hslice.packetType, htype]
  have hsame : c.incoming.qos = m.qos := by
    rw [IncomingPacket.qos, hslice.packetType, hqos]
  obtain ⟨follow, hitems, hlog, hanswer⟩ := answerPublish_adds c.received halloc
  refine ⟨follow, ⟨(c.received.answerPublish env).2, hitems, hlog, ?_⟩, ?_⟩
  · rw [handle_publish env hstate hincoming, onPublish]
    dsimp only
    split_ifs
    · right
      rw [parser_answerPublish]
      rfl
    · exact .inl rfl
  · change if c.isLastSlice then IsAnswer c.incoming.qos c.incoming.packetId follow else follow = [] at hanswer
    rw [hsame] at hanswer
    split_ifs at hanswer ⊢ with hlast
    · by_cases hzero : m.qos = 0
      · rw [IsAnswer, hzero] at hanswer ⊢
        exact hanswer
      · rwa [hslice.packetId hzero] at hanswer
    · exact hanswer

/-- The slices of a tiled payload hold the payload. -/
theorem flatMap_payload {rs : List Parser.Result} {index : ℕ} {payload : List Byte}
    (h : Parser.Tile index rs payload) : rs.flatMap (·.report.payload) = payload := by
  induction rs generalizing index payload with
  | nil => exact h.symm
  | cons r rs ih =>
    obtain ⟨-, rest, rfl, hrest⟩ := h
    rw [List.flatMap_cons, ih hrest]

/-- A result that reports a slice of a PUBLISH. -/
theorem isSlice_of_report {m : Publish} (htopic : 1 ≤ m.topic.length) (hle : m.topic.length ≤ cfg.maxTopicLength)
    {d : MqttClient cfg} {r : Parser.Result} (hreport : d.parser.report = r.report)
    (hr : r.report = { (m.header htopic (m.nul_notMem_drop hle)).report m.payload with
      index := r.report.index
      payload := r.report.payload }) : d.IsSlice m := by
  obtain ⟨htype, htopic', htotal, hid⟩ := m.report_header htopic hle m.payload
  rw [hr] at hreport
  exact {
    packetType := (congrArg Parser.Report.packetType hreport).trans htype
    topic := (congrArg Parser.Report.topic hreport).trans htopic'
    packetId := fun hqos => (congrArg Parser.Report.packetId hreport).trans (hid hqos)
    total := (congrArg Parser.Report.total hreport).trans htotal }

/-- The slices of a PUBLISH come one after the other, and the one that completes it is the last one. -/
theorem Receives.publish_slices (m : Publish) (htopic : 1 ≤ m.topic.length)
    (hle : m.topic.length ≤ cfg.maxTopicLength) {c c' : MqttClient cfg} {after : List Byte}
    {handled : List (MqttClient cfg)} (hsound : c.parser.Sound) (hparse : c.parser.parse = .fixedHeader)
    (h : Receives env c (m.bytes ++ after) handled c') :
    ∃ slices last rest, handled = slices ++ last :: rest ∧ (after = [] → rest = []) ∧
      (slices ++ [last]).flatMap (·.parser.report.payload) = m.payload ∧
      (∀ d ∈ slices, d.IsSlice m ∧ ¬ d.isLastSlice) ∧ last.IsSlice m ∧ last.isLastSlice := by
  obtain ⟨rs, hseen, hmerge⟩ := h.results hsound.toOk 0
  have hall := h.handled_sound hsound
  -- the walk over the whole PUBLISH gives one result
  have hnul := m.nul_notMem_drop hle
  have hbytes : m.bytes ++ after = (m.header htopic hnul).bytes ++ (m.payload ++ after) := by
    rw [m.bytes_eq htopic hnul, m.behind_of_le hle, List.append_assoc]
  obtain ⟨q, -, -, hwalk⟩ := Parser.walk_publish (m.header htopic hnul) hparse
    (m.total_header htopic hnul).symm 0 after
  rw [hbytes, hwalk, Parser.Fed.cons, Parser.merge_cons_of_complete rfl] at hmerge
  -- and the calls of the parser give its slices
  obtain ⟨ys, zs, rfl, hys, hzs⟩ := Parser.slices.coalesce_split hmerge
  obtain ⟨htile, hslices⟩ := Parser.tile_of_merge hys
  obtain ⟨init, final, rfl, hinit, -⟩ := Parser.exists_last_of_merge hys
  rw [List.append_assoc, List.map_append, List.singleton_append, List.map_cons] at hseen
  obtain ⟨slices, others, rfl, hslices', hothers⟩ := List.map_eq_append_iff.mp hseen.symm
  obtain ⟨last, rest, rfl, hlast, hrest⟩ := List.map_eq_cons_iff.mp hothers
  have hreport : last.parser.report = final.report := congrArg Prod.fst hlast
  have hfinal : last.IsSlice m := isSlice_of_report htopic hle hreport (hslices final (by simp))
  refine ⟨slices, last, rest, rfl, ?_, ?_, ?_, hfinal, ?_⟩
  · rintro rfl
    obtain rfl := Parser.merge_eq_nil hzs
    exact List.map_eq_nil_iff.mp hrest
  · have hpayload : ∀ ds : List (MqttClient cfg),
        ds.flatMap (·.parser.report.payload) = (ds.map seen).flatMap (·.1.payload) := by
      intro ds
      rw [List.flatMap_map]
      rfl
    rw [hpayload, List.map_append, hslices', List.map_singleton, hlast]
    refine Eq.trans ?_ (flatMap_payload htile)
    simp [List.flatMap_map]
  · intro d hd
    obtain ⟨r, hr, hsame⟩ := List.mem_map.mp (hslices' ▸ List.mem_map_of_mem hd)
    have hslice := hslices r (List.mem_append_left _ hr)
    refine ⟨isSlice_of_report htopic hle (congrArg Prod.fst hsame).symm hslice, ?_⟩
    apply (hall d (List.mem_append_left _ hd)).2
    have hincomplete := congrArg Prod.snd hsame
    simp only [hinit r hr, seen] at hincomplete
    exact of_decide_eq_false hincomplete.symm
  · have hend := htile.last
    rw [← hreport, (hall last (by simp)).1.length_payload] at hend
    refine decide_eq_true (hend.trans ?_)
    show 0 + m.payload.length = last.incoming.payload.total
    rw [Nat.zero_add, hfinal.total]

/-- **A PUBLISH** whose topic is not too long is answered once, when its last slice is handled, by a client
that is connected and has memory. -/
theorem receives_publish (env : Env cfg) (m : Publish) (htopic : 1 ≤ m.topic.length)
    (hle : m.topic.length ≤ cfg.maxTopicLength) {c c' : MqttClient cfg} {after : List Byte}
    {handled : List (MqttClient cfg)} (hsound : c.parser.Sound) (hparse : c.parser.parse = .fixedHeader)
    (h : Receives env c (m.bytes ++ after) handled c') (hconnected : ∀ d ∈ handled, d.state = .connected)
    (halloc : ∀ d ∈ handled, (env.alloc d.tick).Suffices cfg) :
    ∃ slices last rest, handled = slices ++ last :: rest ∧ (after = [] → rest = []) ∧
      (slices ++ [last]).flatMap (·.parser.report.payload) = m.payload ∧
      (∀ d ∈ slices, d.IsSlice m ∧ ¬ d.isLastSlice ∧ d.Adds env []) ∧
      last.IsSlice m ∧ last.isLastSlice ∧ ∃ follow, last.Adds env follow ∧ IsAnswer m.qos m.packetId follow := by
  obtain ⟨slices, last, rest, rfl, hrest, hpayload, hslices, hlast, hcomplete⟩ :=
    h.publish_slices m htopic hle hsound hparse
  refine ⟨slices, last, rest, rfl, hrest, hpayload, ?_, hlast, hcomplete, ?_⟩
  · intro d hd
    obtain ⟨hslice, hnot⟩ := hslices d hd
    have hd' : d ∈ slices ++ last :: rest := List.mem_append_left _ hd
    obtain ⟨follow, hadds, hanswer⟩ := handle_adds hslice (hconnected d hd') (halloc d hd')
    rw [if_neg hnot] at hanswer
    exact ⟨hslice, hnot, hanswer ▸ hadds⟩
  · obtain ⟨follow, hadds, hanswer⟩ := handle_adds hlast (hconnected last (by simp)) (halloc last (by simp))
    rw [if_pos hcomplete] at hanswer
    exact ⟨follow, hadds, hanswer⟩

/-- A PUBLISH of quality 1. -/
def helloPublish : Publish where
  qos := 1
  retain := false
  dup := false
  length := [8]
  topic := [0x61]
  packetId := 9
  payload := [1, 2, 3]
  qos_le := by decide
  packetId_ne := by decide
  topic_le := by decide
  isLengthField := by decide
  decode_length := by decide

/-- A connected client. -/
def listening : MqttClient .linux := acceptScript.run [.call .connect, .loop, .loop]

/-- The client when the first two bytes of the payload are there. -/
def listeningFirst : MqttClient .linux :=
  listening.consume (listening.parser.parseInput (helloPublish.bytes.take 9)).2.2 (helloPublish.bytes.take 9)

/-- The client when the last one is there. -/
def listeningLast : MqttClient .linux :=
  let c := (listeningFirst.handle (acceptScript.env .linux)).2
  c.consume (c.parser.parseInput [3]).2.2 [3]

theorem receives_publish_hello : ∃ slices last rest, [listeningFirst, listeningLast] = slices ++ last :: rest ∧
    (([] : List Byte) = [] → rest = []) ∧
    (slices ++ [last]).flatMap (·.parser.report.payload) = [1, 2, 3] ∧
    (∀ d ∈ slices, d.IsSlice helloPublish ∧ ¬ d.isLastSlice ∧ d.Adds (acceptScript.env .linux) []) ∧
    last.IsSlice helloPublish ∧ last.isLastSlice ∧
      ∃ follow, last.Adds (acceptScript.env .linux) follow ∧ IsAnswer 1 9 follow := by
  have hparse : listening.parser.parse = .fixedHeader := by decide +kernel
  have hsound : listening.parser.Sound := {
    toOk := Parser.ok_of_fixedHeader hparse
    none := fun h => by rw [hparse] at h; cases h
    connack := fun h => by rw [hparse] at h; rcases h with h | h <;> cases h
    suback := fun h => by rw [hparse] at h; cases h
    publish := fun h => by rw [hparse] at h; cases h
    fits := by decide +kernel }
  have hfirst : listening.parser.parseInput (helloPublish.bytes.take 9) =
      (.packet, 9, (listening.parser.parseInput (helloPublish.bytes.take 9)).2.2) :=
    Prod.ext (by decide +kernel) (Prod.ext (by decide +kernel) rfl)
  have hlast : (listeningFirst.handle (acceptScript.env .linux)).2.parser.parseInput [3] =
      (.packet, 1, ((listeningFirst.handle (acceptScript.env .linux)).2.parser.parseInput [3]).2.2) :=
    Prod.ext (by decide +kernel) (Prod.ext (by decide +kernel) rfl)
  have h : Receives (acceptScript.env .linux) listening (helloPublish.bytes ++ [])
      [listeningFirst, listeningLast] (listeningLast.handle (acceptScript.env .linux)).2 :=
    .packet hfirst (.packet hlast .nil)
  refine receives_publish (acceptScript.env .linux) helloPublish (by decide) (by decide) hsound hparse h ?_ ?_
  · rw [List.forall_mem_cons, List.forall_mem_singleton]
    exact ⟨by decide +kernel, by decide +kernel⟩
  · rw [List.forall_mem_cons, List.forall_mem_singleton]
    exact ⟨by decide +kernel, by decide +kernel⟩

/-! ### Stretches of a run -/

theorem Receives.trans {c c' c'' : MqttClient cfg} {bytes bytes' : List Byte}
    {handled handled' : List (MqttClient cfg)} (h : Receives env c bytes handled c')
    (h' : Receives env c' bytes' handled' c'') : Receives env c (bytes ++ bytes') (handled ++ handled') c'' := by
  induction h with
  | nil => rwa [List.nil_append, List.nil_append]
  | meanwhile hparser _ ih => exact .meanwhile hparser (ih h')
  | awaitData hparse _ ih =>
    rw [List.append_assoc]
    exact .awaitData hparse (ih h')
  | packet hparse _ ih =>
    rw [List.append_assoc, List.cons_append]
    exact .packet hparse (ih h')

theorem checkIncomingLoop_receives (env : Env cfg) (fuel : ℕ) {c : MqttClient cfg} {input : List Byte}
    (hfuel : input.length ≤ fuel) (hok : c.parser.Ok)
    (hstate : (c.checkIncomingLoop env fuel input).state = .connected) :
    ∃ handled, Receives env c input handled (c.checkIncomingLoop env fuel input) := by
  induction fuel generalizing c input with
  | zero =>
    obtain rfl := List.length_eq_zero_iff.mp (Nat.le_zero.mp hfuel)
    exact ⟨[], .nil⟩
  | succ fuel ih =>
    obtain rfl | ⟨byte, rest, rfl⟩ : input = [] ∨ ∃ byte rest, input = byte :: rest := by
      cases input with
      | nil => exact .inl rfl
      | cons byte rest => exact .inr ⟨byte, rest, rfl⟩
    · exact ⟨[], .nil⟩
    rw [checkIncomingLoop, if_neg (List.cons_ne_nil _ _)] at hstate ⊢
    obtain ⟨hok', hpos, -, -⟩ := hok.parseInput byte rest
    generalize hparse : c.parser.parseInput (byte :: rest) = parsed at hstate hok' hpos ⊢
    obtain ⟨result, n, parser⟩ := parsed
    dsimp only at hstate hok' hpos ⊢
    rw [← consume] at hstate ⊢
    have hfuel' : ((byte :: rest).drop n).length ≤ fuel := by
      rw [List.length_drop]
      omega
    have hbytes := List.take_append_drop n (byte :: rest)
    cases result with
    | awaitData =>
      obtain ⟨handled, h⟩ := ih hfuel' hok' hstate
      refine ⟨handled, ?_⟩
      nth_rewrite 1 [← hbytes]
      exact .awaitData hparse h
    | packet =>
      dsimp only at hstate ⊢
      split_ifs at hstate ⊢ with hmore
      · obtain ⟨handled, h⟩ := ih hfuel' (by rw [parser_handle]; exact hok') hstate
        refine ⟨c.consume parser ((byte :: rest).take n) :: handled, ?_⟩
        nth_rewrite 1 [← hbytes]
        exact .packet hparse h
      · rcases handle_cases (Bool.eq_false_iff.mpr hmore) with h | ⟨h, hleft⟩
        · rw [h] at hstate
          cases hstate
        · exact absurd (h ▸ hstate) hleft
    | protocolError => cases hstate

theorem checkIncoming_receives (env : Env cfg) {c : MqttClient cfg} (hok : c.parser.Ok)
    (hstate : (c.checkIncoming env).state = .connected) :
    ∃ handled, Receives env c (env.read c.tick) handled (c.checkIncoming env) := by
  rw [checkIncoming] at hstate ⊢
  dsimp only at hstate ⊢
  generalize hread : (c.note (.read (env.read c.tick))).asked = d at hstate ⊢
  have hparser : d.parser = c.parser := hread ▸ rfl
  split_ifs at hstate ⊢ with hempty
  · rw [hempty]
    exact ⟨[], .meanwhile hparser .nil⟩
  · generalize hactive : { d with lastServerActivity := d.millis env }.asked = e at hstate ⊢
    have hparser' : e.parser = c.parser := hactive ▸ hparser
    obtain ⟨handled, h⟩ := checkIncomingLoop_receives env _ le_rfl (hparser' ▸ hok) hstate
    exact ⟨handled, .meanwhile hparser' h⟩

theorem parser_checkOutbox (env : Env cfg) (c : MqttClient cfg) : (c.checkOutbox env).parser = c.parser := by
  suffices hloop : ∀ (fuel : ℕ) (c : MqttClient cfg), (c.checkOutboxLoop env fuel).parser = c.parser from
    hloop _ c
  intro fuel
  induction fuel with
  | zero => exact fun c => rfl
  | succ fuel ih =>
    intro c
    rw [checkOutboxLoop]
    dsimp only
    split_ifs
    · rw [ih, parser_advanceOutbox, parser_sendPacket]
    · rw [parser_advanceOutbox, parser_sendPacket]
    · exact parser_sendPacket c

/-- The keepalive check lets the parser be, and a client that is connected after it was connected before. -/
theorem checkPing_connected {c : MqttClient cfg} (h : (c.checkPing env).state = .connected) :
    c.state = .connected ∧ (c.checkPing env).parser = c.parser := by
  rw [checkPing] at h ⊢
  dsimp only at h ⊢
  split_ifs at h ⊢
  · exact ⟨h, rfl⟩
  · cases h
  · rcases addPacket_cases env c.asked fun alloc => Packet.control cfg alloc PacketType.PINGREQ with
      ⟨packet, -, hadd⟩ | ⟨-, hadd⟩ <;> simp only [hadd] at h ⊢
    · exact ⟨h, rfl⟩
    · exact ⟨h, rfl⟩
  · exact ⟨h, rfl⟩

theorem checkTimeout_connected (env : Env cfg) (c : MqttClient cfg) :
    (c.checkTimeout env).state = c.state ∧ (c.checkTimeout env).parser = c.parser := by
  rw [checkTimeout]
  split
  · exact ⟨rfl, rfl⟩
  · dsimp only
    split_ifs <;> exact ⟨rfl, rfl⟩

/-- **A client that stays connected** receives what it reads. -/
theorem loop_receives (env : Env cfg) {c : MqttClient cfg} (hok : c.parser.Ok) (hstate : c.state = .connected)
    (hstays : (c.loop env).state = .connected) :
    ∃ tick handled, Receives env c (env.read tick) handled (c.loop env) := by
  rw [loop, hstate] at hstays ⊢
  dsimp only at hstays ⊢
  rw [loopConnected] at hstays ⊢
  split_ifs at hstays ⊢
  · dsimp only at hstays ⊢
    generalize hsent : c.asked.checkOutbox env = d at hstays ⊢
    have hparser : d.parser = c.parser := by
      rw [← hsent, parser_checkOutbox]
      rfl
    obtain ⟨hstate', hparser'⟩ := checkTimeout_connected env ((d.checkIncoming env).checkPing env)
    rw [hstate'] at hstays
    obtain ⟨hincoming, hparser''⟩ := checkPing_connected hstays
    obtain ⟨handled, h⟩ := checkIncoming_receives env (hparser ▸ hok) hincoming
    have hrest : Receives env (d.checkIncoming env) [] []
        (((d.checkIncoming env).checkPing env).checkTimeout env) :=
      .meanwhile (hparser'.trans hparser'') .nil
    refine ⟨d.tick, handled, .meanwhile hparser ?_⟩
    simpa using h.trans hrest
  · cases hstays

end MqttClient

end EspMqttClient
