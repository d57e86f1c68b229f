/-
  Answers are counted.

  A `Ledger` says which packets of the queue wait for their answer, which events open an account and which ones
  close it.  What every ledger has to get right of the five deals is in its fields, and so in every run no more
  accounts are closed or open than were opened (`run_solvent`).  The messages and the subscriptions are two
  ledgers (`run_conserves`).
-/
import EspMqttClient.MqttClient.Equiv.Deals

namespace EspMqttClient

/-! ### Messages and subscriptions -/

/-- The quality of service in the first byte. -/
def OutgoingPacket.qos (item : OutgoingPacket) : Byte := publishQos (item.packet.data.headD 0)

/-- Is it a PUBLISH that is to be acknowledged, or the PUBREL behind it, with this packet id? -/
def OutgoingPacket.isMessage (packetId : UInt16) (item : OutgoingPacket) : Bool :=
  item.isFor PacketType.PUBLISH packetId ∧ 0 < item.qos ∨ item.isFor PacketType.PUBREL packetId

namespace Event

/-- Did a `publish` of a message that is to be acknowledged return this packet id? -/
def isPublish (packetId : UInt16) : Event → Bool
  | .publish _ other _ _ qos _ => other = packetId ∧ 0 < qos
  | .publishChunked _ other _ _ _ qos _ => other = packetId ∧ 0 < qos
  | _ => false

def isOnPublish (packetId : UInt16) : Event → Bool
  | .onPublish other => other = packetId
  | _ => false

/-- Did a `subscribe` return this packet id? -/
def isSubscribe (packetId : UInt16) : Event → Bool
  | .subscribe other => other = packetId
  | _ => false

def isOnSubscribe (packetId : UInt16) : Event → Bool
  | .onSubscribe other _ => other = packetId
  | _ => false

/-- The quality of service of a message is 0, 1 or 2. -/
def isLawful : Event → Bool
  | .publish _ _ _ _ qos _ => qos ≤ 2
  | .publishChunked _ _ _ _ _ qos _ => qos ≤ 2
  | _ => true

/-- What ends an exchange for the user. -/
def isAnswer : Event → Bool
  | .onPublish _ | .onSubscribe .. => true
  | _ => false

end Event

namespace MqttClient

variable {cfg : Config} {env : Env cfg}

/-! ### The quality of service of a packet in the queue -/

theorem dup_qos (byte : Byte) : publishQos (byte ||| 0x08) = publishQos byte := by
  have hflags : (byte ||| 0x08) &&& 0x06 = byte &&& 0x06 := by
    apply UInt8.toBitVec_inj.mp
    simp only [UInt8.toBitVec_and, UInt8.toBitVec_or, BitVec.and_or_distrib_right]
    simp
  rw [publishQos, publishQos, Packet.dup_type, hflags]

theorem qos_setDup (p : Packet) : publishQos (p.setDup.data.headD 0) = publishQos (p.data.headD 0) := by
  rcases Packet.setDup_eq p with h | h <;> rw [h]
  cases p.data with
  | nil => rfl
  | cons byte rest => exact dup_qos byte

theorem qos_reads {p q : Packet} (h : Packet.Reads cfg p q) (hp : p.Formed) :
    publishQos (q.data.headD 0) = publishQos (p.data.headD 0) := by
  induction h with
  | refl => rfl
  | available call index hq ih =>
    rw [List.headD_eq_head?_getD, (Packet.available_alike call _ index).head (hq.formed hp),
      ← List.headD_eq_head?_getD, ih]
  | setDup _ ih => rw [qos_setDup, ih]

theorem Touched.qos {item item' : OutgoingPacket} (h : Touched cfg item item') (hp : Proper item.packet) :
    item'.qos = item.qos := qos_reads h.reads hp.toFormed

theorem Touched.isType {item item' : OutgoingPacket} (h : Touched cfg item item') (hp : Proper item.packet)
    (type : MQTTPacketType) : item'.isType type = item.isType type := by
  rw [OutgoingPacket.isType, OutgoingPacket.isType, h.reads.packetType hp.toFormed]

theorem Touched.isFor {item item' : OutgoingPacket} (h : Touched cfg item item') (hp : Proper item.packet)
    (type : MQTTPacketType) (packetId : UInt16) : item'.isFor type packetId = item.isFor type packetId := by
  rw [OutgoingPacket.isFor, OutgoingPacket.isFor, h.isType hp, h.reads.packetId]

/-- The first byte of a PUBLISH carries its quality of service. -/
theorem qos_of_begins {packet : Packet} {qos : Byte} {retain : Bool} (hqos : qos ≤ 2)
    (h : packet.data = [] ∨ packet.data.head? = some (Packet.publishByte qos retain)) :
    publishQos (packet.data.headD 0) = qos ∨ packet.packetType = 0 := by
  rcases h with h | h
  · refine .inr ?_
    rw [Packet.packetType, h]
  · obtain ⟨rest, hdata⟩ := List.head?_eq_some_iff.mp h
    refine .inl ?_
    rw [hdata, List.headD_cons]
    rcases Packet.qos_cases hqos with rfl | rfl | rfl <;> cases retain <;> decide

/-- A PUBLISH that is to be acknowledged says so. -/
def Marked (item : OutgoingPacket) : Prop :=
  item.isType PacketType.PUBLISH → item.packet.packetId ≠ 0 → 0 < item.qos

theorem marked_of_type {item : OutgoingPacket} (h : item.packet.packetType ≠ PacketType.PUBLISH) : Marked item :=
  fun htype => absurd (of_decide_eq_true htype) h

theorem Marked.touched {item item' : OutgoingPacket} (h : Marked item) (htouched : Touched cfg item item')
    (hp : Proper item.packet) : Marked item' := by
  intro htype hid
  rw [htouched.isType hp] at htype
  rw [htouched.reads.packetId] at hid
  rw [htouched.qos hp]
  exact h htype hid

/-- A PUBLISH as it is built. -/
theorem publish_marked {packet : Packet} {packetId : UInt16} {qos : Byte} {retain : Bool} {timeSent : UInt32}
    {added : ℕ} (hqos : qos ≤ 2) (hid : packet.packetId = if qos = 0 then 0 else packetId)
    (h : packet.data = [] ∨ packet.data.head? = some (Packet.publishByte qos retain)) :
    Marked ⟨timeSent, packet, added⟩ := by
  rcases qos_of_begins hqos h with hsame | htype
  · intro _ hne
    show 0 < publishQos (packet.data.headD 0)
    rw [hsame, UInt8.pos_iff_ne_zero]
    rintro rfl
    exact hne hid
  · apply marked_of_type
    rw [htype]
    decide

theorem Requested.marked {c : MqttClient cfg} {packet : Packet} {event : Event} (h : c.Requested packet event)
    (hlawful : event.isLawful) (timeSent : UInt32) (added : ℕ) : Marked ⟨timeSent, packet, added⟩ := by
  have hother : ∀ {type : MQTTPacketType}, packet.packetType = type ∨ packet.packetType = 0 →
      type ≠ PacketType.PUBLISH → Marked ⟨timeSent, packet, added⟩ := by
    intro type htype hne
    apply marked_of_type
    rcases htype with htype | htype <;> rw [htype]
    · exact hne
    · decide
  cases h with
  | publish _ _ hpacket =>
    obtain ⟨alloc, hbuild⟩ := hpacket
    have hqos := of_decide_eq_true hlawful
    exact publish_marked hqos (Packet.publish_built hbuild).2.1 (Packet.publish_begins hqos hbuild)
  | publishChunked _ _ hpacket =>
    obtain ⟨alloc, hbuild⟩ := hpacket
    have hqos := of_decide_eq_true hlawful
    exact publish_marked hqos (Packet.publishChunked_built hbuild).2.1 (Packet.publishChunked_begins hqos hbuild)
  | subscribe _ _ hpacket =>
    obtain ⟨alloc, hbuild⟩ := hpacket
    exact hother (Packet.subscribe_built hbuild).2.2.2 (by decide)
  | unsubscribe _ _ hpacket =>
    obtain ⟨alloc, hbuild⟩ := hpacket
    exact hother (Packet.unsubscribe_built hbuild).2.2.2 (by decide)
  | ping _ hpacket =>
    obtain ⟨alloc, hbuild⟩ := hpacket
    exact hother (Packet.control_built hbuild).2.2.2 (by decide)

/-- At the end of an exchange nothing follows. -/
theorem Settles.follow_eq_nil {ack : Ack} {before behind follow : List OutgoingPacket} {item : OutgoingPacket}
    {c d : MqttClient cfg} (h : Settles ack before item behind follow c d) (hnext : ack.next = none) :
    follow = [] := by
  rcases h.follow with hnil | ⟨type, _, htype, -⟩
  · exact hnil
  · rw [hnext] at htype
    cases htype

/-- What follows an acknowledgement. -/
theorem Settles.mem_follow {ack : Ack} {before behind follow : List OutgoingPacket} {item next : OutgoingPacket}
    {c d : MqttClient cfg} (h : Settles ack before item behind follow c d) (hmem : next ∈ follow) :
    ∃ type, ack.next = some type ∧ next.packet.packetId = c.incoming.packetId ∧
      next.packet.packetType = Packet.ackByte type &&& 0xF0 := by
  rcases h.follow with hnil | ⟨type, next', hnext, hfollow, alloc, hbuild⟩
  · rw [hnil] at hmem
    exact absurd hmem List.not_mem_nil
  · rw [hfollow, List.mem_singleton] at hmem
    subst hmem
    obtain ⟨-, hid, -, htype⟩ := Packet.ack_built hbuild
    exact ⟨type, hnext, hid, htype⟩

theorem Deal.marked {c c' : MqttClient cfg} (h : Deal c c') (hlawful : ∀ r ∈ c'.log, r.event.isLawful)
    (hproper : c.QueuesProper) (hc : ∀ item ∈ c.outbox.items, Marked item) :
    ∀ item ∈ c'.outbox.items, Marked item := by
  intro item hmem
  cases h with
  | thins hitems =>
    obtain ⟨origin, horigin, htouched⟩ := hitems.exists_mem_left hmem
    exact (hc origin horigin).touched htouched (hproper origin horigin)
  | number => exact hc item hmem
  | @request c₁ packet event hnumber _ h =>
    have houtbox : c₁.outbox = c.outbox := by rcases hnumber with rfl | rfl <;> rfl
    rw [show ((c₁.push packet).asked.note event).outbox.items = c₁.outbox.items ++ [_] from
      CursorList.items_emplace _ _, houtbox, List.mem_append, List.mem_singleton] at hmem
    rcases hmem with hmem | rfl
    · exact hc item hmem
    · exact h.marked (hlawful _ List.mem_cons_self) _ _
  | add _ htype hitems =>
    rcases List.mem_cons.mp (hitems.subset hmem) with rfl | hmem
    · apply marked_of_type
      rintro heq
      rw [heq] at htype
      exact absurd htype (by decide)
    · exact hc item hmem
  | settle ack _ _ _ _ hsettles hitems =>
    rw [hitems, hsettles.rest] at hmem
    have hold : ∀ other ∈ c.received.outbox.items, Marked other := hc
    rw [hsettles.items] at hold
    rcases List.mem_append.mp hmem with hmem | hmem
    · refine hold item ?_
      rcases List.mem_append.mp hmem with hmem | hmem
      · exact List.mem_append_left _ hmem
      · exact List.mem_append_right _ (List.mem_cons_of_mem _ hmem)
    · obtain ⟨type, hnext, -, htype⟩ := hsettles.mem_follow hmem
      apply marked_of_type
      rw [htype]
      cases ack <;> cases hnext <;> decide

/-! ### Ledgers -/

/-- An account is opened when a request is accepted and closed when the user is told of the answer.  Until then
a packet of the queue stands for it. -/
structure Ledger (cfg : Config) where
  owed : OutgoingPacket → Bool
  opens : Event → Bool
  closes : Event → Bool
  owed_touched : ∀ {item item'}, Proper item.packet → Touched cfg item item' → owed item' = owed item
  owed_unasked : ∀ {item}, item.packet.packetType ∈ unasked → owed item = false
  opens_requested : ∀ {c : MqttClient cfg} {packet event added}, c.Requested packet event → event.isLawful →
    owed ⟨0, packet, added⟩ → opens event
  isAnswer_closes : ∀ {event}, closes event → event.isAnswer
  settles : ∀ {c d : MqttClient cfg} {ack before item behind follow} (returncodes : List Byte), ack ≠ .unsuback →
    Settles ack before item behind follow c d → c.incoming.packetId ≠ 0 → Marked item →
    (ack.tells c.incoming.packetId returncodes).countP closes + follow.countP owed ≤ [item].countP owed

variable (l : Ledger cfg)

/-- No more accounts are closed or open than were opened. -/
def Solvent (c : MqttClient cfg) : Prop :=
  c.log.countP (fun r => l.closes r.event) + c.outbox.items.countP l.owed ≤
    c.log.countP fun r => l.opens r.event

theorem closes_of_not_isAnswer {event : Event} (h : event.isAnswer = false) : l.closes event = false := by
  by_contra hcloses
  have hanswer := l.isAnswer_closes (by simpa using hcloses)
  rw [h] at hanswer
  cases hanswer

theorem isAnswer_of_isIdle {event : Event} (h : event.isIdle) : event.isAnswer = false := by
  cases event <;> first | rfl | cases h

theorem Requested.isAnswer {c : MqttClient cfg} {packet : Packet} {event : Event}
    (h : c.Requested packet event) :
    event.isAnswer = false := by
  cases h <;> rfl

/-- Nothing is closed by other events. -/
theorem countP_closes {new : Log} (h : ∀ r ∈ new, r.event.isAnswer = false) :
    new.countP (fun r => l.closes r.event) = 0 := by
  rw [List.countP_eq_zero]
  intro r hr
  rw [closes_of_not_isAnswer l (h r hr)]
  exact Bool.false_ne_true

/-- Something was noted, and no more is owed than before. -/
theorem Solvent.grows {c c' : MqttClient cfg} (hc : c.Solvent l) {new : Log} (hlog : c'.log = new ++ c.log)
    (hnew : ∀ r ∈ new, r.event.isAnswer = false)
    (howed : c'.outbox.items.countP l.owed ≤
      c.outbox.items.countP l.owed + new.countP fun r => l.opens r.event) : c'.Solvent l := by
  rw [Solvent] at hc ⊢
  rw [hlog, List.countP_append, List.countP_append, countP_closes l hnew]
  omega

theorem Deal.solvent {c c' : MqttClient cfg} (h : Deal c c') (hlawful : ∀ r ∈ c'.log, r.event.isLawful)
    (hproper : c.QueuesProper) (hmarked : ∀ item ∈ c.outbox.items, Marked item) (hc : c.Solvent l) :
    c'.Solvent l := by
  cases h with
  | thins hitems _ hgrows =>
    obtain ⟨new, hlog, hidle⟩ := hgrows
    refine hc.grows l hlog (fun r hr => isAnswer_of_isIdle (hidle r hr)) ?_
    have hle := hitems.countP_le (p := l.owed) (q := l.owed) fun item hmem item' htouched =>
      l.owed_touched (hproper item hmem) htouched
    omega
  | number => exact hc.grows l (List.singleton_append).symm (by simp [Event.isAnswer]) (Nat.le_add_right _ _)
  | @request c₁ packet event hnumber _ h =>
    have hnumbered : c₁.Solvent l ∧ c₁.outbox = c.outbox := by
      rcases hnumber with rfl | rfl
      · exact ⟨hc, rfl⟩
      · exact ⟨hc.grows l (List.singleton_append).symm (by simp [Event.isAnswer]) (Nat.le_add_right _ _), rfl⟩
    refine hnumbered.1.grows l (List.singleton_append).symm (by simpa using h.isAnswer) ?_
    rw [show ((c₁.push packet).asked.note event).outbox.items = c₁.outbox.items ++ [_] from
      CursorList.items_emplace _ _, List.countP_append, List.countP_singleton, List.countP_singleton]
    have hopens : l.owed ⟨0, packet, c₁.tick⟩ → l.opens event :=
      l.opens_requested h (hlawful _ List.mem_cons_self)
    split_ifs with howed hnot
    · exact le_rfl
    · exact absurd (hopens howed) hnot
    · omega
    · exact le_rfl
  | add _ htype hitems _ hgrows =>
    obtain ⟨new, hlog, hidle⟩ := hgrows
    refine hc.grows l hlog (fun r hr => isAnswer_of_isIdle (hidle r hr)) ?_
    rw [hitems.countP_eq, List.countP_cons_of_neg]
    · omega
    · rw [l.owed_unasked htype]
      exact Bool.false_ne_true
  | @settle _ d before item behind follow ack returncodes hack _ hid hsettles hitems _ hlog =>
    obtain ⟨new, hlog, htells⟩ := hlog
    obtain ⟨r, s, hr, hs, hd⟩ := hsettles.log_eq
    have hbefore := hsettles.items
    have hmark : Marked item := by
      apply hmarked
      rw [show c.outbox.items = _ from hbefore]
      simp
    have hle := l.settles returncodes hack hsettles hid hmark
    have hcount : new.countP (fun r => l.closes r.event) =
        (ack.tells c.incoming.packetId returncodes).countP l.closes := by
      rw [← htells, List.countP_map]
      rfl
    rw [Solvent] at hc ⊢
    rw [show c.outbox.items = _ from hbefore, List.countP_append, List.countP_cons] at hc
    rw [List.countP_singleton] at hle
    rw [hitems, hsettles.rest, hlog, hd, List.countP_append, List.countP_append, List.countP_append,
      List.countP_append, hcount,
      List.countP_cons_of_neg (by rw [hr, closes_of_not_isAnswer l rfl]; exact Bool.false_ne_true),
      List.countP_cons_of_neg (by rw [hs, closes_of_not_isAnswer l rfl]; exact Bool.false_ne_true)]
    have hopens : c.log.countP (fun r => l.opens r.event) ≤ (r :: s :: c.log).countP fun r => l.opens r.event :=
      ((List.sublist_cons_self s c.log).trans (List.sublist_cons_self r _)).countP_le
    change (ack.tells c.incoming.packetId returncodes).countP l.closes + _ ≤ _ at hle
    omega

/-- **The books balance** in every run. -/
theorem run_solvent (env : Env cfg) (generatedClientId : CString) (actions : List Action)
    (hlawful : ∀ r ∈ ((new cfg generatedClientId).run env actions).log, r.event.isLawful) :
    ((new cfg generatedClientId).run env actions).Solvent l := by
  refine (run_deal_invariant env (fun r => r.event.isLawful)
    (fun c => (∀ item ∈ c.outbox.items, Marked item) ∧ c.Solvent l) generatedClientId ?_ ?_ actions hlawful).2
  · exact ⟨fun _ hmem => absurd hmem List.not_mem_nil, le_rfl⟩
  · rintro c c' h hlawful hproper ⟨hmarked, hc⟩
    exact ⟨h.marked hlawful hproper hmarked, h.solvent l hlawful hproper hmarked hc⟩

/-! ### The ledger of messages -/

theorem isFor_iff {item : OutgoingPacket} {type : MQTTPacketType} {packetId : UInt16} :
    item.isFor type packetId ↔ item.packet.packetType = type ∧ item.packet.packetId = packetId := by
  rw [OutgoingPacket.isFor, OutgoingPacket.isType, decide_eq_true_iff, decide_eq_true_iff]

theorem isMessage_iff {item : OutgoingPacket} {packetId : UInt16} : item.isMessage packetId ↔
    item.packet.packetId = packetId ∧ (item.packet.packetType = PacketType.PUBLISH ∧ 0 < item.qos ∨
      item.packet.packetType = PacketType.PUBREL) := by
  rw [OutgoingPacket.isMessage, decide_eq_true_iff, isFor_iff, isFor_iff]
  tauto

/-- A packet of another type is no message. -/
theorem not_isMessage {item : OutgoingPacket} (hpublish : item.packet.packetType ≠ PacketType.PUBLISH)
    (hpubrel : item.packet.packetType ≠ PacketType.PUBREL) (packetId : UInt16) :
    item.isMessage packetId = false := by
  rw [← Bool.not_eq_true, isMessage_iff]
  rintro ⟨-, ⟨htype, -⟩ | htype⟩
  · exact hpublish htype
  · exact hpubrel htype

/-- A type that is not in a list is not that of a packet whose type is. -/
theorem packetType_ne {packet : Packet} {type : MQTTPacketType} {types : List MQTTPacketType}
    (h : packet.packetType ∈ types) (hnot : type ∉ types) : packet.packetType ≠ type := by
  rintro rfl
  exact hnot h

theorem isMessage_touched (packetId : UInt16) {item item' : OutgoingPacket} (hp : Proper item.packet)
    (h : Touched cfg item item') : item'.isMessage packetId = item.isMessage packetId := by
  rw [OutgoingPacket.isMessage, OutgoingPacket.isMessage, h.isFor hp, h.isFor hp, h.qos hp]

/-- A PUBLISH as it is built is a message with its packet id only if it is to be acknowledged. -/
theorem publish_isMessage {packet : Packet} {packetId other : UInt16} {qos : Byte} {retain : Bool} {added : ℕ}
    (hqos : qos ≤ 2) (hid : packet.packetId = if qos = 0 then 0 else packetId)
    (h : packet.data = [] ∨ packet.data.head? = some (Packet.publishByte qos retain))
    (hmessage : OutgoingPacket.isMessage other ⟨0, packet, added⟩) : packetId = other ∧ 0 < qos := by
  obtain ⟨hother, htype⟩ := isMessage_iff.mp hmessage
  have hpublish : packet.packetType = PacketType.PUBLISH ∧ 0 < publishQos (packet.data.headD 0) := by
    rcases htype with htype | htype
    · exact htype
    · rcases Packet.packetType_of_begins hqos h with hbegins | hbegins <;> rw [htype] at hbegins <;>
        exact absurd hbegins (by decide)
  rcases qos_of_begins hqos h with hsame | hzero
  · have hpos : 0 < qos := hsame ▸ hpublish.2
    rw [if_neg (UInt8.pos_iff_ne_zero.mp hpos)] at hid
    exact ⟨hid.symm.trans hother, hpos⟩
  · rw [hzero] at hpublish
    exact absurd hpublish.1 (by decide)

theorem isPublish_requested (packetId : UInt16) {c : MqttClient cfg} {packet : Packet} {event : Event}
    {added : ℕ} (h : c.Requested packet event) (hlawful : event.isLawful)
    (hmessage : OutgoingPacket.isMessage packetId ⟨0, packet, added⟩) : event.isPublish packetId := by
  have hother : ∀ {type : MQTTPacketType}, packet.packetType = type ∨ packet.packetType = 0 →
      type ≠ PacketType.PUBLISH ∧ type ≠ PacketType.PUBREL → event.isPublish packetId := by
    intro type htype hne
    have hnot : OutgoingPacket.isMessage packetId ⟨0, packet, added⟩ = false := by
      apply not_isMessage
      · rcases htype with htype | htype <;> rw [htype]
        · exact hne.1
        · decide
      · rcases htype with htype | htype <;> rw [htype]
        · exact hne.2
        · decide
    rw [hnot] at hmessage
    cases hmessage
  cases h with
  | publish _ _ hpacket =>
    obtain ⟨alloc, hbuild⟩ := hpacket
    have hqos := of_decide_eq_true hlawful
    exact decide_eq_true (publish_isMessage hqos (Packet.publish_built hbuild).2.1
      (Packet.publish_begins hqos hbuild) hmessage)
  | publishChunked _ _ hpacket =>
    obtain ⟨alloc, hbuild⟩ := hpacket
    have hqos := of_decide_eq_true hlawful
    exact decide_eq_true (publish_isMessage hqos (Packet.publishChunked_built hbuild).2.1
      (Packet.publishChunked_begins hqos hbuild) hmessage)
  | subscribe _ _ hpacket =>
    obtain ⟨alloc, hbuild⟩ := hpacket
    exact hother (Packet.subscribe_built hbuild).2.2.2 (by decide)
  | unsubscribe _ _ hpacket =>
    obtain ⟨alloc, hbuild⟩ := hpacket
    exact hother (Packet.unsubscribe_built hbuild).2.2.2 (by decide)
  | ping _ hpacket =>
    obtain ⟨alloc, hbuild⟩ := hpacket
    exact hother (Packet.control_built hbuild).2.2.2 (by decide)

theorem isMessage_unasked (packetId : UInt16) {item : OutgoingPacket} (h : item.packet.packetType ∈ unasked) :
    item.isMessage packetId = false :=
  not_isMessage (packetType_ne h (by decide)) (packetType_ne h (by decide)) packetId

/-- A PUBREL takes the place of its PUBLISH, and the user is told when a message leaves the queue. -/
theorem isMessage_settles (packetId : UInt16) {c d : MqttClient cfg} {ack : Ack}
    {before behind follow : List OutgoingPacket} {item : OutgoingPacket} (returncodes : List Byte)
    (h : Settles ack before item behind follow c d) (hid : c.incoming.packetId ≠ 0) (hmarked : Marked item) :
    (ack.tells c.incoming.packetId returncodes).countP (·.isOnPublish packetId) +
      follow.countP (·.isMessage packetId) ≤ [item].countP (·.isMessage packetId) := by
  obtain ⟨htype, hitem⟩ := isFor_iff.mp h.acknowledged
  -- an item that is acknowledged as a message is one
  have howed : ack.request = PacketType.PUBLISH ∨ ack.request = PacketType.PUBREL →
      c.incoming.packetId = packetId → item.isMessage packetId := by
    intro hrequest heq
    refine isMessage_iff.mpr ⟨hitem.trans heq, ?_⟩
    rcases hrequest with hrequest | hrequest
    · have hpublish := htype.trans hrequest
      exact .inl ⟨hpublish, hmarked (decide_eq_true hpublish) (hitem ▸ hid)⟩
    · exact .inr (htype.trans hrequest)
  -- the end of an exchange
  have hends : ack.request = PacketType.PUBLISH ∨ ack.request = PacketType.PUBREL →
      [Event.onPublish c.incoming.packetId].countP (·.isOnPublish packetId) ≤
        [item].countP (·.isMessage packetId) := by
    intro hrequest
    rw [List.countP_singleton, List.countP_singleton]
    split_ifs with hclosed hnot
    · exact le_rfl
    · exact absurd (howed hrequest (of_decide_eq_true hclosed)) hnot
    · exact Nat.zero_le _
    · exact le_rfl
  cases ack with
  | puback =>
    rw [h.follow_eq_nil rfl]
    exact hends (.inl rfl)
  | pubcomp =>
    rw [h.follow_eq_nil rfl]
    exact hends (.inr rfl)
  | suback | unsuback =>
    rw [h.follow_eq_nil rfl]
    exact Nat.zero_le _
  | pubrec =>
    rw [show Ack.pubrec.tells c.incoming.packetId returncodes = [] from rfl, List.countP_nil, Nat.zero_add]
    rcases h.follow with rfl | ⟨type, next, hnext, rfl, -⟩
    · exact Nat.zero_le _
    · rw [List.countP_singleton, List.countP_singleton]
      split_ifs with hmessage hnot
      · exact le_rfl
      · obtain ⟨-, -, hsame, -⟩ := h.mem_follow List.mem_cons_self
        exact absurd (howed (.inl rfl) (hsame.symm.trans (isMessage_iff.mp hmessage).1)) hnot
      · exact Nat.zero_le _
      · exact le_rfl
  | pubrel =>
    have hnone : follow.countP (·.isMessage packetId) = 0 := by
      rw [List.countP_eq_zero]
      intro next hmem
      obtain ⟨type, htype, -, hbyte⟩ := h.mem_follow hmem
      cases htype
      rw [not_isMessage (by rw [hbyte]; decide) (by rw [hbyte]; decide)]
      exact Bool.false_ne_true
    rw [hnone]
    exact Nat.zero_le _

theorem isAnswer_of_isOnPublish {packetId : UInt16} {event : Event} (h : event.isOnPublish packetId) :
    event.isAnswer := by
  cases event <;> first | rfl | cases h

/-- **The messages** with a packet id. -/
def messages (cfg : Config) (packetId : UInt16) : Ledger cfg where
  owed := (·.isMessage packetId)
  opens := (·.isPublish packetId)
  closes := (·.isOnPublish packetId)
  owed_touched := isMessage_touched packetId
  owed_unasked := isMessage_unasked packetId
  opens_requested := isPublish_requested packetId
  isAnswer_closes := isAnswer_of_isOnPublish
  settles returncodes _ := isMessage_settles packetId returncodes

/-! ### The ledger of subscriptions -/

theorem isSubscribe_unasked (packetId : UInt16) {item : OutgoingPacket} (h : item.packet.packetType ∈ unasked) :
    item.isFor PacketType.SUBSCRIBE packetId = false := by
  rw [← Bool.not_eq_true, isFor_iff]
  rintro ⟨htype, -⟩
  exact packetType_ne h (by decide) htype

theorem isSubscribe_requested (packetId : UInt16) {c : MqttClient cfg} {packet : Packet} {event : Event}
    {added : ℕ} (h : c.Requested packet event) (hlawful : event.isLawful)
    (hsubscribe : OutgoingPacket.isFor PacketType.SUBSCRIBE packetId ⟨0, packet, added⟩) :
    event.isSubscribe packetId := by
  obtain ⟨htype, hid⟩ := isFor_iff.mp hsubscribe
  have hother : ∀ {type : MQTTPacketType}, packet.packetType = type ∨ packet.packetType = 0 →
      type ≠ PacketType.SUBSCRIBE → event.isSubscribe packetId := by
    rintro type (rfl | hzero) hne
    · exact absurd htype hne
    · rw [show packet.packetType = _ from htype] at hzero
      exact absurd hzero (by decide)
  cases h with
  | publish _ _ hpacket =>
    obtain ⟨alloc, hbuild⟩ := hpacket
    have hqos := of_decide_eq_true hlawful
    exact hother ((Packet.publish_built hbuild).2.2.2 hqos) (by decide)
  | publishChunked _ _ hpacket =>
    obtain ⟨alloc, hbuild⟩ := hpacket
    have hqos := of_decide_eq_true hlawful
    exact hother ((Packet.publishChunked_built hbuild).2.2.2 hqos) (by decide)
  | subscribe _ _ hpacket =>
    obtain ⟨alloc, hbuild⟩ := hpacket
    exact decide_eq_true ((Packet.subscribe_built hbuild).2.1.symm.trans hid)
  | unsubscribe _ _ hpacket =>
    obtain ⟨alloc, hbuild⟩ := hpacket
    exact hother (Packet.unsubscribe_built hbuild).2.2.2 (by decide)
  | ping _ hpacket =>
    obtain ⟨alloc, hbuild⟩ := hpacket
    exact hother (Packet.control_built hbuild).2.2.2 (by decide)

/-- The user is told when a SUBSCRIBE leaves the queue. -/
theorem isSubscribe_settles (packetId : UInt16) {c d : MqttClient cfg} {ack : Ack}
    {before behind follow : List OutgoingPacket} {item : OutgoingPacket} (returncodes : List Byte)
    (h : Settles ack before item behind follow c d) :
    (ack.tells c.incoming.packetId returncodes).countP (·.isOnSubscribe packetId) +
      follow.countP (·.isFor PacketType.SUBSCRIBE packetId) ≤
        [item].countP (·.isFor PacketType.SUBSCRIBE packetId) := by
  have hnone : follow.countP (·.isFor PacketType.SUBSCRIBE packetId) = 0 := by
    rw [List.countP_eq_zero]
    intro next hmem hfor
    obtain ⟨type, htype, -, hbyte⟩ := h.mem_follow hmem
    rw [(isFor_iff.mp hfor).1] at hbyte
    cases ack <;> cases htype <;> exact absurd hbyte (by decide)
  rw [hnone, Nat.add_zero]
  cases ack with
  | suback =>
    rw [Ack.tells, List.countP_singleton, List.countP_singleton]
    split_ifs with hclosed hnot
    · exact le_rfl
    · rw [← of_decide_eq_true hclosed] at hnot
      exact absurd h.acknowledged hnot
    · exact Nat.zero_le _
    · exact le_rfl
  | _ => exact Nat.zero_le _

theorem isAnswer_of_isOnSubscribe {packetId : UInt16} {event : Event} (h : event.isOnSubscribe packetId) :
    event.isAnswer := by
  cases event <;> first | rfl | cases h

/-- **The subscriptions** with a packet id. -/
def subscriptions (cfg : Config) (packetId : UInt16) : Ledger cfg where
  owed := (·.isFor PacketType.SUBSCRIBE packetId)
  opens := (·.isSubscribe packetId)
  closes := (·.isOnSubscribe packetId)
  owed_touched hp h := h.isFor hp PacketType.SUBSCRIBE packetId
  owed_unasked := isSubscribe_unasked packetId
  opens_requested := isSubscribe_requested packetId
  isAnswer_closes := isAnswer_of_isOnSubscribe
  settles returncodes _ h _ _ := isSubscribe_settles packetId returncodes h

/-- **Acknowledgements are conserved**: in every run whose messages are of quality 0, 1 or 2, and for every
packet id. -/
theorem run_conserves (env : Env cfg) (generatedClientId : CString) (actions : List Action)
    (hlawful : ∀ r ∈ ((new cfg generatedClientId).run env actions).log, r.event.isLawful) (packetId : UInt16) :
    let c := (new cfg generatedClientId).run env actions
    c.log.countP (·.event.isOnPublish packetId) + c.outbox.items.countP (·.isMessage packetId) ≤
        c.log.countP (·.event.isPublish packetId) ∧
      c.log.countP (·.event.isOnSubscribe packetId) +
          c.outbox.items.countP (·.isFor PacketType.SUBSCRIBE packetId) ≤
        c.log.countP (·.event.isSubscribe packetId) :=
  ⟨run_solvent (messages cfg packetId) env generatedClientId actions hlawful,
    run_solvent (subscriptions cfg packetId) env generatedClientId actions hlawful⟩

/-- A server that acknowledges a message and a subscription, each of them twice. -/
def repeatingScript : Script where
  read := [(9, [0x20, 2, 1, 0]), (23, [0x40, 2, 0, 1, 0x40, 2, 0, 1, 0x90, 3, 0, 2, 1, 0x90, 3, 0, 2, 1])]

/-- A client that asks for both. -/
def repeatingActions : List Action :=
  [.call .connect, .loop, .loop, .call (.publish ⟨[0x6d], by decide⟩ 1 false [7]),
    .call (.subscribe ⟨[0x73], by decide⟩ 0 []), .loop]

theorem run_conserves_repeating :
    let c := repeatingScript.run repeatingActions
    c.log.countP (·.event.isOnPublish 1) + c.outbox.items.countP (·.isMessage 1) ≤
        c.log.countP (·.event.isPublish 1) ∧
      c.log.countP (·.event.isOnSubscribe 1) + c.outbox.items.countP (·.isFor PacketType.SUBSCRIBE 1) ≤
        c.log.countP (·.event.isSubscribe 1) := by
  apply run_conserves
  decide +kernel

example : (repeatingScript.run repeatingActions).log.countP (·.event.isOnPublish 1) = 1 := by decide +kernel

end MqttClient

end EspMqttClient
