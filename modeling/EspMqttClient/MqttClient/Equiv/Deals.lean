/-
  What a step does with the packets that wait for an answer.

  A `Deal` says it of the whole outbox at once: packets are given up, a packet id is used up, a packet is added
  on request or by the client itself, or an acknowledgement settles one.  Every step is a deal (`Step.deal`), so
  what is said of all requests and their answers is shown for the five of them.
-/
import EspMqttClient.Data.Thins
import EspMqttClient.MqttClient.Equiv.Acks
import EspMqttClient.MqttClient.Equiv.Queued

namespace EspMqttClient

/-! ### Acknowledgements -/

/-- The type of an acknowledgement. -/
def Ack.type : Ack → MQTTPacketType
  | puback => PacketType.PUBACK
  | pubrec => PacketType.PUBREC
  | pubrel => PacketType.PUBREL
  | pubcomp => PacketType.PUBCOMP
  | suback => PacketType.SUBACK
  | unsuback => PacketType.UNSUBACK

/-- What the user is told of an acknowledgement. -/
def Ack.tells (packetId : UInt16) (returncodes : List Byte) : Ack → List Event
  | puback | pubcomp => [.onPublish packetId]
  | pubrec | pubrel => []
  | suback => [.onSubscribe packetId returncodes]
  | unsuback => [.onUnsubscribe packetId]

/-- Anything but a request, a packet id and what the user is told of an answer. -/
def Event.isIdle : Event → Bool
  | .publish .. | .publishChunked .. | .subscribe _ | .unsubscribe _ | .nextPacketId _ | .onPublish _
  | .onSubscribe .. => false
  | _ => true

namespace MqttClient

variable {cfg : Config} {env : Env cfg}

/-! ### Deals -/

/-- What becomes of a packet that a queue loses without an answer to it: it was sent and is not to be
acknowledged, it is cleared away, or an UNSUBACK hits it. -/
inductive Dropped (log : Log) (item : OutgoingPacket) : Prop
  | sent (h : item.packet.removable)
  | cleared {r : Record} {clearData : ℕ} (hr : r ∈ log) (hevent : r.event = .clearQueue clearData)
      (hle : clearData ≤ 2) (hkeeps : keeps clearData item = false)
  | unsuback {r : Record} {report : Parser.Report} (hr : r ∈ log) (hevent : r.event = .packet report)
      (htype : report.packetType &&& 0xF0 = PacketType.UNSUBACK)

/-- The packet, perhaps after it was read and marked as a duplicate, is dropped. -/
def GivenUp (cfg : Config) (log : Log) (item : OutgoingPacket) : Prop :=
  ∃ item', Touched cfg item item' ∧ Dropped log item'

/-- The types of the packets that nobody asked for. -/
def unasked : List MQTTPacketType :=
  [PacketType.CONNECT, PacketType.PINGREQ, PacketType.DISCONNECT, PacketType.PUBACK, PacketType.PUBREC, 0]

inductive Deal : MqttClient cfg → MqttClient cfg → Prop
  | thins {c c'} (hitems : Thins (Touched cfg) (GivenUp cfg c'.log) c.outbox.items c'.outbox.items)
      (hpacketId : c'.packetId = c.packetId) (hgrows : Grows Event.isIdle c c') : Deal c c'
  | number {c} : Deal c c.getNextPacketId.2
  | request {c c₁ packet event} (hnumber : c₁ = c ∨ c₁ = c.getNextPacketId.2)
      (hid : packet.packetId ≠ 0 → c₁ = c.getNextPacketId.2 ∧ packet.packetId = c.getNextPacketId.1)
      (h : c₁.Requested packet event) : Deal c ((c₁.push packet).asked.note event)
  | add {c c' packet} (hbuilt : Built cfg packet) (htype : packet.packetType ∈ unasked)
      (hitems : c'.outbox.items.Perm (⟨0, packet, c.tick⟩ :: c.outbox.items))
      (hpacketId : c'.packetId = c.packetId) (hgrows : Grows Event.isIdle c c') : Deal c c'
  | settle {c c' d before item behind follow} (ack : Ack) (returncodes : List Byte) (hack : ack ≠ .unsuback)
      (htype : c.incomingType = ack.type) (hid : c.incoming.packetId ≠ 0)
      (h : Settles ack before item behind follow c.received d) (hitems : c'.outbox.items = d.outbox.items)
      (hpacketId : c'.packetId = c.packetId)
      (hlog : ∃ new : Log, c'.log = new ++ d.log ∧
        new.map (·.event) = ack.tells c.incoming.packetId returncodes) : Deal c c'

/-! ### Packets that are given up -/

theorem Dropped.givenUp {log : Log} {item : OutgoingPacket} (h : Dropped log item) : GivenUp cfg log item :=
  ⟨item, .refl item, h⟩

theorem GivenUp.touched {log : Log} {item item' : OutgoingPacket} (htouched : Touched cfg item item')
    (h : GivenUp cfg log item') : GivenUp cfg log item := by
  obtain ⟨item'', htouched', hdropped⟩ := h
  exact ⟨item'', htouched.trans htouched', hdropped⟩

/-- The second queue is what is left of the first one. -/
abbrev Leaves (cfg : Config) (log : Log) (l l' : CursorList OutgoingPacket) : Prop :=
  Thins (Touched cfg) (GivenUp cfg log) l.items l'.items

theorem leaves_of_items {log : Log} {l l' : CursorList OutgoingPacket} (h : l'.items = l.items) :
    Leaves cfg log l l' := by
  rw [Leaves, h]
  exact .refl Touched.refl _

theorem Leaves.trans {log : Log} {l l' l'' : CursorList OutgoingPacket} (h : Leaves cfg log l l')
    (h' : Leaves cfg log l' l'') : Leaves cfg log l l'' :=
  Thins.trans (R := Touched cfg) Touched.trans GivenUp.touched h h'

/-- Only the packet under the cursor was touched. -/
theorem leaves_of_touched (log : Log) {l : CursorList OutgoingPacket} {item item' : OutgoingPacket}
    {rest : List OutgoingPacket} (h : l.pending = item :: rest) (htouched : Touched cfg item item') :
    Leaves cfg log l ⟨l.passed, item' :: rest⟩ := by
  rw [Leaves, CursorList.items, CursorList.items, h]
  exact (Thins.refl Touched.refl _).append (.keep htouched (.refl Touched.refl _))

theorem sendPacket_leaves (env : Env cfg) (log : Log) (c : MqttClient cfg) :
    Leaves cfg log c.outbox (c.sendPacket env).2.outbox := by
  rcases sendPacket_cases env c with ⟨-, h⟩ | ⟨item, rest, available, packet, hpending, havailable, h⟩
  · rw [h]
    exact leaves_of_items rfl
  · have hreads := Packet.reads_of_available havailable
    rcases h with ⟨-, h⟩ | ⟨-, timeSent, activity, h⟩ <;> rw [h]
    · exact leaves_of_touched log hpending ⟨rfl, hreads⟩
    · exact leaves_of_touched log hpending ⟨rfl, hreads⟩

theorem leave_leaves (log : Log) {l : CursorList OutgoingPacket} {item : OutgoingPacket}
    (h : l.getCurrent = some item) : Leaves cfg log l (leave l item) := by
  obtain ⟨rest, hpending⟩ := getCurrent_eq_some.mp h
  rw [leave_eq hpending]
  split_ifs with hremovable
  · rw [Leaves, CursorList.items, CursorList.items, hpending]
    exact (Thins.refl Touched.refl _).append (.drop (Dropped.sent hremovable).givenUp (.refl Touched.refl _))
  · have htouched : Leaves cfg log l _ := leaves_of_touched log hpending (kept_touched item)
    rw [Leaves, CursorList.items, CursorList.items, List.append_assoc]
    exact htouched

theorem advanceOutbox_leaves (log : Log) (c : MqttClient cfg) :
    Leaves cfg log c.outbox c.advanceOutbox.2.outbox := by
  rcases advanceOutbox_cases c with ⟨h, -⟩ | ⟨item, hcurrent, -, h⟩ <;> rw [h]
  · exact leaves_of_items rfl
  · show Leaves cfg log c.outbox (leave (c.farewell item.packet).outbox item)
    rw [outbox_farewell]
    exact leave_leaves log hcurrent

theorem sendRound_leaves (env : Env cfg) (log : Log) (c : MqttClient cfg) :
    Leaves cfg log c.outbox (c.sendRound env).outbox := by
  rw [sendRound]
  split_ifs
  · exact (sendPacket_leaves env log c).trans (advanceOutbox_leaves log _)
  · exact sendPacket_leaves env log c

/-- What is cleared away was noted to be. -/
theorem clearQueue_leaves {log : Log} (c : MqttClient cfg) {clearData : ℕ} (hle : clearData ≤ 2)
    (hlog : (c.clearQueue clearData).log ⊆ log) :
    Leaves cfg log c.outbox (c.clearQueue clearData).outbox := by
  rw [Leaves, outbox_clearQueue, CursorList.items_filter]
  refine .filter Touched.refl (fun item hkeeps => ?_) _
  rw [clearQueue_eq] at hlog
  exact (Dropped.cleared (hlog List.mem_cons_self) rfl hle hkeeps).givenUp

theorem admitted_leaves {log : Log} (c : MqttClient cfg) (hlog : c.admitted.log ⊆ log) :
    Leaves cfg log c.outbox c.admitted.outbox := by
  have hadvance : Leaves cfg log c.outbox c.connectedNow.advanceOutbox.2.outbox :=
    advanceOutbox_leaves log c.connectedNow
  rw [admitted] at hlog ⊢
  split_ifs at hlog ⊢
  · exact hadvance.trans (clearQueue_leaves _ (by decide) hlog)
  · exact hadvance

/-! ### Steps are deals -/

theorem mem_unasked {type built : MQTTPacketType} (h : built = type ∨ built = 0) (htype : type ∈ unasked) :
    built ∈ unasked := by
  rcases h with rfl | rfl
  · exact htype
  · decide

/-- A packet is added at the back that nobody asked for. -/
theorem push_deal {c c' : MqttClient cfg} {packet : Packet} (hbuilt : Built cfg packet)
    (htype : packet.packetType ∈ unasked) (houtbox : c'.outbox = c.outbox.emplace ⟨0, packet, c.tick⟩)
    (hpacketId : c'.packetId = c.packetId) (hgrows : Grows Event.isIdle c c') : Deal c c' := by
  refine .add hbuilt htype ?_ hpacketId hgrows
  rw [houtbox, CursorList.items_emplace]
  exact List.perm_append_singleton _ _

/-- A PUBACK or a PUBREC is added, or there is no memory for it. -/
theorem answerPublish_deal {c c' : MqttClient cfg}
    (hid : Parser.hasPacketId c.incoming.packetType → c.incoming.packetId ≠ 0)
    (houtbox : c'.outbox = (c.received.answerPublish env).2.outbox) (hpacketId : c'.packetId = c.packetId)
    (hgrows : Grows Event.isIdle c c') : Deal c c' := by
  have hnone : c'.outbox = c.outbox → Deal c c' := fun h =>
    .thins (leaves_of_items (by rw [h])) hpacketId hgrows
  have hack : ∀ {type : MQTTPacketType}, type ∈ [PacketType.PUBACK, PacketType.PUBREC] →
      c.incoming.packetId ≠ 0 →
      c'.outbox = (c.received.addPacket env fun alloc =>
        Packet.ack cfg alloc type c.incoming.packetId).2.outbox →
      Deal c c' := by
    intro type htype hne h
    rcases addPacket_cases env c.received fun alloc => Packet.ack cfg alloc type c.incoming.packetId with
      ⟨packet, hbuild, hadd⟩ | ⟨-, hadd⟩ <;> rw [hadd] at h
    · have hbuilt := Packet.ack_built hbuild
      simp only [List.mem_cons, List.not_mem_nil, or_false] at htype
      refine push_deal (.ack ?_ hne ⟨_, hbuild⟩) ?_ h hpacketId hgrows
      · rcases htype with rfl | rfl <;> decide
      · rw [hbuilt.2.2.2]
        rcases htype with rfl | rfl <;> decide
    · exact hnone h
  rw [answerPublish] at houtbox
  dsimp only at houtbox
  split_ifs at houtbox with h1 _ h2
  · exact hack (by simp) (hid (hasPacketId_of_qos (.inl h1))) houtbox
  · exact hnone houtbox
  · exact hack (by simp) (hid (hasPacketId_of_qos (.inr h2))) houtbox
  · exact hnone houtbox
  · exact hnone houtbox

/-- A packet id that a PUBLISH is stored under was handed out for it. -/
theorem publishPacketId_spec (c : MqttClient cfg) (qos : Byte) {packetId : UInt16}
    (hid : packetId = if qos = 0 then 0 else (c.publishPacketId qos).1) :
    ((c.publishPacketId qos).2 = c ∨ (c.publishPacketId qos).2 = c.getNextPacketId.2) ∧
      (packetId ≠ 0 → (c.publishPacketId qos).2 = c.getNextPacketId.2 ∧ packetId = c.getNextPacketId.1) := by
  by_cases hqos : qos = 0
  · rw [if_pos hqos] at hid
    rw [hid, publishPacketId, if_neg (by rw [hqos]; decide)]
    exact ⟨.inl rfl, fun h => absurd rfl h⟩
  · rw [if_neg hqos] at hid
    rw [hid, publishPacketId, if_pos (UInt8.pos_iff_ne_zero.mpr hqos)]
    exact ⟨.inr rfl, fun _ => ⟨rfl, rfl⟩⟩

@[simp] theorem packetId_sendPacket (c : MqttClient cfg) : (c.sendPacket env).2.packetId = c.packetId := by
  rw [sendPacket]
  split
  · rfl
  · dsimp only
    split_ifs <;> rfl

@[simp] theorem packetId_advanceOutbox (c : MqttClient cfg) : c.advanceOutbox.2.packetId = c.packetId := by
  rcases advanceOutbox_cases c with ⟨h, -⟩ | ⟨item, -, -, h⟩ <;> rw [h]
  rw [farewell]
  split_ifs <;> rfl

@[simp] theorem packetId_sendRound (c : MqttClient cfg) : (c.sendRound env).packetId = c.packetId := by
  rw [sendRound]
  split_ifs <;> simp

@[simp] theorem packetId_admitted (c : MqttClient cfg) : c.admitted.packetId = c.packetId := by
  have hadvance : c.connectedNow.advanceOutbox.2.packetId = c.packetId := packetId_advanceOutbox c.connectedNow
  rw [admitted]
  split_ifs
  · exact hadvance
  · exact hadvance

@[simp] theorem packetId_addPacket (c : MqttClient cfg) (build : Alloc → Error × Packet) :
    (c.addPacket env build).2.packetId = c.packetId := by
  rcases addPacket_cases env c build with ⟨_, -, h⟩ | ⟨-, h⟩ <;> rw [h] <;> rfl

@[simp] theorem packetId_answerPublish (c : MqttClient cfg) : (c.answerPublish env).2.packetId = c.packetId := by
  rcases answerPublish_cases env c with h | ⟨_, -, h⟩ <;> rw [h]
  exact packetId_addPacket c _

/-- The types of an exchange. -/
theorem ack_of_finishing {type request : MQTTPacketType} (h : (type, request) ∈ finishing) :
    ∃ ack : Ack, ack.type = type ∧ ack.request = request ∧ ack ≠ .unsuback ∧
      ∀ packetId returncodes, ack.tells packetId returncodes = [.onPublish packetId] := by
  simp only [finishing, List.mem_cons, Prod.mk.injEq, List.not_mem_nil, or_false] at h
  rcases h with ⟨rfl, rfl⟩ | ⟨rfl, rfl⟩
  · exact ⟨.puback, rfl, rfl, Ack.noConfusion, fun _ _ => rfl⟩
  · exact ⟨.pubcomp, rfl, rfl, Ack.noConfusion, fun _ _ => rfl⟩

theorem ack_of_proceeding {type request next : MQTTPacketType} (h : (type, request, next) ∈ proceeding) :
    ∃ ack : Ack, ack.type = type ∧ ack.request = request ∧ ack.next = some next ∧ ack ≠ .unsuback ∧
      ∀ packetId returncodes, ack.tells packetId returncodes = [] := by
  simp only [proceeding, List.mem_cons, Prod.mk.injEq, List.not_mem_nil, or_false] at h
  rcases h with ⟨rfl, rfl, rfl⟩ | ⟨rfl, rfl, rfl⟩
  · exact ⟨.pubrec, rfl, rfl, rfl, Ack.noConfusion, fun _ _ => rfl⟩
  · exact ⟨.pubrel, rfl, rfl, rfl, Ack.noConfusion, fun _ _ => rfl⟩

/-- **A step** is a deal. -/
theorem Step.deal {c c' : MqttClient cfg} (h : Step env c c') : Deal c c' := by
  -- nothing becomes of the outbox
  have hsame : ∀ {c c' : MqttClient cfg}, c'.outbox.items = c.outbox.items → c'.packetId = c.packetId →
      Grows Event.isIdle c c' → Deal c c' := fun hitems hpacketId hgrows =>
    .thins (leaves_of_items hitems) hpacketId hgrows
  cases h with
  | quiet h => exact hsame (by rw [h.outbox]) h.packetId (grows_of_log h.log)
  | error packetId => exact hsame rfl rfl (grows_note c rfl)
  | calls apiCalls => exact hsame rfl rfl (grows_note c rfl)
  | connect hstate hpacket =>
    obtain ⟨alloc, hbuild⟩ := hpacket
    have htype := (Packet.connect_built hbuild).2.2.2.1
    exact .add (.connect ⟨_, hbuild⟩) (mem_unasked htype (by decide)) (.refl _) rfl
      (grows_of_cons_cons rfl rfl rfl)
  | connectFailed => exact hsame rfl rfl (grows_of_log rfl)
  | disconnect force h =>
    rw [MqttClient.disconnect] at h ⊢
    split_ifs at h ⊢
    · exact hsame rfl rfl (grows_of_cons_cons rfl rfl rfl)
    · exact hsame rfl rfl (grows_of_cons_cons rfl rfl rfl)
  | nextPacketId => exact .number
  | @publish _ qos _ _ _ hstate hpacket =>
    obtain ⟨alloc, hbuild⟩ := hpacket
    obtain ⟨hnumber, hid⟩ := publishPacketId_spec c qos (Packet.publish_built hbuild).2.1
    rw [← tick_publishPacketId c qos]
    refine .request hnumber hid (.publish ?_ (publishPacketId_ne_zero c) ⟨_, hbuild⟩)
    rw [refusesPublish_publishPacketId, hstate]
  | @publishChunked _ qos _ _ _ _ hstate hpacket =>
    obtain ⟨alloc, hbuild⟩ := hpacket
    obtain ⟨hnumber, hid⟩ := publishPacketId_spec c qos (Packet.publishChunked_built hbuild).2.1
    rw [← tick_publishPacketId c qos]
    refine .request hnumber hid (.publishChunked ?_ (publishPacketId_ne_zero c) ⟨_, hbuild⟩)
    rw [refusesPublish_publishPacketId, hstate]
  | subscribe hstate hpacket =>
    obtain ⟨alloc, hbuild⟩ := hpacket
    refine .request (.inr rfl) (fun _ => ⟨rfl, (Packet.subscribe_built hbuild).2.1⟩) ?_
    exact .subscribe hstate (getNextPacketId_ne_zero c) ⟨_, hbuild⟩
  | unsubscribe hstate hpacket =>
    obtain ⟨alloc, hbuild⟩ := hpacket
    refine .request (.inr rfl) (fun _ => ⟨rfl, (Packet.unsubscribe_built hbuild).2.1⟩) ?_
    exact .unsubscribe hstate (getNextPacketId_ne_zero c) ⟨_, hbuild⟩
  | clearQueue deleteSessionData =>
    refine .thins (clearQueue_leaves c ?_ (List.Subset.refl _)) rfl (grows_of_cons rfl rfl)
    split_ifs <;> decide
  | connecting => exact hsame rfl rfl (grows_setState c rfl)
  | established => exact hsame rfl rfl (grows_setState c rfl)
  | lost fault => exact hsame rfl rfl (grows_of_cons_cons rfl rfl rfl)
  | addDisconnect _ _ hpacket =>
    obtain ⟨alloc, hbuild⟩ := hpacket
    have htype := (Packet.control_built hbuild).2.2.2
    refine push_deal (.control (by simp) ⟨_, hbuild⟩) (mem_unasked htype (by decide)) rfl rfl ?_
    exact grows_of_cons rfl rfl
  | stop => exact hsame rfl rfl (grows_of_cons_cons rfl rfl rfl)
  | close =>
    refine .thins (clearQueue_leaves c (by decide) ?_) rfl ⟨[_, _, _], rfl, by simp [Event.isIdle]⟩
    exact List.subset_cons_of_subset _ (List.subset_cons_self _ _)
  | sendConnect =>
    exact .thins (sendPacket_leaves env _ c) (packetId_sendPacket c) (grows_sendPacket c fun _ => rfl)
  | sendRound =>
    have hgrows : Grows Event.isIdle c (c.sendRound env) := grows_sendRound c (fun _ => rfl) (fun _ => rfl) rfl
    exact .thins (sendRound_leaves env _ c) (packetId_sendRound c) hgrows
  | ping _ hpacket =>
    obtain ⟨alloc, hbuild⟩ := hpacket
    have htype := (Packet.control_built hbuild).2.2.2
    refine push_deal (.control (by simp) ⟨_, hbuild⟩) (mem_unasked htype (by decide)) rfl rfl ?_
    exact grows_of_cons rfl rfl
  | timeout => exact hsame rfl rfl (grows_of_cons rfl rfl)
  | unexpected => exact hsame rfl rfl (grows_of_cons_cons rfl rfl rfl)
  | ignore => exact hsame rfl rfl (grows_of_cons rfl rfl)
  | refused => exact hsame rfl rfl (grows_of_cons_cons rfl rfl rfl)
  | accept =>
    have hgrows : Grows Event.isIdle c.received c.received.admitted :=
      grows_admitted _ (fun _ => rfl) (fun _ => rfl) rfl
    refine .thins (admitted_leaves c.received (List.subset_cons_self _ _)) (packetId_admitted c.received) ?_
    exact (grows_note c rfl).trans (hgrows.trans (grows_note _ rfl))
  | message _ _ _ _ hid =>
    have hgrows : Grows Event.isIdle c (c.received.answerPublish env).2 :=
      (grows_note c rfl).trans (grows_answerPublish c.received)
    have hpacketId := @packetId_answerPublish _ env c.received
    split_ifs
    · exact answerPublish_deal hid rfl hpacketId (hgrows.trans (grows_note _ rfl))
    · exact answerPublish_deal hid rfl hpacketId hgrows
  | finish hexchange _ htype hid hfind =>
    obtain ⟨ack, htype', hrequest, hack, htells⟩ := ack_of_finishing hexchange
    obtain ⟨item, -, hitem, hitemType, heq⟩ := findFirst_spec hfind
    have hfor : item.isFor ack.request c.received.incoming.packetId := by
      rw [hrequest]
      exact isFor_of_isType hitemType heq
    refine .settle ack [] hack (htype.trans htype'.symm) hid (remove_settles hitem hfor) rfl rfl ?_
    rw [htells]
    exact ⟨[_], rfl, rfl⟩
  | proceed hexchange _ htype hid hfind =>
    obtain ⟨ack, htype', hrequest, hnext, hack, htells⟩ := ack_of_proceeding hexchange
    obtain ⟨item, -, hitem, hitemType, heq⟩ := findFirst_spec hfind
    have hfor : item.isFor ack.request c.received.incoming.packetId := by
      rw [hrequest]
      exact isFor_of_isType hitemType heq
    have hitem : c.received.outbox.items[_]? = some item := hitem
    obtain ⟨follow, hsettles⟩ := proceed_settles env hnext hitem hfor
    refine .settle ack [] hack (htype.trans htype'.symm) hid hsettles rfl (packetId_addPacket c.received _) ?_
    rw [htells]
    exact ⟨[], rfl, rfl⟩
  | suback returncodes _ htype hid hfind =>
    obtain ⟨item, hitem, hfor⟩ := find_spec hfind
    refine .settle .suback returncodes Ack.noConfusion htype hid (remove_settles hitem hfor) rfl rfl ?_
    exact ⟨[_], rfl, rfl⟩
  | @unsuback it _ htype hid hfind =>
    obtain ⟨item, hitem, -⟩ := find_spec hfind
    refine .thins ?_ rfl ((grows_note c rfl).trans ((grows_remove c.received _ rfl).trans (grows_note _ rfl)))
    rw [show ((c.received.remove it).note _).outbox.items = c.outbox.items.eraseIdx it from
      CursorList.items_remove _ _]
    have hdropped : Dropped ((c.received.remove it).note (.onUnsubscribe c.incoming.packetId)).log item :=
      .unsuback (List.mem_cons_of_mem _ (List.mem_cons_of_mem _ List.mem_cons_self)) rfl htype
    exact Thins.eraseIdx Touched.refl hitem hdropped.givenUp

theorem Move.deal {c c' : MqttClient cfg} (h : Move env c c') : Deal c c' := by
  cases h with
  | step h => exact h.deal
  | transportConnect success => exact .thins (leaves_of_items rfl) rfl (grows_note c rfl)
  | read bytes => exact .thins (leaves_of_items rfl) rfl (grows_note c rfl)
  | parsed parser bytes => exact .thins (leaves_of_items rfl) rfl (grows_of_cons rfl rfl)

/-! ### Runs -/

/-- What a settlement notes. -/
theorem Settles.log_eq {ack : Ack} {before behind follow : List OutgoingPacket} {item : OutgoingPacket}
    {c d : MqttClient cfg} (h : Settles ack before item behind follow c.received d) :
    ∃ r s : Record, r.event = .remove before.length ∧ s.event = .packet c.parser.report ∧
      d.log = r :: s :: c.log := by
  obtain ⟨r, hr, hlog⟩ := h.log
  exact ⟨r, _, hr, rfl, hlog⟩

/-- The log only grows. -/
theorem Deal.log_suffix {c c' : MqttClient cfg} (h : Deal c c') : c.log <:+ c'.log := by
  cases h with
  | thins _ _ hgrows => exact hgrows.log_suffix
  | number => exact List.suffix_cons _ _
  | @request c₁ packet event hnumber =>
    rcases hnumber with rfl | rfl
    · exact List.suffix_cons _ _
    · exact (List.suffix_cons _ _).trans (List.suffix_cons _ _)
  | add _ _ _ _ hgrows => exact hgrows.log_suffix
  | settle ack returncodes _ _ _ hsettles _ _ hlog =>
    obtain ⟨new, hlog, -⟩ := hlog
    obtain ⟨r, s, -, -, hd⟩ := hsettles.log_eq
    rw [hlog, hd]
    exact ⟨new ++ [r, s], by simp⟩

/-- What is kept by every move as long as all that is noted meets a condition holds in every run in which all
that is noted does. -/
theorem run_move_invariant (env : Env cfg) (condition : Record → Prop) (invariant : MqttClient cfg → Prop)
    (generatedClientId : CString) (hnew : invariant (new cfg generatedClientId))
    (hmove : ∀ {c c' : MqttClient cfg}, Move env c c' → (∀ r ∈ c'.log, condition r) → c.QueuesProper →
      invariant c → invariant c')
    (actions : List Action) (h : ∀ r ∈ ((new cfg generatedClientId).run env actions).log, condition r) :
    invariant ((new cfg generatedClientId).run env actions) := by
  have hproper : (new cfg generatedClientId).QueuesProper := fun _ hmem => absurd hmem List.not_mem_nil
  have hrun := run_invariant env
    (fun c => c.QueuesProper ∧ ((∀ r ∈ c.log, condition r) → invariant c)) generatedClientId
    ⟨hproper, fun _ => hnew⟩ ?_ actions
  · exact hrun.2 h
  -- what is noted stays noted, so the condition held before the move as well
  rintro c c' hstep ⟨hproper, hc⟩
  have hsub := hstep.deal.log_suffix.subset
  exact ⟨Flows.queuesProper hstep.flows hproper,
    fun hcondition => hmove hstep hcondition hproper (hc fun r hr => hcondition r (hsub hr))⟩

/-- What is kept by every deal, likewise. -/
theorem run_deal_invariant (env : Env cfg) (condition : Record → Prop) (invariant : MqttClient cfg → Prop)
    (generatedClientId : CString) (hnew : invariant (new cfg generatedClientId))
    (hdeal : ∀ {c c' : MqttClient cfg}, Deal c c' → (∀ r ∈ c'.log, condition r) → c.QueuesProper →
      invariant c → invariant c')
    (actions : List Action) (h : ∀ r ∈ ((new cfg generatedClientId).run env actions).log, condition r) :
    invariant ((new cfg generatedClientId).run env actions) :=
  run_move_invariant env condition invariant generatedClientId hnew (fun hmove => hdeal hmove.deal) actions h

end MqttClient

end EspMqttClient
