/-
  Packet ids in use.

  The counter does not look at the outbox: it hands out 1, 2, ..., 65535, 1, ... (`Numbered`).  What
  it hands out is used for one packet, and a PUBREL takes the packet id of its PUBLISH over, so
  every packet with a packet id of the client has a call of `_getNextPacketId` of its own and two of
  them share a packet id only if the counter has gone all the way round in between (`run_draws`).
-/
import EspMqttClient.Data.Drawn
import EspMqttClient.MqttClient.Equiv.Tally

namespace EspMqttClient

/-! ### Packet ids -/

/-- The types of the packets whose packet id the client chooses. -/
def ownTypes : List MQTTPacketType :=
  [PacketType.PUBLISH, PacketType.PUBREL, PacketType.SUBSCRIBE, PacketType.UNSUBSCRIBE]

/-- The packet id that the client chose. -/
def OutgoingPacket.ownId (item : OutgoingPacket) : Option UInt16 :=
  if item.packet.packetType ∈ ownTypes ∧ item.packet.packetId ≠ 0 then some item.packet.packetId else none

/-- The packet id that is handed out. -/
def Event.handsOut : Event → Option UInt16
  | .nextPacketId packetId => some packetId
  | _ => none

/-- The packet ids that were handed out, oldest first. -/
def Log.packetIds (log : Log) : List UInt16 := (log.filterMap (·.event.handsOut)).reverse

/-- The packet id that is handed out after `n` others. -/
def idAt (n : ℕ) : UInt16 := .ofNat (n % 65535 + 1)

/-- The counter when `n` packet ids have been handed out. -/
def counterAt : ℕ → UInt16
  | 0 => 0
  | n + 1 => idAt n

theorem toNat_idAt (n : ℕ) : (idAt n).toNat = n % 65535 + 1 :=
  UInt16.toNat_ofNat_of_lt' (show _ < 2 ^ 16 by omega)

theorem idAt_ne_zero (n : ℕ) : idAt n ≠ 0 := by
  rw [← UInt16.toNat_inj.ne, toNat_idAt]
  exact Nat.succ_ne_zero _

/-- The counter comes round after 65535 packet ids. -/
theorem idAt_eq_iff {i j : ℕ} : idAt i = idAt j ↔ i % 65535 = j % 65535 := by
  rw [← UInt16.toNat_inj, toNat_idAt, toNat_idAt, Nat.add_right_cancel_iff]

/-- What follows the counter, 0 left out. -/
theorem counterAt_succ (n : ℕ) :
    counterAt (n + 1) = if counterAt n + 1 = 0 then counterAt n + 1 + 1 else counterAt n + 1 := by
  cases n with
  | zero => rfl
  | succ n =>
    have hvalue : counterAt (n + 1) + 1 = UInt16.ofNat (n % 65535 + 2) := (UInt16.ofNat_add _ 1).symm
    rw [hvalue, counterAt, idAt]
    by_cases hlast : n % 65535 = 65534
    · rw [hlast, show (n + 1) % 65535 = 0 by omega]
      rfl
    · have hnext : UInt16.ofNat (n % 65535 + 2) = idAt (n + 1) := by
        rw [idAt, show (n + 1) % 65535 = n % 65535 + 1 by omega]
      rw [hnext, if_neg (idAt_ne_zero _), idAt]

/-! ### Logs -/

@[simp] theorem packetIds_append (new log : Log) :
    Log.packetIds (new ++ log) = Log.packetIds log ++ Log.packetIds new := by
  rw [Log.packetIds, List.filterMap_append, List.reverse_append, Log.packetIds, Log.packetIds]

/-- Nothing is handed out by other events. -/
theorem packetIds_of_silent {new log : Log} (h : ∀ r ∈ new, r.event.handsOut = none) :
    Log.packetIds (new ++ log) = Log.packetIds log := by
  rw [packetIds_append, show Log.packetIds new = [] from ?_, List.append_nil]
  rw [Log.packetIds, List.filterMap_eq_nil_iff.mpr h, List.reverse_nil]

theorem packetIds_cons_of_silent {r : Record} {log : Log} (h : r.event.handsOut = none) :
    Log.packetIds (r :: log) = Log.packetIds log :=
  packetIds_of_silent (List.forall_mem_singleton.mpr h)

theorem handsOut_of_isIdle {event : Event} (h : event.isIdle) : event.handsOut = none := by
  cases event <;> first | rfl | cases h

theorem handsOut_of_isAnswer {ack : Ack} {packetId : UInt16} {returncodes : List Byte} {event : Event}
    (h : event ∈ ack.tells packetId returncodes) : event.handsOut = none := by
  cases ack <;> simp only [Ack.tells, List.mem_singleton, List.not_mem_nil] at h <;> rw [h] <;> rfl

/-! ### Packet ids of packets -/

theorem ownId_eq_none {item : OutgoingPacket} (h : item.packet.packetType ∉ ownTypes) : item.ownId = none :=
  if_neg fun hboth => h hboth.1

theorem ownId_eq_some {item : OutgoingPacket} {type : MQTTPacketType} {packetId : UInt16}
    (h : item.isFor type packetId) (htype : type ∈ ownTypes) (hid : packetId ≠ 0) :
    item.ownId = some packetId := by
  obtain ⟨hitem, rfl⟩ := MqttClient.isFor_iff.mp h
  exact if_pos ⟨hitem ▸ htype, hid⟩

/-- The packet id that the client chose is that of the packet. -/
theorem ownId_packetId {item : OutgoingPacket} {packetId : UInt16} (h : item.ownId = some packetId) :
    item.packet.packetId = packetId ∧ packetId ≠ 0 := by
  rw [OutgoingPacket.ownId] at h
  split_ifs at h with hown
  cases h
  exact ⟨rfl, hown.2⟩

namespace MqttClient

variable {cfg : Config} {env : Env cfg}

theorem ownId_touched {item item' : OutgoingPacket} (h : Touched cfg item item') (hp : Proper item.packet) :
    item'.ownId = item.ownId := by
  rw [OutgoingPacket.ownId, OutgoingPacket.ownId, h.reads.packetId, h.reads.packetType hp.toFormed]

/-- The packet ids in use that the client chose. -/
def ownIds (c : MqttClient cfg) : List UInt16 := c.outbox.items.filterMap (·.ownId)

/-- What was handed out is counted, and what is in use was handed out. -/
structure Numbered (c : MqttClient cfg) : Prop where
  packetIds : c.log.packetIds = (List.range c.log.packetIds.length).map idAt
  packetId : c.packetId = counterAt c.log.packetIds.length
  ownIds : c.ownIds.Subperm c.log.packetIds

/-! ### Steps -/

/-- The next packet id is the next one of the row. -/
theorem Numbered.getNextPacketId {c : MqttClient cfg} (hc : c.Numbered) :
    c.getNextPacketId.1 = idAt c.log.packetIds.length := by
  show (if c.packetId + 1 = 0 then c.packetId + 1 + 1 else c.packetId + 1) = _
  rw [hc.packetId, ← counterAt_succ]
  rfl

theorem packetIds_getNextPacketId (c : MqttClient cfg) :
    c.getNextPacketId.2.log.packetIds = c.log.packetIds ++ [c.getNextPacketId.1] :=
  packetIds_append [_] c.log

/-- A packet id is handed out. -/
theorem Numbered.number {c : MqttClient cfg} (hc : c.Numbered) : c.getNextPacketId.2.Numbered := by
  have hids := packetIds_getNextPacketId c
  have hlength : c.getNextPacketId.2.log.packetIds.length = c.log.packetIds.length + 1 := by
    rw [hids, List.length_append, List.length_singleton]
  refine ⟨?_, ?_, ?_⟩
  · rw [hlength, List.range_succ, List.map_append, ← hc.packetIds, hids, hc.getNextPacketId]
    rfl
  · rw [hlength]
    exact hc.getNextPacketId
  · rw [hids]
    exact hc.ownIds.trans (List.sublist_append_left _ _).subperm

/-- Nothing is handed out, and no more is in use than was handed out. -/
theorem Numbered.same {c c' : MqttClient cfg} (hc : c.Numbered) (hpacketId : c'.packetId = c.packetId)
    (hlog : c'.log.packetIds = c.log.packetIds) (howns : c'.ownIds.Subperm c.log.packetIds) : c'.Numbered := by
  refine ⟨?_, ?_, ?_⟩
  · rw [hlog]
    exact hc.packetIds
  · rw [hpacketId, hlog]
    exact hc.packetId
  · rw [hlog]
    exact howns

/-- What follows an acknowledgement has the packet id of what was acknowledged, if the client chose it. -/
theorem Settles.follow_ownIds {ack : Ack} {before behind follow : List OutgoingPacket} {item : OutgoingPacket}
    {c d : MqttClient cfg} (h : Settles ack before item behind follow c d) (hack : ack ≠ .unsuback)
    (hid : c.incoming.packetId ≠ 0) :
    (follow.filterMap (·.ownId)).Sublist ([item].filterMap (·.ownId)) := by
  rcases h.follow with rfl | ⟨type, next, hnext, rfl, -⟩
  · exact List.nil_sublist _
  · obtain ⟨type', hnext', hsame, htype⟩ := h.mem_follow List.mem_cons_self
    rw [hnext, Option.some_inj] at hnext'
    subst hnext'
    cases ack with
    | pubrec =>
      cases hnext
      have hitem : item.ownId = some c.incoming.packetId := ownId_eq_some h.acknowledged (by decide) hid
      have hfollow : next.ownId = some c.incoming.packetId :=
        ownId_eq_some (isFor_iff.mpr ⟨htype, hsame⟩) (by decide) hid
      simp only [List.filterMap_cons, List.filterMap_nil, hitem, hfollow, List.Sublist.refl]
    | pubrel =>
      cases hnext
      have hfollow : next.ownId = none := ownId_eq_none (by rw [htype]; decide)
      simp only [List.filterMap_cons, List.filterMap_nil, hfollow]
      exact List.nil_sublist _
    | puback | pubcomp | suback => cases hnext
    | unsuback => exact absurd rfl hack

/-- A packet that was asked for has the packet id that was handed out for it. -/
theorem Numbered.request {c c₁ : MqttClient cfg} {packet : Packet} {event : Event} (hc : c.Numbered)
    (hnumber : c₁ = c ∨ c₁ = c.getNextPacketId.2)
    (hid : packet.packetId ≠ 0 → c₁ = c.getNextPacketId.2 ∧ packet.packetId = c.getNextPacketId.1)
    (h : c₁.Requested packet event) : ((c₁.push packet).asked.note event).Numbered := by
  have hc₁ : c₁.Numbered := by
    rcases hnumber with rfl | rfl
    · exact hc
    · exact hc.number
  have hlog : ((c₁.push packet).asked.note event).log.packetIds = c₁.log.packetIds :=
    packetIds_cons_of_silent (by cases h <;> rfl)
  refine hc₁.same rfl hlog ?_
  have hitems : ((c₁.push packet).asked.note event).outbox.items = c₁.outbox.items ++ [⟨0, packet, c₁.tick⟩] :=
    CursorList.items_emplace _ _
  rw [MqttClient.ownIds, hitems, List.filterMap_append]
  cases hown : OutgoingPacket.ownId ⟨0, packet, c₁.tick⟩ with
  | none =>
    rw [List.filterMap_cons_none hown, List.filterMap_nil, List.append_nil]
    exact hc₁.ownIds
  | some packetId =>
    -- the packet id is fresh in the row
    obtain ⟨hpacket, hne⟩ := ownId_packetId hown
    obtain ⟨rfl, hfresh⟩ := hid (hpacket ▸ hne)
    rw [List.filterMap_cons_some hown, List.filterMap_nil, packetIds_getNextPacketId, ← hfresh, hpacket,
      List.subperm_append_right]
    exact hc.ownIds

theorem Deal.numbered {c c' : MqttClient cfg} (h : Deal c c') (hproper : c.QueuesProper) (hc : c.Numbered) :
    c'.Numbered := by
  cases h with
  | thins hitems hpacketId hgrows =>
    obtain ⟨new, hlog, hidle⟩ := hgrows
    have hsub : c'.ownIds.Sublist c.ownIds := by
      have hmap := hitems.map_sublist (f := (·.ownId)) (g := (·.ownId)) fun item hmem item' htouched =>
        ownId_touched htouched (hproper item hmem)
      have hid := hmap.filterMap id
      rwa [List.filterMap_map, List.filterMap_map] at hid
    refine hc.same hpacketId ?_ (hsub.subperm.trans hc.ownIds)
    rw [hlog]
    exact packetIds_of_silent fun r hr => handsOut_of_isIdle (hidle r hr)
  | number => exact hc.number
  | request hnumber hid h => exact hc.request hnumber hid h
  | add _ htype hitems hpacketId hgrows =>
    obtain ⟨new, hlog, hidle⟩ := hgrows
    refine hc.same hpacketId ?_ ?_
    · rw [hlog]
      exact packetIds_of_silent fun r hr => handsOut_of_isIdle (hidle r hr)
    · have hperm := hitems.filterMap (·.ownId)
      rw [List.filterMap_cons_none (ownId_eq_none fun hmem => ?_)] at hperm
      · exact hperm.subperm.trans hc.ownIds
      · have hdisjoint : ∀ type ∈ unasked, type ∉ ownTypes := by decide +kernel
        exact hdisjoint _ htype hmem
  | @settle _ d before item behind follow ack returncodes hack _ hid hsettles hitems hpacketId hlog =>
    obtain ⟨new, hlog, htells⟩ := hlog
    obtain ⟨r, s, hr, hs, hd⟩ := hsettles.log_eq
    refine hc.same hpacketId ?_ ?_
    · rw [hlog, packetIds_of_silent, hd, packetIds_cons_of_silent, packetIds_cons_of_silent]
      · rw [hs]
        rfl
      · rw [hr]
        rfl
      · intro r hr
        apply handsOut_of_isAnswer
        rw [← htells]
        exact List.mem_map_of_mem hr
    · have hfollow := hsettles.follow_ownIds hack hid
      have hbefore : c.ownIds = _ := congrArg (List.filterMap OutgoingPacket.ownId) hsettles.items
      have hafter : c'.ownIds = _ := congrArg (List.filterMap OutgoingPacket.ownId) (hitems.trans hsettles.rest)
      refine List.Subperm.trans ?_ hc.ownIds
      rw [hbefore, hafter, ← List.singleton_append, List.filterMap_append, List.filterMap_append,
        List.filterMap_append, List.filterMap_append, List.append_assoc, List.subperm_append_left]
      exact List.perm_append_comm.subperm.trans ((hfollow.append_right _).subperm)

/-! ### Runs -/

theorem run_numbered (env : Env cfg) (generatedClientId : CString) (actions : List Action) :
    ((new cfg generatedClientId).run env actions).Numbered := by
  refine run_deal_invariant env (fun _ => True) Numbered generatedClientId ?_ ?_ actions fun _ _ => trivial
  · exact ⟨rfl, rfl, List.Subperm.refl _⟩
  · intro c c' h _ hproper hc
    exact h.numbered hproper hc

/-- The packet id of a draw. -/
theorem Numbered.getElem?_packetIds {c : MqttClient cfg} (hc : c.Numbered) {i : ℕ} {packetId : UInt16}
    (h : c.log.packetIds[i]? = some packetId) : i < c.log.packetIds.length ∧ packetId = idAt i := by
  obtain ⟨hlt, -⟩ := List.getElem?_eq_some_iff.mp h
  rw [hc.packetIds, List.getElem?_map, List.getElem?_range hlt, Option.map_some, Option.some_inj] at h
  exact ⟨hlt, h.symm⟩

/-- A packet id comes back after 65535 others at the earliest. -/
theorem far_of_idAt_eq {i j : ℕ} (hlt : i < j) (h : idAt i = idAt j) : i + 65535 ≤ j := by
  have hmod := idAt_eq_iff.mp h
  omega

/-- **Packet ids in use**: each packet with a packet id of the client has a call of `_getNextPacketId` of
its own. A packet id is shared, or handed out while it is in use, only if 65535 calls lie in between. -/
theorem run_draws (env : Env cfg) (generatedClientId : CString) (actions : List Action) :
    let c := (new cfg generatedClientId).run env actions
    (∃ draws : List ℕ, draws.Nodup ∧ c.ownIds.map some = draws.map (c.log.packetIds[·]?) ∧
      (∀ i ∈ draws, ∀ j ∈ draws, i < j → c.log.packetIds[i]? = c.log.packetIds[j]? → i + 65535 ≤ j) ∧
      ∀ i ∈ draws, c.log.packetIds[i]? = some c.getNextPacketId.1 → i + 65535 ≤ c.log.packetIds.length) ∧
    (c.log.packetIds.length ≤ 65535 → c.ownIds.Nodup) := by
  intro c
  have hc : c.Numbered := run_numbered env generatedClientId actions
  obtain ⟨draws, hnodup, hdraws⟩ := List.exists_draws hc.ownIds
  have hdrawn : ∀ i ∈ draws, i < c.log.packetIds.length ∧ c.log.packetIds[i]? = some (idAt i) := by
    intro i hi
    have hmem : c.log.packetIds[i]? ∈ c.ownIds.map some := by
      rw [hdraws]
      exact List.mem_map_of_mem hi
    obtain ⟨packetId, -, hget⟩ := List.mem_map.mp hmem
    obtain ⟨hlt, rfl⟩ := hc.getElem?_packetIds hget.symm
    exact ⟨hlt, hget.symm⟩
  have hfar : ∀ i ∈ draws, ∀ j ∈ draws, i < j → c.log.packetIds[i]? = c.log.packetIds[j]? → i + 65535 ≤ j := by
    intro i hi j hj hlt heq
    rw [(hdrawn i hi).2, (hdrawn j hj).2, Option.some_inj] at heq
    exact far_of_idAt_eq hlt heq
  refine ⟨⟨draws, hnodup, hdraws, hfar, ?_⟩, ?_⟩
  · intro i hi heq
    rw [(hdrawn i hi).2, hc.getNextPacketId, Option.some_inj] at heq
    exact far_of_idAt_eq (hdrawn i hi).1 heq
  · intro hle
    have hmap : (c.ownIds.map some).Nodup := by
      rw [hdraws]
      refine hnodup.map_on ?_
      intro i hi j hj heq
      by_contra hne
      rcases Nat.lt_or_gt_of_ne hne with hlt | hlt
      · have := hfar i hi j hj hlt heq
        have := (hdrawn j hj).1
        omega
      · have := hfar j hj i hi hlt heq.symm
        have := (hdrawn i hi).1
        omega
    exact List.Nodup.of_map some hmap

/-! ### A counter that has gone round -/

/-- An environment with memory for everything. -/
abbrev roomy : Env .linux := Script.env .linux {}

def unsentTopic : CString := ⟨[0x75], by decide⟩

/-- A PUBLISH as it is stored while the client is offline. -/
theorem publish_unsent (packetId : UInt16) (tick : ℕ) : ∃ packet,
    Packet.publish .linux (roomy.alloc tick) packetId unsentTopic [7] 1 false = (.SUCCESS, packet) ∧
      packet.packetType = PacketType.PUBLISH ∧ packet.packetId = packetId := by
  have hallocate : ∀ length, ∃ b, Packet.allocate .linux (roomy.alloc tick) length true = some b := by
    intro length
    rw [Packet.allocate, if_neg fun h => lt_irrefl _ h.2]
    exact ⟨_, if_pos rfl⟩
  have hbuild : ∃ packet,
      Packet.publish .linux (roomy.alloc tick) packetId unsentTopic [7] 1 false = (.SUCCESS, packet) := by
    obtain ⟨b, hb⟩ := hallocate (Packet.publishLength .linux packetId unsentTopic [(7 : Byte)].length 1).1
    rw [Packet.publish]
    dsimp only
    rw [hb]
    exact ⟨_, rfl⟩
  obtain ⟨packet, hbuild⟩ := hbuild
  refine ⟨packet, hbuild, ?_, ?_⟩
  · rw [Packet.publish_spec (by decide) (by decide) (by decide) hbuild, Packet.packetType_eq]
    rfl
  · rw [(Packet.publish_built hbuild).2.1, if_neg (by decide)]

/-- The client is offline and holds `n` messages. -/
structure Piled (n : ℕ) (c : MqttClient .linux) : Prop where
  state : c.state = .disconnected
  packetId : c.packetId = counterAt n
  ownIds : c.ownIds = (List.range n).map idAt

theorem Piled.getNextPacketId {n : ℕ} {c : MqttClient .linux} (hc : Piled n c) :
    c.getNextPacketId.1 = idAt n := by
  rw [show idAt n = counterAt (n + 1) from rfl, counterAt_succ, ← hc.packetId]
  rfl

theorem Piled.publish {n : ℕ} {c : MqttClient .linux} (hc : Piled n c) :
    Piled (n + 1) (c.publish roomy unsentTopic 1 false [7]).2 := by
  have hrefuses : c.refusesPublish = false := by
    rw [refusesPublish, hc.state]
    rfl
  have hnumber : c.publishPacketId 1 = c.getNextPacketId := if_pos (by decide)
  rw [MqttClient.publish, hrefuses, if_neg Bool.false_ne_true, hnumber]
  dsimp only
  rw [hc.getNextPacketId]
  obtain ⟨packet, hbuild, htype, hid⟩ := publish_unsent (idAt n) c.getNextPacketId.2.tick
  rcases addPacket_cases roomy c.getNextPacketId.2 fun alloc =>
      Packet.publish .linux alloc (idAt n) unsentTopic [7] 1 false with ⟨packet', hbuild', hadd⟩ | ⟨hfail, -⟩
  · rw [hadd, show packet' = packet from congrArg Prod.snd (hbuild'.symm.trans hbuild)]
    refine ⟨hc.state, hc.getNextPacketId, ?_⟩
    have hown : OutgoingPacket.ownId ⟨0, packet, c.tick⟩ = some (idAt n) :=
      ownId_eq_some (isFor_iff.mpr ⟨htype, hid⟩) (by decide) (idAt_ne_zero n)
    show List.filterMap (·.ownId) (c.outbox.emplace ⟨0, packet, c.tick⟩).items = _
    rw [CursorList.items_emplace, List.filterMap_append, List.filterMap_cons_some hown, List.filterMap_nil,
      List.range_succ, List.map_append, ← hc.ownIds]
    rfl
  · rcases hfail with hnode | hbuild'
    · cases hnode
    · exact absurd (congrArg Prod.fst hbuild) hbuild'

/-- A client that stores `n` messages and sends none of them. -/
def piling (n : ℕ) : MqttClient .linux :=
  (new .linux ⟨[0x76], by decide⟩).run roomy (List.replicate n (.call (.publish unsentTopic 1 false [7])))

theorem piling_piled (n : ℕ) : Piled n (piling n) := by
  induction n with
  | zero => exact ⟨rfl, rfl, rfl⟩
  | succ n ih =>
    rw [piling, List.replicate_succ', run, List.foldl_append]
    exact ih.publish

/-- The packet id of the first message is handed out again, and after that two messages have it. -/
theorem not_unique_piling :
    (piling 65535).getNextPacketId.1 ∈ (piling 65535).ownIds ∧ ¬ (piling 65536).ownIds.Nodup := by
  have hsame : idAt 65535 = idAt 0 := idAt_eq_iff.mpr rfl
  constructor
  · rw [(piling_piled _).getNextPacketId, (piling_piled _).ownIds, hsame]
    exact List.mem_map_of_mem (List.mem_range.mpr (by decide))
  · rw [(piling_piled _).ownIds]
    intro hnodup
    have heq := List.inj_on_of_nodup_map hnodup (List.mem_range.mpr (by decide)) (List.mem_range.mpr (by decide))
      hsame
    exact absurd heq (by decide)

end MqttClient

end EspMqttClient
