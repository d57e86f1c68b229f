/-
  What gets to a server.

  A server that receives some of the packets that were written to their ends, in their order, takes a PUBLISH of
  quality 2 for a repetition until a PUBREL has released its packet id (`Receiver`).  The client does not write a
  PUBLISH again once a PUBREL with its packet id was written, unless it hands out a packet id that is in use, so
  no message is delivered twice, whatever gets lost (`run_deliversOnce`).
-/
import EspMqttClient.Data.Handshake
import EspMqttClient.MqttClient.Equiv.Frames
import EspMqttClient.MqttClient.Equiv.Loss
import EspMqttClient.MqttClient.Equiv.Numbers

namespace EspMqttClient

/-! ### What is sent -/

/-- The packet that was written to its end. -/
def Record.sentItem (r : Record) : Option OutgoingPacket :=
  match r.event with
  | .sent _ => r.outbox.getCurrent
  | _ => none

/-- The packets that were written to their ends, oldest first. -/
def Log.sent (log : Log) : List OutgoingPacket := (log.filterMap (·.sentItem)).reverse

/-- What a packet is to a server that receives messages of quality 2. -/
def OutgoingPacket.signal (item : OutgoingPacket) : Option (Signal UInt16 ℕ) :=
  if item.isType PacketType.PUBLISH ∧ item.qos = 2 then some (.message item.packet.packetId item.added)
  else if item.isType PacketType.PUBREL then some (.release item.packet.packetId)
  else none

/-- The server after these packets, the first one first. -/
def server (packets : List OutgoingPacket) : Receiver UInt16 ℕ := .run (packets.filterMap (·.signal))

/-- If this packet id is handed out, no packet in the queue has it from the client. -/
def Record.handsOutFree (packetId : UInt16) (r : Record) : Bool :=
  r.event.handsOut = some packetId → r.outbox.items.all fun item => item.ownId ≠ some packetId

namespace MqttClient

variable {cfg : Config} {env : Env cfg} {p : UInt16}

theorem sent_cons {r : Record} {log : Log} (h : r.sentItem = none) : Log.sent (r :: log) = log.sent := by
  rw [Log.sent, List.filterMap_cons_none h]
  rfl

theorem sent_cons_some {r : Record} {log : Log} {item : OutgoingPacket} (h : r.sentItem = some item) :
    Log.sent (r :: log) = log.sent ++ [item] := by
  rw [Log.sent, List.filterMap_cons_some h, List.reverse_cons]
  rfl

/-- A packet of the queue is sent, or none is. -/
def Sends (c c' : MqttClient cfg) : Prop :=
  c'.log.sent = c.log.sent ∨
    ∃ item ∈ c.outbox.items, ∃ item', Touched cfg item item' ∧ c'.log.sent = c.log.sent ++ [item']

theorem sends_of_sent {c c' : MqttClient cfg} (h : c'.log.sent = c.log.sent) : Sends c c' := .inl h

theorem sent_sendPacket (env : Env cfg) (c : MqttClient cfg) :
    (c.sendPacket env).2.log.sent = c.log.sent := by
  rcases sendPacket_cases env c with ⟨-, h⟩ | ⟨item, rest, available, packet, -, -, h⟩
  · rw [h]
  · rcases h with ⟨-, h⟩ | ⟨-, timeSent, activity, h⟩ <;> rw [h]
    · rfl
    · exact sent_cons rfl

theorem sent_addPacket (env : Env cfg) (c : MqttClient cfg) (build : Alloc → Error × Packet) :
    (c.addPacket env build).2.log.sent = c.log.sent := by
  rcases addPacket_cases env c build with ⟨_, -, h⟩ | ⟨-, h⟩ <;> rw [h] <;> rfl

theorem advanceOutbox_sends (c : MqttClient cfg) : Sends c c.advanceOutbox.2 := by
  rcases advanceOutbox_cases c with ⟨h, -⟩ | ⟨item, hcurrent, -, h⟩ <;> rw [h]
  · exact sends_of_sent rfl
  · refine .inr ⟨item, CursorList.getCurrent_mem hcurrent, item, .refl item, ?_⟩
    have hfarewell : (c.farewell item.packet).log.sent = c.log.sent := by
      rw [farewell]
      split_ifs
      · exact sent_cons rfl
      · rfl
    have hitem : (c.farewell item.packet).outbox.getCurrent = some item := by rw [outbox_farewell, hcurrent]
    rw [← hfarewell]
    exact sent_cons_some hitem

theorem sendRound_sends (env : Env cfg) (c : MqttClient cfg) : Sends c (c.sendRound env) := by
  rw [sendRound]
  split_ifs
  · rcases advanceOutbox_sends (c.sendPacket env).2 with h | ⟨item, hmem, item', htouched, h⟩
    · exact sends_of_sent (h.trans (sent_sendPacket env c))
    · obtain ⟨origin, hmem, htouched'⟩ := sendPacket_stays env c item hmem
      exact .inr ⟨origin, hmem, item', htouched'.trans htouched, by rw [h, sent_sendPacket]⟩
  · exact sends_of_sent (sent_sendPacket env c)

theorem accept_sends (c : MqttClient cfg) : Sends c c.received.accept := by
  have hadvance : Sends c c.received.connectedNow.advanceOutbox.2 :=
    advanceOutbox_sends c.received.connectedNow
  have hlog : c.received.accept.log.sent = c.received.connectedNow.advanceOutbox.2.log.sent := by
    have haccept : c.received.accept.log.sent = c.received.admitted.log.sent := sent_cons rfl
    rw [haccept, admitted]
    split_ifs
    · rw [clearQueue_eq]
      exact sent_cons rfl
    · rfl
  rw [Sends, hlog]
  exact hadvance

/-- **Sending**: with a move one packet of the queue is sent at most. -/
theorem Step.sends {c c' : MqttClient cfg} (h : Step env c c') : Sends c c' := by
  cases h with
  | quiet h => exact sends_of_sent (by rw [h.log])
  | disconnect force =>
    rw [MqttClient.disconnect]
    split_ifs
    · exact sends_of_sent rfl
    · exact sends_of_sent rfl
    · exact sends_of_sent rfl
  | publish | publishChunked =>
    refine sends_of_sent ?_
    rw [publishPacketId]
    split_ifs <;> rfl
  | sendConnect => exact sends_of_sent (sent_sendPacket env c)
  | sendRound => exact sendRound_sends env c
  | accept => exact accept_sends c
  | message =>
    have hanswer : (c.received.answerPublish env).2.log.sent = c.log.sent := by
      rcases answerPublish_cases env c.received with h | ⟨_, -, h⟩ <;> rw [h]
      · rfl
      · exact sent_addPacket env c.received _
    split_ifs
    · exact sends_of_sent hanswer
    · exact sends_of_sent hanswer
  | proceed => exact sends_of_sent (sent_addPacket env c.received _)
  | clearQueue deleteSessionData =>
    rw [clearQueueApi, clearQueue_eq]
    exact sends_of_sent rfl
  | close =>
    rw [MqttClient.close, clearQueue_eq]
    exact sends_of_sent rfl
  | _ => exact sends_of_sent rfl

theorem Move.sends {c c' : MqttClient cfg} (h : Move env c c') : Sends c c' := by
  cases h with
  | step h => exact h.sends
  | _ => exact sends_of_sent rfl

/-! ### When a packet was added -/

/-- Every packet was added before now. -/
def Dated (c : MqttClient cfg) : Prop := ∀ item ∈ c.outbox.items, item.added < c.tick

theorem Flow.dated {c c' : MqttClient cfg} (h : Flow env c c') (hc : c.Dated) : c'.Dated := by
  have hle := h.tick_le
  have hcase : Stays cfg c.outbox c'.outbox ∨ c'.tick = c.tick + 1 := by
    cases h with
    | keep h => exact .inl (stays_of_subset (by rw [h.outbox]; exact List.Subset.refl _))
    | connect | request | answer | addDisconnect => exact .inr rfl
    | @remove it =>
      refine .inl (stays_of_subset ?_)
      show (c.outbox.remove it).items ⊆ c.outbox.items
      rw [CursorList.items_remove]
      exact (List.eraseIdx_sublist _ _).subset
    | clearQueue deleteSessionData =>
      rw [clearQueueApi, outbox_clearQueue]
      exact .inl (filter_stays _ _)
    | sendConnect => exact .inl (sendPacket_stays env c)
    | sendRound => exact .inl (sendRound_stays env c)
    | accept => exact .inl (admit_stays c)
    | close =>
      rw [show c.close.outbox = (c.clearQueue 0).outbox from rfl, outbox_clearQueue]
      exact .inl (filter_stays _ _)
    | _ => exact .inl (stays_of_subset (List.Subset.refl _))
  intro item' hmem
  rcases hcase with hstays | htick
  · obtain ⟨item, hmem, htouched⟩ := hstays item' hmem
    have := hc item hmem
    rw [htouched.added]
    omega
  · rcases h.items item' hmem with ⟨item, hmem, htouched⟩ | ⟨-, hadded⟩
    · have := hc item hmem
      rw [htouched.added]
      omega
    · omega

/-- A packet that was not there before was added since. -/
theorem Flows.items {c c' : MqttClient cfg} (h : Flows env c c') (hc : c.Dated) : c'.Dated ∧
    ∀ item' ∈ c'.outbox.items, (∃ item ∈ c.outbox.items, Touched cfg item item') ∨ c.tick ≤ item'.added := by
  induction h with
  | refl => exact ⟨hc, fun item hmem => .inl ⟨item, hmem, .refl item⟩⟩
  | tail hflows hflow ih =>
    refine ⟨hflow.dated ih.1, fun item'' hmem => ?_⟩
    rcases hflow.items item'' hmem with ⟨item', hmem, htouched'⟩ | ⟨-, hadded⟩
    · rcases ih.2 item' hmem with ⟨item, hmem, htouched⟩ | hadded
      · exact .inl ⟨item, hmem, htouched.trans htouched'⟩
      · exact .inr (htouched'.added ▸ hadded)
    · exact .inr (hadded ▸ Flows.tick_le hflows)

/-! ### Packet ids that are free -/

/-- What a deal does to the packet ids in use: none is added but one that is handed out. -/
theorem Deal.ownIds {c c' : MqttClient cfg} (h : Deal c c') (hproper : c.QueuesProper) :
    (c'.log.packetIds = c.log.packetIds ∧ c'.ownIds.Subperm c.ownIds) ∨
      ∃ packetId, c'.log.packetIds = c.log.packetIds ++ [packetId] ∧
        c'.ownIds.Subperm (c.ownIds ++ [packetId]) ∧
        ∃ r ∈ c'.log, r.event = .nextPacketId packetId ∧ r.outbox = c.outbox := by
  cases h with
  | thins hitems _ hgrows =>
    obtain ⟨new, hlog, hidle⟩ := hgrows
    refine .inl ⟨?_, ?_⟩
    · rw [hlog]
      exact packetIds_of_silent fun r hr => handsOut_of_isIdle (hidle r hr)
    · have hmap := hitems.map_sublist (f := (·.ownId)) (g := (·.ownId)) fun item hmem item' htouched =>
        ownId_touched htouched (hproper item hmem)
      have hid := hmap.filterMap id
      rw [List.filterMap_map, List.filterMap_map] at hid
      exact hid.subperm
  | number =>
    exact .inr ⟨_, packetIds_getNextPacketId c, (List.sublist_append_left _ _).subperm, _,
      List.mem_cons_self, rfl, rfl⟩
  | @request c₁ packet event hnumber hid h =>
    have hlog : ((c₁.push packet).asked.note event).log.packetIds = c₁.log.packetIds :=
      packetIds_cons_of_silent (by cases h <;> rfl)
    have hown : ((c₁.push packet).asked.note event).ownIds =
        c₁.ownIds ++ (OutgoingPacket.ownId ⟨0, packet, c₁.tick⟩).toList := by
      have hitems : ((c₁.push packet).asked.note event).outbox.items =
          c₁.outbox.items ++ [⟨0, packet, c₁.tick⟩] := CursorList.items_emplace _ _
      rw [MqttClient.ownIds, hitems, List.filterMap_append, List.filterMap_cons, List.filterMap_nil]
      cases OutgoingPacket.ownId ⟨0, packet, c₁.tick⟩ <;> rfl
    rw [hlog, hown]
    cases hpacket : OutgoingPacket.ownId ⟨0, packet, c₁.tick⟩ with
    | none =>
      rw [Option.toList_none, List.append_nil]
      rcases hnumber with rfl | rfl
      · exact .inl ⟨rfl, List.Subperm.refl _⟩
      · exact .inr ⟨_, packetIds_getNextPacketId c, (List.sublist_append_left _ _).subperm, _,
          List.mem_cons_of_mem _ List.mem_cons_self, rfl, rfl⟩
    | some packetId =>
      obtain ⟨hsame, hne⟩ := ownId_packetId hpacket
      obtain ⟨rfl, hfresh⟩ := hid (hsame ▸ hne)
      obtain rfl : packetId = c.getNextPacketId.1 := hsame.symm.trans hfresh
      exact .inr ⟨_, packetIds_getNextPacketId c, List.Subperm.refl _, _,
        List.mem_cons_of_mem _ List.mem_cons_self, rfl, rfl⟩
  | add _ htype hitems _ hgrows =>
    obtain ⟨new, hlog, hidle⟩ := hgrows
    refine .inl ⟨?_, ?_⟩
    · rw [hlog]
      exact packetIds_of_silent fun r hr => handsOut_of_isIdle (hidle r hr)
    · have hdisjoint : ∀ type ∈ unasked, type ∉ ownTypes := by decide +kernel
      have hperm := hitems.filterMap (·.ownId)
      rw [List.filterMap_cons_none (ownId_eq_none (hdisjoint _ htype))] at hperm
      exact hperm.subperm
  | settle ack returncodes hack _ hid hsettles hitems _ hlog =>
    obtain ⟨new, hlog, htells⟩ := hlog
    obtain ⟨r, s, hr, hs, hd⟩ := hsettles.log_eq
    refine .inl ⟨?_, ?_⟩
    · rw [hlog, packetIds_of_silent, hd, packetIds_cons_of_silent, packetIds_cons_of_silent]
      · rw [hs]
        rfl
      · rw [hr]
        rfl
      · exact fun r hr => handsOut_of_isAnswer (htells ▸ List.mem_map_of_mem hr)
    · have hfollow := hsettles.follow_ownIds hack hid
      have hbefore : c.ownIds = _ := congrArg (List.filterMap OutgoingPacket.ownId) hsettles.items
      have hafter : c'.ownIds = _ := congrArg (List.filterMap OutgoingPacket.ownId) (hitems.trans hsettles.rest)
      rw [hbefore, hafter, ← List.singleton_append, List.filterMap_append, List.filterMap_append,
        List.filterMap_append, List.filterMap_append, List.append_assoc, List.subperm_append_left]
      exact List.perm_append_comm.subperm.trans ((hfollow.append_right _).subperm)

/-! ### At most once -/

/-- The packet id was released after this packet was sent. -/
def ReleasedAfter (packetId : UInt16) (added : ℕ) (sent : List OutgoingPacket) : Prop :=
  ∃ x y, [x, y].Sublist sent ∧ x.added = added ∧ y.isFor PacketType.PUBREL packetId

/-- Two things behind each other in a list with one more element at its end. -/
theorem sublist_concat {α : Type} {x y a : α} {l : List α} (h : [x, y].Sublist (l ++ [a])) :
    [x, y].Sublist l ∨ x ∈ l ∧ y = a := by
  rcases List.sublist_append_iff.mp h with ⟨l₁, l₂, heq, h₁, h₂⟩
  rcases List.sublist_singleton.mp h₂ with rfl | rfl
  · rw [List.append_nil] at heq
    exact .inl (heq ▸ h₁)
  · obtain ⟨rfl, hlast⟩ := List.append_inj' (show [x] ++ [y] = l₁ ++ [a] from heq) rfl
    exact .inr ⟨List.singleton_sublist.mp h₁, List.singleton_inj.mp hlast⟩

/-- No PUBLISH with this packet id is in the queue, or was sent, that was sent before the packet id was
released. -/
structure Releases (p : UInt16) (c : MqttClient cfg) : Prop where
  dated : c.Dated
  sent_lt : ∀ item ∈ c.log.sent, item.added < c.tick
  count_le : c.ownIds.count p ≤ 1
  queued : ∀ item ∈ c.outbox.items, item.isFor PacketType.PUBLISH p → ¬ ReleasedAfter p item.added c.log.sent
  sent : ∀ earlier item, earlier ++ [item] <+: c.log.sent → item.isFor PacketType.PUBLISH p →
    ¬ ReleasedAfter p item.added earlier

theorem not_releasedAfter_of_lt {added : ℕ} {sent : List OutgoingPacket}
    (h : ∀ item ∈ sent, item.added < added) : ¬ ReleasedAfter p added sent := by
  rintro ⟨x, y, hsub, hx, -⟩
  have hlt := h x (hsub.subset List.mem_cons_self)
  omega

/-- Two packets of the queue do not share a packet id that is in use once. -/
theorem Releases.unique {c : MqttClient cfg} (hc : c.Releases p) (hp : p ≠ 0) {x y : OutgoingPacket}
    (hx : x ∈ c.outbox.items) (hy : y ∈ c.outbox.items) (hpublish : x.isFor PacketType.PUBLISH p)
    (hpubrel : y.isFor PacketType.PUBREL p) : False := by
  have hne : x ≠ y := by
    rintro rfl
    have htype := (isFor_iff.mp hpublish).1.symm.trans (isFor_iff.mp hpubrel).1
    exact absurd htype (by decide)
  have hownx : x.ownId = some p := ownId_eq_some hpublish (by decide) hp
  have howny : y.ownId = some p := ownId_eq_some hpubrel (by decide) hp
  obtain ⟨before, behind, hsplit⟩ := List.append_of_mem hx
  have hy' : y ∈ before ++ behind := by
    rw [hsplit, List.mem_append, List.mem_cons] at hy
    rw [List.mem_append]
    rcases hy with hy | rfl | hy
    · exact .inl hy
    · exact absurd rfl hne
    · exact .inr hy
  have hrest : p ∈ (before ++ behind).filterMap (·.ownId) := List.mem_filterMap.mpr ⟨y, hy', howny⟩
  have hperm : c.outbox.items.Perm (x :: (before ++ behind)) := hsplit ▸ List.perm_middle
  have hcount : c.ownIds.count p = ((before ++ behind).filterMap (·.ownId)).count p + 1 := by
    rw [MqttClient.ownIds, (hperm.filterMap _).count_eq, List.filterMap_cons_some hownx, List.count_cons_self]
  have hpos := List.count_pos_iff.mpr hrest
  have := hc.count_le
  omega

/-- Nothing changes with what was sent for a packet that was there, or is added. -/
theorem Releases.later {c c' : MqttClient cfg} (hc : c.Releases p) (hproper : c.QueuesProper)
    (hitems : ∀ item' ∈ c'.outbox.items,
      (∃ item ∈ c.outbox.items, Touched cfg item item') ∨ c.tick ≤ item'.added)
    {item' : OutgoingPacket} (hmem : item' ∈ c'.outbox.items) (hfor : item'.isFor PacketType.PUBLISH p) :
    ¬ ReleasedAfter p item'.added c.log.sent := by
  rcases hitems item' hmem with ⟨item, hmem, htouched⟩ | hadded
  · rw [htouched.isFor (hproper item hmem)] at hfor
    rw [htouched.added]
    exact hc.queued item hmem hfor
  · exact not_releasedAfter_of_lt fun item hsent => Nat.lt_of_lt_of_le (hc.sent_lt item hsent) hadded

/-- **Releasing**: a move, if it does not hand out a packet id that is in use. -/
theorem Move.releases {c c' : MqttClient cfg} (h : Move env c c') (hp : p ≠ 0) (hproper : c.QueuesProper)
    (hfree : c'.log.packetIds = c.log.packetIds ++ [p] → p ∉ c.ownIds) (hc : c.Releases p) :
    c'.Releases p := by
  obtain ⟨hdated, hitems⟩ := Flows.items h.flows hc.dated
  have htick := Flows.tick_le h.flows
  have hcount : c'.ownIds.count p ≤ 1 := by
    rcases h.deal.ownIds hproper with ⟨-, hsub⟩ | ⟨packetId, hids, hsub, -⟩
    · exact (hsub.count_le p).trans hc.count_le
    · refine (hsub.count_le p).trans ?_
      rw [List.count_append]
      by_cases hid : packetId = p
      · rw [List.count_eq_zero_of_not_mem (hfree (hid ▸ hids)), hid, List.count_singleton_self]
      · rw [List.count_singleton, if_neg (by simpa using hid)]
        exact hc.count_le
  rcases h.sends with hsent | ⟨s, hs, s', htouched, hsent⟩
  · refine ⟨hdated, fun item hmem => ?_, hcount, fun item hmem hfor => ?_, ?_⟩
    · exact Nat.lt_of_lt_of_le (hc.sent_lt item (hsent ▸ hmem)) htick
    · rw [hsent]
      exact hc.later hproper hitems hmem hfor
    · rw [hsent]
      exact hc.sent
  -- the packet `s` of the queue is sent
  have hsfor : ∀ type, s'.isFor type p = s.isFor type p := fun type => htouched.isFor (hproper s hs) type p
  refine ⟨hdated, fun item hmem => ?_, hcount, fun item hmem hfor => ?_, fun earlier item hprefix hfor => ?_⟩
  · rw [hsent, List.mem_append, List.mem_singleton] at hmem
    rcases hmem with hmem | rfl
    · exact Nat.lt_of_lt_of_le (hc.sent_lt item hmem) htick
    · rw [htouched.added]
      exact Nat.lt_of_lt_of_le (hc.dated s hs) htick
  · rw [hsent]
    rintro ⟨x, y, hsub, hx, hy⟩
    rcases sublist_concat hsub with hsub | ⟨hxmem, rfl⟩
    · exact hc.later hproper hitems hmem hfor ⟨x, y, hsub, hx, hy⟩
    -- a PUBREL goes out, so the queue has no PUBLISH with its packet id
    · rcases hitems item hmem with ⟨origin, hmem, horigin⟩ | hadded
      · rw [horigin.isFor (hproper origin hmem)] at hfor
        rw [hsfor] at hy
        exact hc.unique hp hmem hs hfor hy
      · have := hc.sent_lt x hxmem
        omega
  · rw [hsent] at hprefix
    rcases List.prefix_concat_iff.mp hprefix with heq | hprefix
    · obtain ⟨rfl, hlast⟩ := List.append_inj' heq rfl
      obtain rfl : item = s' := List.singleton_inj.mp hlast
      rw [hsfor] at hfor
      rw [htouched.added]
      exact hc.queued s hs hfor
    · exact hc.sent earlier item hprefix hfor

theorem new_releases (generatedClientId : CString) (p : UInt16) : (new cfg generatedClientId).Releases p where
  dated := fun _ h => absurd h List.not_mem_nil
  sent_lt := fun _ h => absurd h List.not_mem_nil
  count_le := Nat.zero_le _
  queued := fun _ h => absurd h List.not_mem_nil
  sent := fun earlier item hprefix _ => absurd (List.prefix_nil.mp hprefix) (by simp)

/-- The packet ids that a deal hands out were noted. -/
theorem Deal.free {c c' : MqttClient cfg} (h : Deal c c') (hproper : c.QueuesProper)
    (hcondition : ∀ r ∈ c'.log, r.handsOutFree p) (hids : c'.log.packetIds = c.log.packetIds ++ [p]) :
    p ∉ c.ownIds := by
  rcases h.ownIds hproper with ⟨hsame, -⟩ | ⟨packetId, hids', -, r, hr, hevent, houtbox⟩
  · have hlength := congrArg List.length (hsame.symm.trans hids)
    simp at hlength
  · obtain rfl : packetId = p := List.singleton_inj.mp (List.append_cancel_left (hids'.symm.trans hids))
    have hfree := of_decide_eq_true (hcondition r hr) (by rw [hevent]; rfl)
    rw [houtbox, List.all_eq_true] at hfree
    intro hmem
    obtain ⟨item, hmem, hown⟩ := List.mem_filterMap.mp hmem
    exact of_decide_eq_true (hfree item hmem) hown

theorem run_releases (env : Env cfg) (generatedClientId : CString) (actions : List Action) (hp : p ≠ 0)
    (hfree : ∀ r ∈ ((new cfg generatedClientId).run env actions).log, r.handsOutFree p) :
    ((new cfg generatedClientId).run env actions).Releases p :=
  run_move_invariant env (fun r => r.handsOutFree p) (Releases p) generatedClientId
    (new_releases generatedClientId p)
    (fun h hcondition hproper hc => h.releases hp hproper (h.deal.free hproper hcondition) hc) actions hfree

/-! ### The server -/

theorem signal_eq_message {item : OutgoingPacket} {packetId : UInt16} {added : ℕ} :
    item.signal = some (.message packetId added) ↔
      item.isFor PacketType.PUBLISH packetId ∧ item.qos = 2 ∧ item.added = added := by
  rw [isFor_iff, OutgoingPacket.signal]
  simp only [OutgoingPacket.isType, decide_eq_true_eq]
  split_ifs with hmessage hrelease
  · simp only [Option.some_inj, Signal.message.injEq]
    tauto
  · simp only [Option.some_inj, reduceCtorEq, false_iff]
    tauto
  · simp only [false_iff]
    tauto

theorem signal_eq_release {item : OutgoingPacket} {packetId : UInt16} :
    item.signal = some (.release packetId) ↔ item.isFor PacketType.PUBREL packetId := by
  rw [isFor_iff, OutgoingPacket.signal]
  simp only [OutgoingPacket.isType, decide_eq_true_eq]
  split_ifs with hmessage hrelease
  · simp only [Option.some_inj, reduceCtorEq, false_iff]
    rw [hmessage.1]
    exact fun h => absurd h.1 (by decide)
  · simp only [Option.some_inj, Signal.release.injEq]
    tauto
  · simp only [false_iff]
    tauto

/-- What is sent of a message, released and sent again is not. -/
theorem Releases.not_again {c : MqttClient cfg} (hc : c.Releases p) {received : List OutgoingPacket}
    (hreceived : received.Sublist c.log.sent) (added : ℕ) :
    ¬ [.message p added, .release p, .message p added].Sublist (received.filterMap (·.signal)) := by
  intro hsub
  obtain ⟨items, hitems, heq⟩ := List.sublist_filterMap_iff.mp hsub
  obtain ⟨l₁, x, rest, rfl, -, hx, heq⟩ := List.filterMap_eq_cons_iff.mp heq.symm
  obtain ⟨l₂, y, rest, rfl, -, hy, heq⟩ := List.filterMap_eq_cons_iff.mp heq
  obtain ⟨l₃, z, rest, rfl, -, hz, -⟩ := List.filterMap_eq_cons_iff.mp heq
  obtain ⟨-, -, hxadded⟩ := signal_eq_message.mp hx
  obtain ⟨hzfor, -, hzadded⟩ := signal_eq_message.mp hz
  have htriple : [x, y, z].Sublist c.log.sent := by
    refine List.Sublist.trans ?_ (hitems.trans hreceived)
    simp
  obtain ⟨before, rest, hsplit, hbefore, hrest⟩ :=
    List.append_sublist_iff.mp (show ([x, y] ++ [z]).Sublist c.log.sent from htriple)
  obtain ⟨between, behind, rfl⟩ := List.append_of_mem (List.singleton_sublist.mp hrest)
  refine hc.sent (before ++ between) z ⟨behind, ?_⟩ hzfor ⟨x, y, ?_, ?_, signal_eq_release.mp hy⟩
  · rw [hsplit]
    simp
  · exact hbefore.trans (List.sublist_append_left _ _)
  · exact hxadded.trans hzadded.symm

/-- **At most once**: a server that receives any of the packets that were sent, in their order, delivers a
message of quality 2 once, if its packet id was never handed out while it was in use. -/
theorem run_deliversOnce (env : Env cfg) (generatedClientId : CString) (actions : List Action)
    {packetId : UInt16} (hid : packetId ≠ 0)
    (hfree : ∀ r ∈ ((new cfg generatedClientId).run env actions).log, r.handsOutFree packetId)
    {received : List OutgoingPacket}
    (hreceived : received.Sublist ((new cfg generatedClientId).run env actions).log.sent) (added : ℕ) :
    (server received).delivered.count (packetId, added) ≤ 1 :=
  Receiver.count_delivered_le_one
    ((run_releases env generatedClientId actions hid hfree).not_again hreceived added)

/-- The connection is lost after the PUBLISH was sent, and the PUBREC comes in the next one. -/
def repeatedScript : Script where
  read := [(10, [0x20, 2, 1, 0]), (31, [0x20, 2, 1, 0]), (39, [0x50, 2, 0, 1])]

def repeatedActions : List Action :=
  [.call (.publish ⟨[0x72], by decide⟩ 2 false [7, 8]), .call .connect, .loop, .loop, .loop,
    .call (.disconnect true), .loop, .loop, .call .connect, .loop, .loop, .loop, .loop]

/-- The message is sent twice. -/
theorem run_deliversOnce_repeated :
    (server (repeatedScript.run repeatedActions).log.sent).delivered.count (1, 0) ≤ 1 :=
  run_deliversOnce (repeatedScript.env .linux) ⟨[0x63], by decide⟩ repeatedActions (by decide)
    (by decide +kernel) (List.Sublist.refl _) 0

end MqttClient

end EspMqttClient
