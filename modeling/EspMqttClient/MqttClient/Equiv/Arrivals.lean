/-
  What arrives at a server.

  A server acknowledges only what arrived (`isHonest`).  A packet id that is handed out once belongs to one
  message (`Identifies`), so a message is in the queue until its PUBLISH has arrived, and a message of quality 2
  that is not in the queue any more was delivered exactly once (`run_delivers`).
-/
import EspMqttClient.MqttClient.Equiv.Sent
import EspMqttClient.MqttClient.Equiv.Unanswered

namespace EspMqttClient

/-! ### Arrivals -/

/-- The messages that were accepted. -/
def Log.accepted (log : Log) : List Message := log.filterMap (·.event.message)

/-- What arrived of what was sent: `gets` says which packets do. -/
def Log.arrived (gets : ℕ → Bool) (log : Log) : List OutgoingPacket :=
  (log.sent.zipIdx.filter fun entry => gets entry.2).map Prod.fst

/-- A PUBACK or a PUBREC is for a PUBLISH that arrived. -/
def Record.isHonest (arrived : List OutgoingPacket) (r : Record) : Bool :=
  match r.event with
  | .packet report => Event.answers report.packetId (.packet report) →
      arrived.any (·.isFor PacketType.PUBLISH report.packetId)
  | _ => true

namespace MqttClient

variable {cfg : Config} {env : Env cfg} {p : UInt16}

/-! ### Messages and their packets -/

theorem accepted_append (new log : Log) : Log.accepted (new ++ log) = Log.accepted new ++ log.accepted :=
  List.filterMap_append

theorem accepted_of_silent {new log : Log} (h : ∀ r ∈ new, r.event.message = none) :
    Log.accepted (new ++ log) = log.accepted := by
  rw [accepted_append, Log.accepted, List.filterMap_eq_nil_iff.mpr h, List.nil_append]

/-- A message that is asked for has the packet id of its packet, which is its PUBLISH. -/
theorem Requested.isIn {c : MqttClient cfg} {packet : Packet} {event : Event} (h : c.Requested packet event)
    {m : Message} (hevent : event.message = some m) (hm : m.Regular) :
    m.packetId = packet.packetId ∧ m.IsIn ⟨0, packet, c.tick⟩ := by
  cases h with
  | @publish packetId topic qos retain payload packet hstate hne hpacket =>
    obtain ⟨alloc, hbuild⟩ := hpacket
    obtain rfl := Option.some_inj.mp hevent
    have hqos : qos ≠ 0 := by
      rintro rfl
      rcases hm.qos with hqos | hqos <;> cases hqos
    have hin := isIn_of_publish hm (hne hqos) hbuild
    exact ⟨hin.packetId.symm, hin⟩
  | _ => cases hevent

/-- What a settlement puts in the queue is not a PUBLISH. -/
theorem Settles.mem_of_publish {ack : Ack} {before behind follow : List OutgoingPacket} {item : OutgoingPacket}
    {c d : MqttClient cfg} (h : Settles ack before item behind follow c d) {item' : OutgoingPacket}
    (hmem : item' ∈ d.outbox.items) (hfor : item'.isFor PacketType.PUBLISH p) : item' ∈ c.outbox.items := by
  rw [h.rest, List.mem_append, List.mem_append] at hmem
  rw [h.items, List.mem_append, List.mem_cons]
  rcases hmem with (hmem | hmem) | hmem
  · exact .inl hmem
  · exact .inr (.inr hmem)
  · obtain ⟨type, hnext, -, htype⟩ := h.mem_follow hmem
    rw [(isFor_iff.mp hfor).1] at htype
    cases ack <;> cases hnext <;> exact absurd htype (by decide)

/-- What a deal does to the messages of a packet id and to its PUBLISH packets: they are what they were, or the
packet id is handed out, for at most one new message and its packet. -/
theorem Deal.publishes {c c' : MqttClient cfg} (h : Deal c c') (hp : p ≠ 0) :
    ((∀ m ∈ c'.log.accepted, m.Regular → m.packetId = p → m ∈ c.log.accepted) ∧
      ∀ item' ∈ c'.outbox.items, item'.isFor PacketType.PUBLISH p →
        ∃ item ∈ c.outbox.items, Touched cfg item item') ∨
      c'.log.packetIds = c.log.packetIds ++ [p] ∧
        ∀ m ∈ c'.log.accepted, m.Regular → m ∈ c.log.accepted ∨
          ∀ item' ∈ c'.outbox.items, item' ∈ c.outbox.items ∨ m.IsIn item' := by
  have hsame : c'.log.accepted = c.log.accepted → ∀ m ∈ c'.log.accepted, m.Regular → m.packetId = p →
      m ∈ c.log.accepted := fun heq m hmem _ _ => heq ▸ hmem
  cases h with
  | thins hitems _ hgrows =>
    obtain ⟨new, hlog, hidle⟩ := hgrows
    refine .inl ⟨hsame ?_, fun item' hmem _ => hitems.exists_mem_left hmem⟩
    rw [hlog, accepted_of_silent fun r hr => message_of_isIdle (hidle r hr)]
  | number => exact .inl ⟨hsame rfl, fun item hmem _ => ⟨item, hmem, .refl item⟩⟩
  | @request c₁ packet event hnumber hid h =>
    have hitems : ((c₁.push packet).asked.note event).outbox.items =
        c.outbox.items ++ [⟨0, packet, c₁.tick⟩] := by
      rw [show c.outbox = c₁.outbox by rcases hnumber with rfl | rfl <;> rfl]
      exact CursorList.items_emplace _ _
    have hlog : ((c₁.push packet).asked.note event).log.accepted = event.message.toList ++ c.log.accepted := by
      rw [show c.log.accepted = c₁.log.accepted by rcases hnumber with rfl | rfl <;> rfl]
      show List.filterMap _ (_ :: c₁.log) = _
      rw [List.filterMap_cons]
      cases event.message <;> rfl
    rw [hitems, hlog]
    by_cases hpacket : packet.packetId = p
    · obtain ⟨rfl, hfresh⟩ := hid (hpacket ▸ hp)
      refine .inr ⟨?_, fun m hmem hm => ?_⟩
      · rw [← hpacket, hfresh, ← packetIds_getNextPacketId c]
        exact packetIds_cons_of_silent (by cases h <;> rfl)
      · rcases List.mem_append.mp hmem with hmem | hmem
        · refine .inr fun item' hmem' => (List.mem_append.mp hmem').imp_right fun hmem' => ?_
          rw [List.mem_singleton.mp hmem']
          exact (h.isIn (Option.mem_toList.mp hmem) hm).2
        · exact .inl hmem
    · refine .inl ⟨fun m hmem hm hid' => ?_, fun item' hmem hfor => ?_⟩
      · rcases List.mem_append.mp hmem with hmem | hmem
        · exact absurd ((h.isIn (Option.mem_toList.mp hmem) hm).1.symm.trans hid') hpacket
        · exact hmem
      · rcases List.mem_append.mp hmem with hmem | hmem
        · exact ⟨item', hmem, .refl item'⟩
        · rw [List.mem_singleton.mp hmem] at hfor
          exact absurd (isFor_iff.mp hfor).2 hpacket
  | add _ htype hitems _ hgrows =>
    obtain ⟨new, hlog, hidle⟩ := hgrows
    refine .inl ⟨hsame ?_, fun item' hmem hfor => ?_⟩
    · rw [hlog, accepted_of_silent fun r hr => message_of_isIdle (hidle r hr)]
    · rcases List.mem_cons.mp (hitems.subset hmem) with rfl | hmem
      · rw [show _ = PacketType.PUBLISH from (isFor_iff.mp hfor).1] at htype
        exact absurd htype (by decide)
      · exact ⟨item', hmem, .refl item'⟩
  | settle ack returncodes _ _ _ hsettles hitems _ hlog =>
    obtain ⟨new, hlog, htells⟩ := hlog
    obtain ⟨r, s, hr, hs, hd⟩ := hsettles.log_eq
    refine .inl ⟨hsame ?_, fun item' hmem hfor => ?_⟩
    · have hnew : c'.log = (new ++ [r, s]) ++ c.log := by rw [hlog, hd, List.append_assoc]; rfl
      rw [hnew, accepted_of_silent]
      intro t ht
      rcases List.mem_append.mp ht with ht | ht
      · exact message_of_mem_tells (htells ▸ List.mem_map_of_mem ht)
      · rcases List.mem_pair.mp ht with rfl | rfl
        · rw [hr]
          rfl
        · rw [hs]
          rfl
    · exact ⟨item', hsettles.mem_of_publish (hitems ▸ hmem) hfor, .refl item'⟩

/-- Every PUBLISH with this packet id, in the queue or sent, is that of the message with this packet id, if there
is one, and the packet id was handed out for it. -/
structure Identifies (p : UInt16) (c : MqttClient cfg) : Prop where
  handedOut : ∀ m ∈ c.log.accepted, m.Regular → m.packetId = p → p ∈ c.log.packetIds
  sent_handedOut : ∀ item ∈ c.log.sent, item.isFor PacketType.PUBLISH p → p ∈ c.log.packetIds
  isIn : ∀ m ∈ c.log.accepted, m.Regular → m.packetId = p → ∀ item, item ∈ c.outbox.items ∨ item ∈ c.log.sent →
    item.isFor PacketType.PUBLISH p → m.IsIn item

/-- What is sent was in the queue or sent before. -/
theorem Sends.mem {c c' : MqttClient cfg} (h : Sends c c') {item' : OutgoingPacket}
    (hmem : item' ∈ c'.log.sent) : item' ∈ c.log.sent ∨ ∃ item ∈ c.outbox.items, Touched cfg item item' := by
  rcases h with h | ⟨item, hitem, other, htouched, h⟩
  · exact .inl (h ▸ hmem)
  · rw [h, List.mem_append, List.mem_singleton] at hmem
    rcases hmem with hmem | rfl
    · exact .inl hmem
    · exact .inr ⟨item, hitem, htouched⟩

/-- A packet id in use was handed out. -/
theorem Numbered.mem_packetIds {c : MqttClient cfg} (hc : c.Numbered) (hp : p ≠ 0) {item : OutgoingPacket}
    (hmem : item ∈ c.outbox.items) (hfor : item.isFor PacketType.PUBLISH p) : p ∈ c.log.packetIds :=
  hc.ownIds.subset (List.mem_filterMap.mpr ⟨item, hmem, ownId_eq_some hfor (by decide) hp⟩)

theorem Move.identifies {c c' : MqttClient cfg} (h : Move env c c') (hp : p ≠ 0) (hproper : c.QueuesProper)
    (hnumbered : c.Numbered) (honce : c'.log.packetIds.count p ≤ 1) (hc : c.Identifies p) : c'.Identifies p := by
  have hfor : ∀ {item item'}, item ∈ c.outbox.items → Touched cfg item item' →
      item'.isFor PacketType.PUBLISH p → item.isFor PacketType.PUBLISH p := by
    intro item item' hmem htouched hfor
    rwa [htouched.isFor (hproper item hmem)] at hfor
  have hsent : ∀ item' ∈ c'.log.sent, item'.isFor PacketType.PUBLISH p → p ∈ c.log.packetIds := by
    intro item' hmem hfor'
    rcases h.sends.mem hmem with hmem | ⟨item, hmem, htouched⟩
    · exact hc.sent_handedOut item' hmem hfor'
    · exact hnumbered.mem_packetIds hp hmem (hfor hmem htouched hfor')
  rcases h.deal.publishes hp with ⟨hmessages, hitems⟩ | ⟨hids, hmessages⟩
  · have hsub : c.log.packetIds ⊆ c'.log.packetIds := by
      rcases h.deal.ownIds hproper with ⟨hids, -⟩ | ⟨packetId, hids, -⟩ <;> rw [hids]
      · exact List.Subset.refl _
      · exact List.subset_append_left _ _
    refine ⟨fun m hmem hm hid => hsub (hc.handedOut m (hmessages m hmem hm hid) hm hid),
      fun item hmem hfor' => hsub (hsent item hmem hfor'), fun m hmem hm hid item' hmem' hfor' => ?_⟩
    have hold := hc.isIn m (hmessages m hmem hm hid) hm hid
    have htouched : ∀ item ∈ c.outbox.items, Touched cfg item item' → m.IsIn item' := fun item hitem htouched =>
      isIn_touched (hold item (.inl hitem) (hfor hitem htouched hfor')) hm htouched
    rcases hmem' with hmem' | hmem'
    · obtain ⟨item, hitem, h⟩ := hitems item' hmem' hfor'
      exact htouched item hitem h
    · rcases h.sends.mem hmem' with hmem' | ⟨item, hitem, h⟩
      · exact hold item' (.inr hmem') hfor'
      · exact htouched item hitem h
  · -- the packet id is handed out for the first time
    have hnew : p ∉ c.log.packetIds := by
      intro hmem
      have hpos := List.count_pos_iff.mpr hmem
      rw [hids, List.count_append, List.count_singleton_self] at honce
      omega
    have hmem : p ∈ c'.log.packetIds := hids ▸ List.mem_append_right _ List.mem_cons_self
    refine ⟨fun _ _ _ _ => hmem, fun _ _ _ => hmem, fun m hmem hm hid item' hmem' hfor' => ?_⟩
    rcases hmem' with hmem' | hmem'
    · rcases hmessages m hmem hm with hpast | hin
      · exact absurd (hc.handedOut m hpast hm hid) hnew
      · exact (hin item' hmem').resolve_left fun hitem => hnew (hnumbered.mem_packetIds hp hitem hfor')
    · exact absurd (hsent item' hmem' hfor') hnew

/-- A message and its packet id, if that is handed out once in a run. -/
theorem run_identifies (env : Env cfg) (generatedClientId : CString) (actions : List Action) (hp : p ≠ 0)
    (honce : ((new cfg generatedClientId).run env actions).log.packetIds.count p ≤ 1) :
    ((new cfg generatedClientId).run env actions).Identifies p ∧
      ((new cfg generatedClientId).run env actions).Releases p := by
  have hrun := run_invariant env (fun c => c.QueuesProper ∧ c.Numbered ∧
    (c.log.packetIds.count p ≤ 1 → c.Identifies p ∧ c.Releases p)) generatedClientId ?_ ?_ actions
  · exact hrun.2.2 honce
  · refine ⟨fun _ h => absurd h List.not_mem_nil, ⟨rfl, rfl, List.Subperm.refl _⟩, fun _ =>
      ⟨⟨fun _ h => absurd h List.not_mem_nil, fun _ h => absurd h List.not_mem_nil,
        fun _ h => absurd h List.not_mem_nil⟩, new_releases generatedClientId p⟩⟩
  · rintro c c' h ⟨hproper, hnumbered, hc⟩
    refine ⟨Flows.queuesProper h.flows hproper, h.deal.numbered hproper hnumbered, fun honce => ?_⟩
    have hle : c.log.packetIds.count p ≤ c'.log.packetIds.count p := by
      rcases h.deal.ownIds hproper with ⟨hids, -⟩ | ⟨packetId, hids, -⟩ <;> rw [hids]
      exact (List.sublist_append_left _ _).count_le p
    obtain ⟨hidentifies, hreleases⟩ := hc (hle.trans honce)
    refine ⟨h.identifies hp hproper hnumbered honce hidentifies,
      h.releases hp hproper (fun hids hmem => ?_) hreleases⟩
    have hpos := List.count_pos_iff.mpr (hnumbered.ownIds.subset hmem)
    rw [hids, List.count_append, List.count_singleton_self] at honce
    omega

/-! ### What arrives -/

theorem sent_prefix {earlier log : Log} (h : earlier <:+ log) : earlier.sent <+: log.sent := by
  obtain ⟨new, rfl⟩ := h
  rw [Log.sent, Log.sent, List.filterMap_append, List.reverse_append]
  exact List.prefix_append _ _

theorem arrived_sublist (gets : ℕ → Bool) (log : Log) : (log.arrived gets).Sublist log.sent := by
  have hsub := (List.filter_sublist (p := fun entry : OutgoingPacket × ℕ => gets entry.2)
    (l := log.sent.zipIdx)).map Prod.fst
  rwa [List.zipIdx_map_fst] at hsub

/-- What arrived before has arrived. -/
theorem arrived_subset {earlier log : Log} (h : earlier <:+ log) (gets : ℕ → Bool) :
    earlier.arrived gets ⊆ log.arrived gets := by
  obtain ⟨later, hlater⟩ := sent_prefix h
  rw [Log.arrived, Log.arrived, ← hlater, List.zipIdx_append, List.filter_append, List.map_append]
  exact List.subset_append_left _ _

/-- A message that was accepted is unanswered, or its answer came in. -/
theorem unanswered_or_answered {log : Log} {m : Message} (h : m ∈ log.accepted) : m ∈ log.unanswered ∨
    ∃ r earlier, r :: earlier <:+ log ∧ r.event.answers m.packetId := by
  induction log with
  | nil => cases h
  | cons r past ih =>
    rw [Log.accepted, List.filterMap_cons] at h
    by_cases hmessage : r.event.message = some m
    · left
      rw [Log.unanswered, hmessage]
      exact List.mem_append_left _ List.mem_cons_self
    have hpast : m ∈ Log.accepted past := by
      show m ∈ List.filterMap _ past
      cases hevent : r.event.message with
      | none => simpa only [hevent] using h
      | some m' =>
        simp only [hevent, List.mem_cons] at h
        rcases h with rfl | h
        · exact absurd hevent hmessage
        · exact h
    rcases ih hpast with hunanswered | ⟨s, earlier, hsuffix, hanswers⟩
    · by_cases hanswers : r.event.answers m.packetId
      · exact .inr ⟨r, past, List.suffix_rfl, hanswers⟩
      · left
        rw [Log.unanswered]
        exact List.mem_append_right _ (List.mem_filter.mpr ⟨hunanswered, by simpa using hanswers⟩)
    · exact .inr ⟨s, earlier, hsuffix.trans (List.suffix_cons _ _), hanswers⟩

/-- What an honest server acknowledges has arrived. -/
theorem arrived_of_answers {gets : ℕ → Bool} {log : Log} {r : Record} {earlier : Log} {packetId : UInt16}
    (hhonest : Trace.Always (fun r earlier => r.isHonest (Log.arrived gets earlier)) log)
    (hsuffix : r :: earlier <:+ log) (hanswers : r.event.answers packetId) :
    ∃ item ∈ log.arrived gets, item.isFor PacketType.PUBLISH packetId := by
  have hr := Trace.always_iff.mp hhonest r earlier hsuffix
  rw [Record.isHonest] at hr
  cases hevent : r.event with
  | packet report =>
    rw [hevent] at hr hanswers
    obtain rfl : report.packetId = packetId := (of_decide_eq_true hanswers).2
    obtain ⟨item, hmem, hfor⟩ := List.any_eq_true.mp (of_decide_eq_true hr hanswers)
    exact ⟨item, arrived_subset ((List.suffix_cons r earlier).trans hsuffix) gets hmem, hfor⟩
  | _ =>
    rw [hevent] at hanswers
    cases hanswers

/-- The PUBLISH of a message of quality 2 is that to the server. -/
theorem signal_of_isIn {m : Message} {item : OutgoingPacket} (hin : m.IsIn item) (hm : m.Regular)
    (hqos : m.qos = 2) : item.signal = some (.message m.packetId m.added) := by
  refine signal_eq_message.mpr ⟨isFor_iff.mpr ⟨packetType_of_isIn hin hm, hin.packetId⟩, ?_, hin.added⟩
  obtain ⟨dup, hdata⟩ := hin.data
  rw [OutgoingPacket.qos, hdata, Message.bytes, List.cons_append, List.headD_cons, hqos]
  exact (Parser.sentByte_spec (by decide) m.retain dup).2.2.1

/-- **Nothing is lost on the way**: a server that acknowledges only what arrived got every message of quality 1
or 2 that is not in the queue any more, if its packet id was handed out once.  It delivered it exactly once, if
the quality is 2. -/
theorem run_delivers (env : Env cfg) (generatedClientId : CString) (actions : List Action) (gets : ℕ → Bool)
    (hharmless : ∀ r ∈ ((new cfg generatedClientId).run env actions).log, r.event.isHarmless)
    (hhonest : Trace.Always (fun r earlier => r.isHonest (Log.arrived gets earlier))
      ((new cfg generatedClientId).run env actions).log)
    {m : Message} (hmem : m ∈ ((new cfg generatedClientId).run env actions).log.accepted) (hm : m.Regular)
    (honce : ((new cfg generatedClientId).run env actions).log.packetIds.count m.packetId = 1) :
    (∃ item ∈ ((new cfg generatedClientId).run env actions).outbox.items, m.IsIn item) ∨
      (∃ item ∈ ((new cfg generatedClientId).run env actions).log.arrived gets, m.IsIn item) ∧
        (m.qos = 2 → (server (((new cfg generatedClientId).run env actions).log.arrived gets)).delivered.count
          (m.packetId, m.added) = 1) := by
  have hkeeps : ((new cfg generatedClientId).run env actions).KeepsUnanswered :=
    run_deal_invariant env (fun r => r.event.isHarmless) KeepsUnanswered generatedClientId
      (fun _ h => absurd h List.not_mem_nil) (fun h hcondition _ hc => h.keepsUnanswered hcondition hc) actions
      hharmless
  generalize hc : (new cfg generatedClientId).run env actions = c at *
  rcases unanswered_or_answered hmem with hunanswered | ⟨r, earlier, hsuffix, hanswers⟩
  · exact .inl (hkeeps m hunanswered hm).2
  right
  have hid : m.packetId ≠ 0 := by
    have hids := (hc ▸ run_numbered env generatedClientId actions : c.Numbered).packetIds
    have hhanded : m.packetId ∈ c.log.packetIds := List.count_pos_iff.mp (by omega)
    rw [hids] at hhanded
    obtain ⟨n, -, hn⟩ := List.mem_map.mp hhanded
    exact hn ▸ idAt_ne_zero n
  obtain ⟨hidentifies, hreleases⟩ := hc ▸ run_identifies env generatedClientId actions hid (hc ▸ honce.le)
  have hisIn : ∀ item ∈ c.log.arrived gets, item.isFor PacketType.PUBLISH m.packetId → m.IsIn item :=
    fun item hitem => hidentifies.isIn m hmem hm rfl item (.inr ((arrived_sublist gets c.log).subset hitem))
  obtain ⟨item, hitem, hfor⟩ := arrived_of_answers hhonest hsuffix hanswers
  have hin := hisIn item hitem hfor
  refine ⟨⟨item, hitem, hin⟩, fun hqos => ?_⟩
  have hle : (server (c.log.arrived gets)).delivered.count (m.packetId, m.added) ≤ 1 :=
    Receiver.count_delivered_le_one (hreleases.not_again (arrived_sublist gets c.log) m.added)
  have hdelivered : (m.packetId, m.added) ∈ (server (c.log.arrived gets)).delivered := by
    refine Receiver.mem_delivered (List.mem_filterMap.mpr ⟨item, hitem, signal_of_isIn hin hm hqos⟩) ?_
    intro added hmessage
    obtain ⟨other, hother, hsignal⟩ := List.mem_filterMap.mp hmessage
    obtain ⟨hfor', -, hadded⟩ := signal_eq_message.mp hsignal
    exact hadded.symm.trans (hisIn other hother hfor').added
  have hpos := List.count_pos_iff.mpr hdelivered
  omega

/-- The PUBREL takes the place of the message in the queue. -/
theorem run_delivers_repeated :
    (server ((repeatedScript.run repeatedActions).log.arrived fun _ => true)).delivered.count (1, 0) = 1 := by
  have hqueue : ∀ item ∈ (repeatedScript.run repeatedActions).outbox.items, item.added ≠ 0 := by decide +kernel
  rcases run_delivers (repeatedScript.env .linux) ⟨[0x63], by decide⟩ repeatedActions (fun _ => true)
    (by decide +kernel) (by decide +kernel) (m := ⟨0, 1, ⟨[0x72], by decide⟩, [7, 8], 2, false⟩)
    (by decide +kernel) ⟨.inr rfl, by decide, by decide⟩ (by decide +kernel) with
    ⟨item, hmem, hin⟩ | ⟨-, hdelivered⟩
  · exact absurd hin.added (hqueue item hmem)
  · exact hdelivered rfl

end MqttClient

end EspMqttClient
