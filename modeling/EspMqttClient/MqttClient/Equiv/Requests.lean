/-
  A request that fails leaves no trace in the queue.

  `publish`, `subscribe` and `unsubscribe` return 0 when the client is in a state in which they are not
  allowed or when the packet could not be built.  A packet whose constructor failed was linked into the
  queue already, and is taken out again (`Represents.emplace_remove`).
-/
import EspMqttClient.MqttClient.Equiv.Flow
import EspMqttClient.Outbox.Equiv.Refinement

namespace EspMqttClient

namespace MqttClient

variable {cfg : Config} {env : Env cfg}

/-- The queue is the same, and so is what was written of its current packet. -/
structure SameQueue (c c' : MqttClient cfg) : Prop where
  outbox : c'.outbox = c.outbox
  bytesSent : c'.bytesSent = c.bytesSent

theorem publishPacketId_sameQueue (c : MqttClient cfg) (qos : Byte) : SameQueue c (c.publishPacketId qos).2 := by
  rw [publishPacketId]
  split_ifs
  · exact ⟨rfl, rfl⟩
  · exact ⟨rfl, rfl⟩

/-- The packet id that `publish` would return is not 0, for a message of quality 0 either. -/
theorem publishPacketId_pos (c : MqttClient cfg) (qos : Byte) : (c.publishPacketId qos).1 ≠ 0 := by
  by_cases hqos : qos = 0
  · rw [publishPacketId, hqos, if_neg (by decide)]
    exact (by decide : (1 : UInt16) ≠ 0)
  · exact publishPacketId_ne_zero c hqos

theorem publish_sameQueue {c : MqttClient cfg} {topic : CString} {qos : Byte} {retain : Bool}
    {payload : List Byte} (h : (c.publish env topic qos retain payload).1 = 0) :
    SameQueue c (c.publish env topic qos retain payload).2 := by
  rw [publish] at h ⊢
  split_ifs at h ⊢
  · exact ⟨rfl, rfl⟩
  · have hsame := publishPacketId_sameQueue c qos
    rcases addPacket_cases env (c.publishPacketId qos).2 fun alloc =>
      Packet.publish cfg alloc (c.publishPacketId qos).1 topic payload qos retain with
      ⟨packet, -, hadd⟩ | ⟨-, hadd⟩ <;> simp only [hadd] at h ⊢
    · exact absurd h (publishPacketId_pos c qos)
    · exact ⟨hsame.outbox, hsame.bytesSent⟩

theorem publishChunked_sameQueue {c : MqttClient cfg} {topic : CString} {qos : Byte} {retain : Bool}
    {callback : PayloadCallback} {length : ℕ}
    (h : (c.publishChunked env topic qos retain callback length).1 = 0) :
    SameQueue c (c.publishChunked env topic qos retain callback length).2 := by
  rw [publishChunked] at h ⊢
  split_ifs at h ⊢
  · exact ⟨rfl, rfl⟩
  · have hsame := publishPacketId_sameQueue c qos
    rcases addPacket_cases env (c.publishPacketId qos).2 fun alloc =>
      Packet.publishChunked cfg alloc (c.publishPacketId qos).1 topic callback length qos retain with
      ⟨packet, -, hadd⟩ | ⟨-, hadd⟩ <;> simp only [hadd] at h ⊢
    · exact absurd h (publishPacketId_pos c qos)
    · exact ⟨hsame.outbox, hsame.bytesSent⟩

theorem subscribe_sameQueue {c : MqttClient cfg} {topic : CString} {qos : Byte} {args : List (CString × Byte)}
    (h : (c.subscribe env topic qos args).1 = 0) : SameQueue c (c.subscribe env topic qos args).2 := by
  rw [subscribe] at h ⊢
  split_ifs at h ⊢
  · exact ⟨rfl, rfl⟩
  · rcases addPacket_cases env c.getNextPacketId.2 fun alloc =>
      Packet.subscribe cfg alloc c.getNextPacketId.1 ((topic, qos) :: args) with
      ⟨packet, -, hadd⟩ | ⟨-, hadd⟩ <;> simp only [hadd] at h ⊢
    · exact absurd h (getNextPacketId_ne_zero c)
    · exact ⟨rfl, rfl⟩

theorem unsubscribe_sameQueue {c : MqttClient cfg} {topic : CString} {args : List CString}
    (h : (c.unsubscribe env topic args).1 = 0) : SameQueue c (c.unsubscribe env topic args).2 := by
  rw [unsubscribe] at h ⊢
  split_ifs at h ⊢
  · exact ⟨rfl, rfl⟩
  · rcases addPacket_cases env c.getNextPacketId.2 fun alloc =>
      Packet.unsubscribe cfg alloc c.getNextPacketId.1 (topic :: args) with
      ⟨packet, -, hadd⟩ | ⟨-, hadd⟩ <;> simp only [hadd] at h ⊢
    · exact absurd h (getNextPacketId_ne_zero c)
    · exact ⟨rfl, rfl⟩

/-- **A failed request changes nothing in the queue**, which holds of the linked queue too: a node that is
appended and taken out again leaves what was there. -/
theorem failed_sameQueue (env : Env cfg) (c : MqttClient cfg) :
    (∀ topic qos retain payload, (c.publish env topic qos retain payload).1 = 0 →
      SameQueue c (c.publish env topic qos retain payload).2) ∧
    (∀ topic qos retain callback length, (c.publishChunked env topic qos retain callback length).1 = 0 →
      SameQueue c (c.publishChunked env topic qos retain callback length).2) ∧
    (∀ topic qos args, (c.subscribe env topic qos args).1 = 0 →
      SameQueue c (c.subscribe env topic qos args).2) ∧
    (∀ topic args, (c.unsubscribe env topic args).1 = 0 → SameQueue c (c.unsubscribe env topic args).2) ∧
    ∀ (o : Outbox OutgoingPacket) (l : CursorList OutgoingPacket) (addrs : List Addr), o.Represents l addrs →
      ∀ a, o.heap a = none → ∀ item, ∃ o₁ it₁ o₂ it₂ addrs', o.emplace (some a) item = some (o₁, it₁) ∧
        o₁.remove it₁ = some (o₂, it₂) ∧ o₂.Represents l addrs' :=
  ⟨fun _ _ _ _ h => publish_sameQueue h, fun _ _ _ _ _ h => publishChunked_sameQueue h,
    fun _ _ _ h => subscribe_sameQueue h, fun _ _ h => unsubscribe_sameQueue h,
    fun _ _ _ h _ ha item => h.emplace_remove ha item⟩

/-- Without memory for its bytes a packet is appended and taken out again, while another one is being sent. -/
theorem failed_sameQueue_publish :
    let env := (({ read := [(9, [0x20, 2, 1, 0])], write := [(15, 3), (19, 0)] } : Script).env .linux)
    let c := (MqttClient.new .linux ⟨[0x63], by decide⟩).run env
      [.call .connect, .loop, .loop, .call (.publish ⟨[0x61], by decide⟩ 1 false [7, 8]), .loop]
    let poor : Env .linux := { env with alloc := fun _ => ⟨20000, false, true⟩ }
    c.bytesSent = 3 ∧ SameQueue c (c.publish poor ⟨[0x62], by decide⟩ 1 false [9]).2 := by
  intro env c poor
  exact ⟨by decide +kernel, (failed_sameQueue poor c).1 _ _ _ _ (by decide +kernel)⟩

end MqttClient

end EspMqttClient
