/-
  The client never waits for its own mutex.

  A call of the API takes the mutex and gives it back on every path, so it can be called wherever the mutex is
  free.  A handler runs with the mutex taken and leaves it taken, and between the two it is free for the
  callback.  So a run comes to its end whatever the callbacks call, with the mutex free again, and it does
  what it does without one (`run_eq_free`).  What is called while the mutex is taken, as from a payload callback,
  waits for ever if it needs the mutex (`call_eq_none_iff`).
-/
import EspMqttClient.MqttClient.Guarded

namespace EspMqttClient

/-- Does this call take the mutex in this state? -/
def MqttClient.takes {cfg : Config} (c : MqttClient cfg) : ApiCall → Bool
  | .connect => c.state = .disconnected
  | .publish .. | .publishChunked .. => !c.refusesPublish
  | .subscribe .. | .unsubscribe .. => c.state = .connected
  | .clearQueue _ => true
  | .disconnect _ | .set _ => false

namespace Guarded

variable {cfg : Config} (env : Env cfg)

/-- A client whose mutex is free. -/
abbrev free (c : MqttClient cfg) : Guarded cfg := ⟨c, false⟩

/-- A client whose mutex is taken. -/
abbrev held (c : MqttClient cfg) : Guarded cfg := ⟨c, true⟩

@[simp] theorem take_free (c : MqttClient cfg) : (free c).take = some (held c) := rfl

@[simp] theorem give_held (c : MqttClient cfg) : (held c).give = some (free c) := rfl

@[simp] theorem update_mk (c : MqttClient cfg) (taken : Bool) (f : MqttClient cfg → MqttClient cfg) :
    (⟨c, taken⟩ : Guarded cfg).update f = ⟨f c, taken⟩ := rfl

/-! ### What a user calls -/

theorem connect_free (c : MqttClient cfg) :
    (free c).connect env = some ((c.connect env).1, free (c.connect env).2) := by
  rw [connect, MqttClient.connect]
  split_ifs
  · simp only [take_free, Option.bind_eq_bind, Option.bind_some]
    rcases c.addPacketFront env fun alloc => Packet.connect cfg alloc c.settings.connectArgs with ⟨_ | _, client⟩
    · rfl
    · rfl
  · rfl

/-- Both ends of `publish` give the mutex back. -/
theorem finishPublish_held (c : MqttClient cfg) (packetId : UInt16) (event : Event)
    (result : Bool × MqttClient cfg) : (held c).finishPublish packetId event result =
      some (match result with
        | (true, client) => (packetId, free (client.note event))
        | (false, client) => (0, free (client.note (.onError packetId .OUT_OF_MEMORY)))) := by
  obtain ⟨_ | _, client⟩ := result
  · rfl
  · rfl

theorem publish_free (c : MqttClient cfg) (topic : CString) (qos : Byte) (retain : Bool) (payload : List Byte) :
    (free c).publish env topic qos retain payload =
      some ((c.publish env topic qos retain payload).1, free (c.publish env topic qos retain payload).2) := by
  rw [publish, MqttClient.publish]
  split_ifs
  · rfl
  · simp only [take_free, Option.bind_eq_bind, Option.bind_some, finishPublish_held]
    rcases (c.publishPacketId qos).2.addPacket env fun alloc =>
      Packet.publish cfg alloc (c.publishPacketId qos).1 topic payload qos retain with ⟨_ | _, client⟩
    · rfl
    · rfl

theorem publishChunked_free (c : MqttClient cfg) (topic : CString) (qos : Byte) (retain : Bool)
    (callback : PayloadCallback) (length : ℕ) : (free c).publishChunked env topic qos retain callback length =
      some ((c.publishChunked env topic qos retain callback length).1,
        free (c.publishChunked env topic qos retain callback length).2) := by
  rw [publishChunked, MqttClient.publishChunked]
  split_ifs
  · rfl
  · simp only [take_free, Option.bind_eq_bind, Option.bind_some, finishPublish_held]
    rcases (c.publishPacketId qos).2.addPacket env fun alloc =>
      Packet.publishChunked cfg alloc (c.publishPacketId qos).1 topic callback length qos retain with
      ⟨_ | _, client⟩
    · rfl
    · rfl

theorem subscribe_free (c : MqttClient cfg) (topic : CString) (qos : Byte) (args : List (CString × Byte)) :
    (free c).subscribe env topic qos args =
      some ((c.subscribe env topic qos args).1, free (c.subscribe env topic qos args).2) := by
  rw [subscribe, MqttClient.subscribe]
  split_ifs
  · rfl
  · simp only [take_free, Option.bind_eq_bind, Option.bind_some]
    rcases c.getNextPacketId.2.addPacket env fun alloc =>
      Packet.subscribe cfg alloc c.getNextPacketId.1 ((topic, qos) :: args) with ⟨_ | _, client⟩
    · rfl
    · rfl

theorem unsubscribe_free (c : MqttClient cfg) (topic : CString) (args : List CString) :
    (free c).unsubscribe env topic args =
      some ((c.unsubscribe env topic args).1, free (c.unsubscribe env topic args).2) := by
  rw [unsubscribe, MqttClient.unsubscribe]
  split_ifs
  · rfl
  · simp only [take_free, Option.bind_eq_bind, Option.bind_some]
    rcases c.getNextPacketId.2.addPacket env fun alloc =>
      Packet.unsubscribe cfg alloc c.getNextPacketId.1 (topic :: args) with ⟨_ | _, client⟩
    · rfl
    · rfl

/-- **A call** takes the mutex and gives it back, or does without. -/
theorem call_free (c : MqttClient cfg) (apiCall : ApiCall) :
    (free c).call env apiCall = some (free (c.call env apiCall)) := by
  cases apiCall with
  | connect => rw [call, connect_free]; rfl
  | publish topic qos retain payload => rw [call, publish_free]; rfl
  | publishChunked topic qos retain callback length => rw [call, publishChunked_free]; rfl
  | subscribe topic qos args => rw [call, subscribe_free]; rfl
  | unsubscribe topic args => rw [call, unsubscribe_free]; rfl
  | disconnect | clearQueue | set => rfl

theorem queueSize_free (c : MqttClient cfg) : (free c).queueSize = some (c.outbox.size, free c) := rfl

theorem calls_free (c : MqttClient cfg) (apiCalls : List ApiCall) :
    apiCalls.foldlM (fun g apiCall => call env g apiCall) (free c) =
      some (free (apiCalls.foldl (fun c apiCall => c.call env apiCall) c)) := by
  induction apiCalls generalizing c with
  | nil => rfl
  | cons apiCall apiCalls ih =>
    rw [List.foldlM_cons, call_free, Option.bind_eq_bind, Option.bind_some, ih, List.foldl_cons]

theorem runCallback_free (c : MqttClient cfg) : (free c).runCallback env =
    some (free ((env.callback c.tick).foldl (fun c apiCall => c.call env apiCall)
      (c.note (.calls (env.callback c.tick))).asked)) := by
  rw [runCallback]
  exact calls_free env _ _

/-- **A callback** in a handler: the mutex is free while it runs, and taken again afterwards. -/
theorem callback_held (c : MqttClient cfg) (callback : Callback) (event : Event) :
    (held c).callback env callback event = some (held (c.callback env callback event)) := by
  rw [Guarded.callback, MqttClient.callback]
  change (if (c.note event).settings.registered callback then _ else _) = _
  by_cases hregistered : (c.note event).settings.registered callback
  · rw [if_pos hregistered, if_pos hregistered]
    simp only [update_mk, give_held, Option.bind_eq_bind, Option.bind_some, runCallback_free, take_free]
  · rw [if_neg hregistered, if_neg hregistered]
    rfl

/-! ### Incoming packets -/

theorem onConnack_held (c : MqttClient cfg) : (held c).onConnack env = some (held (c.onConnack env)) := by
  rw [onConnack, MqttClient.onConnack]
  by_cases hcode : c.incoming.returnCode = 0
  · rw [if_pos hcode, if_pos hcode]
    exact callback_held env _ _ _
  · rw [if_neg hcode, if_neg hcode]
    rfl

theorem onPublish_held (c : MqttClient cfg) : (held c).onPublish env = some (held (c.onPublish env)) := by
  rw [onPublish, MqttClient.onPublish]
  dsimp only
  rcases c.answerPublish env with ⟨_ | _, client⟩
  · rfl
  · exact callback_held env _ _ _

theorem finish_held (c : MqttClient cfg) (type : MQTTPacketType) :
    (held c).finish env type = some (held (c.finish env type)) := by
  rw [finish, MqttClient.finish]
  dsimp only
  rcases c.findFirst type c.incoming.packetId with _ | it
  · rfl
  · exact callback_held env _ _ _

theorem onSuback_held (c : MqttClient cfg) : (held c).onSuback env = some (held (c.onSuback env)) := by
  rw [onSuback, MqttClient.onSuback]
  dsimp only
  rcases c.outbox.find (·.isFor PacketType.SUBSCRIBE c.incoming.packetId) with _ | it
  · rfl
  · exact callback_held env _ _ _

theorem onUnsuback_held (c : MqttClient cfg) : (held c).onUnsuback env = some (held (c.onUnsuback env)) := by
  rw [onUnsuback, MqttClient.onUnsuback]
  dsimp only
  rcases c.outbox.find (·.packet.packetId = c.incoming.packetId) with _ | it
  · rfl
  · exact callback_held env _ _ _

/-- Whichever branch is taken. -/
theorem ite_held {cond : Prop} [Decidable cond] {x y : Option (Bool × Guarded cfg)} {a b : Bool × MqttClient cfg}
    (hx : x = some (a.1, held a.2)) (hy : y = some (b.1, held b.2)) :
    (if cond then x else y) = some ((if cond then a else b).1, held (if cond then a else b).2) := by
  split
  · exact hx
  · exact hy

/-- **An incoming packet** is handled with the mutex taken. -/
theorem handle_held (c : MqttClient cfg) :
    (held c).handle env = some ((c.handle env).1, held (c.handle env).2) := by
  rw [handle, MqttClient.handle]
  refine ite_held rfl (ite_held ?_ (ite_held ?_ ?_))
  · simp only [update_mk, onConnack_held, Option.bind_eq_bind, Option.bind_some]
    rfl
  · simp only [update_mk, onPublish_held]
    split
    · rfl
    · rfl
  refine ite_held ?_ (ite_held rfl (ite_held rfl (ite_held ?_ (ite_held ?_ (ite_held ?_ (ite_held rfl rfl))))))
  · rw [update_mk, finish_held]
    rfl
  · rw [update_mk, finish_held]
    rfl
  · rw [update_mk, onSuback_held]
    rfl
  · rw [update_mk, onUnsuback_held]
    rfl

theorem checkIncomingLoop_held (fuel : ℕ) (c : MqttClient cfg) (input : List Byte) :
    checkIncomingLoop env fuel (held c) input = some (held (c.checkIncomingLoop env fuel input)) := by
  induction fuel generalizing c input with
  | zero => rfl
  | succ fuel ih =>
    rw [checkIncomingLoop, MqttClient.checkIncomingLoop]
    by_cases hempty : input = []
    · rw [if_pos hempty, if_pos hempty]
    rw [if_neg hempty, if_neg hempty]
    dsimp only
    rcases c.parser.parseInput input with ⟨result, bytesParsed, parser⟩
    cases result with
    | awaitData => exact ih _ _
    | protocolError => rfl
    | packet =>
      simp only [update_mk, handle_held, Option.bind_eq_bind, Option.bind_some]
      split
      · exact ih _ _
      · rfl

theorem checkIncoming_held (c : MqttClient cfg) :
    (held c).checkIncoming env = some (held (c.checkIncoming env)) := by
  rw [checkIncoming, MqttClient.checkIncoming]
  dsimp only
  split
  · rfl
  · exact checkIncomingLoop_held env _ _ _

/-! ### `loop` -/

theorem loopConnected_free (c : MqttClient cfg) :
    (free c).loopConnected env = some (free (c.loopConnected env)) := by
  rw [loopConnected, MqttClient.loopConnected]
  by_cases hconnected : env.connected c.tick
  · rw [if_pos hconnected, if_pos hconnected]
    simp only [update_mk, take_free, checkIncoming_held, Option.bind_eq_bind, Option.bind_some, give_held]
  · rw [if_neg hconnected, if_neg hconnected]
    rfl

theorem loopConnectingMqtt_free (c : MqttClient cfg) :
    (free c).loopConnectingMqtt env = some (free (c.loopConnectingMqtt env)) := by
  rw [loopConnectingMqtt, MqttClient.loopConnectingMqtt]
  by_cases hwait : cfg.waitForConnack
  · rw [if_pos hwait, if_pos hwait]
    by_cases hconnected : env.connected c.tick
    · rw [if_pos hconnected, if_pos hconnected]
      simp only [update_mk, take_free, checkIncoming_held, Option.bind_eq_bind, Option.bind_some, give_held]
    · rw [if_neg hconnected, if_neg hconnected]
      rfl
  · rw [if_neg hwait, if_neg hwait, loopConnected_free]

theorem loopDisconnectingMqtt1_free (c : MqttClient cfg) :
    (free c).loopDisconnectingMqtt1 env = some (free (c.loopDisconnectingMqtt1 env)) := by
  rw [loopDisconnectingMqtt1, MqttClient.loopDisconnectingMqtt1]
  simp only [take_free, Option.bind_eq_bind, Option.bind_some]
  by_cases hempty : c.outbox.items = []
  · rw [if_pos hempty, if_pos hempty]
    rcases c.addPacket env fun alloc => Packet.control cfg alloc PacketType.DISCONNECT with ⟨_ | _, client⟩
    · simp only [give_held, update_mk, take_free, checkIncoming_held, Option.bind_some]
    · simp only [give_held, update_mk, checkIncoming_held, Option.bind_some]
  · rw [if_neg hempty, if_neg hempty]
    simp only [give_held, update_mk, checkIncoming_held, Option.bind_some]

theorem loopDisconnectingTcp2_free (c : MqttClient cfg) :
    (free c).loopDisconnectingTcp2 env = some (free (c.loopDisconnectingTcp2 env)) := by
  rw [loopDisconnectingTcp2, MqttClient.loopDisconnectingTcp2]
  by_cases hdisconnected : env.disconnected c.tick
  · rw [if_pos hdisconnected, if_pos hdisconnected, MqttClient.callback]
    simp only [update_mk, take_free, Option.bind_eq_bind, Option.bind_some, give_held, runCallback_free]
    split
    · rfl
    · rfl
  · rw [if_neg hdisconnected, if_neg hdisconnected]
    rfl

/-- **`loop`** gives the mutex back before it returns. -/
theorem loop_free (c : MqttClient cfg) : (free c).loop env = some (free (c.loop env)) := by
  rw [loop, MqttClient.loop]
  cases c.state with
  | connectingMqtt => exact loopConnectingMqtt_free env c
  | connected | disconnectingMqtt2 => exact loopConnected_free env c
  | disconnectingMqtt1 => exact loopDisconnectingMqtt1_free env c
  | disconnectingTcp2 => exact loopDisconnectingTcp2_free env c
  | disconnected | connectingTcp1 | connectingTcp2 | disconnectingTcp1 => rfl

/-! ### Runs -/

/-- **No deadlock.**  Every run comes to its end, the registered callbacks may call any function of the API, the
mutex is free after each action, and the client does what it does without a mutex. -/
theorem run_eq_free (c : MqttClient cfg) (actions : List MqttClient.Action) :
    (free c).run env actions = some (free (c.run env actions)) := by
  induction actions generalizing c with
  | nil => rfl
  | cons action actions ih =>
    have hact : (free c).act env action = some (free (c.act env action)) := by
      cases action with
      | call apiCall => exact call_free env c apiCall
      | loop => exact loop_free env c
    rw [run, List.foldlM_cons, hact, Option.bind_eq_bind, Option.bind_some]
    exact ih _

/-- **A call while the mutex is taken**, as from a payload callback, waits for ever exactly if it needs the
mutex. -/
theorem call_eq_none_iff (c : MqttClient cfg) (apiCall : ApiCall) :
    (held c).call env apiCall = none ↔ c.takes apiCall := by
  cases apiCall with
  | connect =>
    rw [call, connect, MqttClient.takes]
    by_cases hstate : c.state = .disconnected
    · simp [hstate, take]
    · simp [hstate]
  | publish topic qos retain payload =>
    rw [call, publish, MqttClient.takes]
    by_cases hrefuses : c.refusesPublish
    · simp [hrefuses]
    · simp [hrefuses, take]
  | publishChunked topic qos retain callback length =>
    rw [call, publishChunked, MqttClient.takes]
    by_cases hrefuses : c.refusesPublish
    · simp [hrefuses]
    · simp [hrefuses, take]
  | subscribe topic qos args =>
    rw [call, subscribe, MqttClient.takes]
    by_cases hstate : c.state = .connected
    · simp [hstate, take]
    · simp [hstate]
  | unsubscribe topic args =>
    rw [call, unsubscribe, MqttClient.takes]
    by_cases hstate : c.state = .connected
    · simp [hstate, take]
    · simp [hstate]
  | clearQueue deleteSessionData => exact iff_of_true rfl rfl
  | disconnect force => exact iff_of_false nofun Bool.false_ne_true
  | set setting => exact iff_of_false nofun Bool.false_ne_true

end Guarded

end EspMqttClient
