/-
  Messages of quality 2 come in once.

  The server sends the PUBLISH of a message before its PUBREL and uses the packet id for another message only
  after the PUBCOMP.  So of what comes in a PUBLISH begins a new message unless one with its packet id came in
  before and no PUBREL since: that is what a plain receiver delivers (`Log.messages`).  The client is a queueing
  one (`run_inStep`).  A message that is sent again it does not deliver again, but neither does it deliver a new
  one under a packet id whose PUBRECs were not all released (`run_exactlyOnce`).
-/
import EspMqttClient.MqttClient.Equiv.InTouch
import EspMqttClient.Packets.Equiv.LongTopic

namespace EspMqttClient

namespace Log

variable (sent : ℕ → List ServerPacket)

instance (log : Log) : Decidable (log.IsServed sent) := inferInstanceAs (Decidable (Trace.Always _ log))

/-- What the server sent for the exchanges of quality 2, as far as it came in, oldest first. -/
def exchanges (log : Log) : List (Signal UInt16 Publish) := (log.receivedPackets sent).filterMap (·.signal)

/-- The messages, each of them as it came in first, newest first. -/
def messages (log : Log) : List Publish := (Receiver.run (log.exchanges sent)).delivered.map Prod.snd

end Log

namespace MqttClient

variable {cfg : Config}

/-- A receiver delivers what ends so. -/
theorem endsIn_delivered {delivered : List (UInt16 × Publish)} {delivered' : List (UInt16 × Parser.Report)}
    (h : List.Forall₂ (fun x y => x.1 = y.1 ∧ x.2.EndsIn y.2) delivered delivered') :
    List.Forall₂ Publish.EndsIn (delivered.map Prod.snd) (delivered'.map Prod.snd) := by
  rw [List.forall₂_map_left_iff, List.forall₂_map_right_iff]
  exact h.imp fun _ _ h => h.2

/-- **Messages of quality 2 come in once**, the last slice of each of them, exactly if a packet id is not used
again before as many PUBRELs came in with it as PUBLISHes, in the order of the PUBRECs. -/
theorem run_exactlyOnce (env : Env cfg) (halloc : ∀ tick, (env.alloc tick).Suffices cfg)
    (sent : ℕ → List ServerPacket) (hfits : ∀ k, ∀ packet ∈ sent k, packet.Fits cfg)
    (generatedClientId : CString) (actions : List Action)
    (hserved : ((new cfg generatedClientId).run env actions).log.IsServed sent)
    (hsheltered : ∀ r ∈ ((new cfg generatedClientId).run env actions).log, r.isSheltered)
    (hspares : ∀ r ∈ ((new cfg generatedClientId).run env actions).log, r.sparesPubrecs) :
    List.Forall₂ Publish.EndsIn (((new cfg generatedClientId).run env actions).log.messages sent)
        ((new cfg generatedClientId).run env actions).log.delivered ↔
      Receiver.Released (((new cfg generatedClientId).run env actions).log.exchanges sent) := by
  have hinStep := run_inStep env halloc generatedClientId actions hsheltered hspares
  have hagrees := run_agrees env hfits generatedClientId actions hserved hsheltered
  obtain ⟨-, hdelivered⟩ := Receiver.enqueues_agrees hagrees
  have hends := endsIn_delivered hdelivered
  rw [← hinStep.delivered] at hends
  constructor
  · intro hmessages
    have hlength := hmessages.length_eq.trans hends.length_eq.symm
    rw [Log.messages, List.length_map, List.length_map] at hlength
    exact Receiver.released_of_length hlength.symm
  · intro hreleased
    rw [Log.messages, ← Receiver.delivered_enqueues_of_released hreleased]
    exact hends

/-- A message of one byte. -/
def shortMessage (dup : Bool) (content : Byte) : Publish :=
  { Parser.longPublish with
    dup
    length := [6]
    topic := [0x62]
    packetId := 1
    payload := [content]
    packetId_ne := by decide
    topic_le := by decide
    isLengthField := by decide
    decode_length := rfl }

/-- A server that sends a PUBLISH twice, PUBRELs for it, and another message under the same packet id. -/
def reusingServer (pubrels : ℕ) : List ServerPacket :=
  [.connack true 0, .publish (shortMessage false 7), .publish (shortMessage true 7)] ++
    List.replicate pubrels (.ack PacketType.PUBREL 1 (.inl (.inr (.inr (.inl rfl)))) (by decide)) ++
    [.publish (shortMessage false 8)]

def reusingScript (pubrels : ℕ) : Script where
  read :=
    let bytes := (reusingServer pubrels).flatMap ServerPacket.bytes
    [(9, bytes.take 20), (23, (bytes.drop 20).take (4 * pubrels)), (33, bytes.drop (20 + 4 * pubrels)),
      (37, bytes.drop (20 + 4 * pubrels))]

def reusingActions : List Action := .call .connect :: List.replicate 5 .loop

/-- Two PUBRELs release both PUBRECs. -/
theorem run_exactlyOnce_released :
    List.Forall₂ Publish.EndsIn (((reusingScript 2).run reusingActions).log.messages fun _ => reusingServer 2)
        ((reusingScript 2).run reusingActions).log.delivered ↔
      Receiver.Released (((reusingScript 2).run reusingActions).log.exchanges fun _ => reusingServer 2) :=
  run_exactlyOnce _ (fun _ => ⟨rfl, rfl, le_rfl⟩) _ (fun _ => by decide) _ reusingActions (by decide +kernel)
    (by decide +kernel) (by decide +kernel)

example : ((reusingScript 2).run reusingActions).log.delivered.map (·.payload) = [[8], [7]] := by decide +kernel

/-- The server uses a packet id for a new message only after the client sent the PUBCOMP. -/
def reusesCompleted (r : Record) (past : Log) : Bool :=
  match r.event.signal with
  | some (.message id _) =>
    id ∈ (Receiver.run past.signals).stored ∨ past.all (fun s => match s.event.signal with
        | some (.message id' _) => id' ≠ id
        | _ => true) ∨
      Trace.since (fun s => match s.event.signal with
          | some (.message id' _) => id' = id
          | _ => false)
        (fun s => match s.event with
          | .sent packet => packet.packetType = PacketType.PUBCOMP ∧ packet.packetId = id
          | _ => false) past
  | _ => true

/-- One PUBREL does not, and the next message is dropped. -/
theorem not_exactlyOnce_repeated : ¬ ∀ (env : Env .linux) (generatedClientId : CString) (actions : List Action)
    (sent : ℕ → List ServerPacket), let c := (new .linux generatedClientId).run env actions
    (∀ tick, (env.alloc tick).Suffices .linux) → (∀ k, ∀ packet ∈ sent k, packet.Fits .linux) →
      c.log.IsServed sent → (∀ r ∈ c.log, r.isSheltered) → (∀ r ∈ c.log, r.sparesPubrecs) →
      Trace.Always (fun r past => reusesCompleted r past) c.log →
      List.Forall₂ Publish.EndsIn (c.log.messages sent) c.log.delivered := by
  intro h
  have hsame := h ((reusingScript 1).env .linux) ⟨[0x63], by decide⟩ reusingActions (fun _ => reusingServer 1)
    (fun _ => ⟨rfl, rfl, le_rfl⟩) (fun _ => by decide) (by decide +kernel) (by decide +kernel)
    (by decide +kernel) (by decide +kernel)
  exact absurd hsame.length_eq (by decide +kernel)

end MqttClient

end EspMqttClient
