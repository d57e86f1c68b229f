/-
  What an acknowledgement does to the queue.

  A handler takes the packet that is acknowledged out of the queue, the next packet of the exchange may come
  to the back, and then the user is told (`Settles`).  An UNSUBACK alone may hit another packet
  (`touchesOnly_iff`).  A PUBACK and a PUBREC are honoured when no PUBLISH of the other quality of service
  is in front (`honours_iff`), and without memory for the next packet the exchange is lost
  (`outOfMemory_iff`).
-/
import EspMqttClient.MqttClient.Equiv.Flow
import EspMqttClient.MqttClient.Equiv.Handled
import EspMqttClient.Packets.Equiv.Built

namespace EspMqttClient

/-- The packets that acknowledge another one. -/
inductive Ack
  | puback
  | pubrec
  | pubrel
  | pubcomp
  | suback
  | unsuback
deriving DecidableEq, Repr

namespace Ack

/-- The type of the packet that is acknowledged. -/
def request : Ack → MQTTPacketType
  | puback => PacketType.PUBLISH
  | pubrec => PacketType.PUBLISH
  | pubrel => PacketType.PUBREC
  | pubcomp => PacketType.PUBREL
  | suback => PacketType.SUBSCRIBE
  | unsuback => PacketType.UNSUBSCRIBE

/-- The type of the packet that follows. -/
def next : Ack → Option MQTTPacketType
  | pubrec => some PacketType.PUBREL
  | pubrel => some PacketType.PUBCOMP
  | _ => none

end Ack

/-- Is there memory for an acknowledgement? -/
def Alloc.Suffices (cfg : Config) (alloc : Alloc) : Prop :=
  alloc.node ∧ alloc.malloc ∧ cfg.minFreeMemory ≤ alloc.freeMemory

instance (cfg : Config) (alloc : Alloc) : Decidable (alloc.Suffices cfg) :=
  inferInstanceAs (Decidable (_ ∧ _ ∧ _))

/-- The environment of a script that runs out of memory at some question. -/
def Script.poorEnv (cfg : Config) (script : Script) (limit : ℕ) : Env cfg where
  __ := script.env cfg
  alloc tick := if tick < limit then ⟨cfg.minFreeMemory, true, true⟩ else ⟨cfg.minFreeMemory, false, true⟩

/-- Is it a PUBLISH with this quality of service? -/
def OutgoingPacket.isPublish (qos : Byte) (item : OutgoingPacket) : Bool :=
  item.isType PacketType.PUBLISH ∧ publishQos (item.packet.data.headD 0) = qos

namespace MqttClient

variable {cfg : Config} (env : Env cfg)

/-- The handler of an acknowledgement. -/
def onAck (c : MqttClient cfg) : Ack → MqttClient cfg
  | .puback => c.onPuback env
  | .pubrec => c.onPubrec env
  | .pubrel => c.onPubrel env
  | .pubcomp => c.onPubcomp env
  | .suback => c.onSuback env
  | .unsuback => c.onUnsuback env

/-- The callback that an acknowledgement leads to, if it leads to one. -/
def tell (c : MqttClient cfg) : Ack → MqttClient cfg
  | .puback | .pubcomp => c.callback env .onPublish (.onPublish c.incoming.packetId)
  | .pubrec | .pubrel => c
  | .suback => c.callback env .onSubscribe
      (.onSubscribe c.incoming.packetId (c.parser.payloadData.take c.incoming.payload.total))
  | .unsuback => c.callback env .onUnsubscribe (.onUnsubscribe c.incoming.packetId)

/-- Up to the callback `item`, a packet that is acknowledged, is taken out from between `before` and `behind`,
and `follow`, at most the next packet of the exchange, is added at the back. -/
structure Settles (ack : Ack) (before : List OutgoingPacket) (item : OutgoingPacket)
    (behind follow : List OutgoingPacket) (c c' : MqttClient cfg) : Prop where
  items : c.outbox.items = before ++ item :: behind
  acknowledged : item.isFor ack.request c.incoming.packetId
  rest : c'.outbox.items = before ++ behind ++ follow
  follow : follow = [] ∨ ∃ type next, ack.next = some type ∧ follow = [next] ∧
    Builds (fun alloc => Packet.ack cfg alloc type c.incoming.packetId) next.packet
  parser : c'.parser = c.parser
  log : ∃ r : Record, r.event = .remove before.length ∧ c'.log = r :: c.log

/-- An acknowledgement does nothing, or it settles a packet that it acknowledges and tells the user. -/
def TouchesOnly (ack : Ack) (c : MqttClient cfg) : Prop :=
  c.onAck env ack = c ∨
    ∃ c' before item behind follow, Settles ack before item behind follow c c' ∧
      c.onAck env ack = c'.tell env ack

variable {env}

/-! ### The packet that is acknowledged -/

/-- A packet is taken out. -/
theorem remove_settles {c : MqttClient cfg} {ack : Ack} {it : ℕ} {item : OutgoingPacket}
    (hitem : c.outbox.items[it]? = some item) (hfor : item.isFor ack.request c.incoming.packetId) :
    Settles ack (c.outbox.items.take it) item (c.outbox.items.drop (it + 1)) [] c (c.remove it) := by
  obtain ⟨hlt, rfl⟩ := List.getElem?_eq_some_iff.mp hitem
  refine ⟨?_, hfor, ?_, .inl rfl, rfl, ⟨_, ?_, rfl⟩⟩
  · rw [← List.drop_eq_getElem_cons hlt, List.take_append_drop]
  · show (c.outbox.remove it).items = _
    rw [CursorList.items_remove, List.eraseIdx_eq_take_drop_succ, List.append_nil]
  · rw [List.length_take_of_le (Nat.le_of_lt hlt)]

/-- A packet is taken out, and the next one of the exchange is at the back if there is memory for it. -/
theorem proceed_settles (env : Env cfg) {c : MqttClient cfg} {ack : Ack} {next : MQTTPacketType} {it : ℕ}
    {item : OutgoingPacket} (hnext : ack.next = some next) (hitem : c.outbox.items[it]? = some item)
    (hfor : item.isFor ack.request c.incoming.packetId) :
    ∃ follow, Settles ack (c.outbox.items.take it) item (c.outbox.items.drop (it + 1)) follow c
      ((c.addPacket env fun alloc => Packet.ack cfg alloc next c.incoming.packetId).2.remove it) := by
  obtain ⟨hitems, -, hrest, -, -, -⟩ := remove_settles hitem hfor
  obtain ⟨hlt, -⟩ := List.getElem?_eq_some_iff.mp hitem
  have hlength : (c.outbox.items.take it).length = it := List.length_take_of_le (Nat.le_of_lt hlt)
  rcases addPacket_cases env c fun alloc => Packet.ack cfg alloc next c.incoming.packetId with
    ⟨packet, hbuild, hadd⟩ | ⟨-, hadd⟩ <;> rw [hadd]
  · refine ⟨[⟨0, packet, c.tick⟩], hitems, hfor, ?_, .inr ⟨next, _, hnext, rfl, _, hbuild⟩, rfl, _, ?_, rfl⟩
    · show ((c.outbox.emplace ⟨0, packet, c.tick⟩).remove it).items = _
      rw [CursorList.items_remove, CursorList.items_emplace, List.eraseIdx_append_of_lt_length hlt,
        List.eraseIdx_eq_take_drop_succ]
    · rw [hlength]
  · refine ⟨[], hitems, hfor, hrest, .inl rfl, rfl, _, ?_, rfl⟩
    rw [hlength]

theorem isFor_of_isType {item : OutgoingPacket} {type : MQTTPacketType} {packetId : UInt16}
    (htype : item.isType type) (hid : item.packet.packetId = packetId) : item.isFor type packetId := by
  rw [OutgoingPacket.isFor, decide_eq_true_iff]
  exact ⟨htype, hid⟩

theorem finish_touchesOnly (c : MqttClient cfg) {ack : Ack}
    (hack : c.onAck env ack = c.finish env ack.request)
    (htell : ∀ c' : MqttClient cfg, c'.tell env ack =
      c'.callback env .onPublish (.onPublish c'.incoming.packetId)) : c.TouchesOnly env ack := by
  rw [TouchesOnly, hack, finish]
  cases hfind : c.findFirst ack.request c.incoming.packetId with
  | none => exact .inl rfl
  | some it =>
    obtain ⟨item, -, hitem, htype, hid⟩ := findFirst_spec hfind
    exact .inr ⟨_, _, _, _, _, remove_settles hitem (isFor_of_isType htype hid), (htell _).symm⟩

theorem proceed_touchesOnly (c : MqttClient cfg) {ack : Ack} {next : MQTTPacketType}
    (hnext : ack.next = some next) (hack : c.onAck env ack = c.proceed env ack.request next)
    (htell : ∀ c' : MqttClient cfg, c'.tell env ack = c') : c.TouchesOnly env ack := by
  rw [TouchesOnly, hack, proceed]
  cases hfind : c.findFirst ack.request c.incoming.packetId with
  | none => exact .inl rfl
  | some it =>
    obtain ⟨item, -, hitem, htype, hid⟩ := findFirst_spec hfind
    obtain ⟨follow, hsettles⟩ := proceed_settles env hnext hitem (isFor_of_isType htype hid)
    exact .inr ⟨_, _, _, _, _, hsettles, (htell _).symm⟩

theorem suback_touchesOnly (c : MqttClient cfg) : c.TouchesOnly env .suback := by
  rw [TouchesOnly, onAck, onSuback]
  cases hfind : c.outbox.find (·.isFor PacketType.SUBSCRIBE c.incoming.packetId) with
  | none => exact .inl rfl
  | some it =>
    obtain ⟨item, hitem, hfor⟩ := find_spec hfind
    exact .inr ⟨_, _, _, _, _, remove_settles hitem hfor, rfl⟩

/-- The first packet with the packet id that came in is an UNSUBSCRIBE, if there is one. -/
def Unsubscribing (c : MqttClient cfg) : Prop :=
  ∀ it ∈ c.outbox.find (·.packet.packetId = c.incoming.packetId), ∀ item ∈ c.outbox.items[it]?,
    item.isType PacketType.UNSUBSCRIBE

/-- What a callback is called after is in the log. -/
theorem suffix_tell (env : Env cfg) (c : MqttClient cfg) (ack : Ack) : c.log <:+ (c.tell env ack).log := by
  have hcallback : ∀ callback event, c.log <:+ (c.callback env callback event).log := by
    intro callback event
    exact (List.suffix_cons _ _).trans (@callback_steps _ env c callback event).grows.log_suffix
  cases ack with
  | puback => exact hcallback _ _
  | pubrec => exact List.suffix_rfl
  | pubrel => exact List.suffix_rfl
  | pubcomp => exact hcallback _ _
  | suback => exact hcallback _ _
  | unsuback => exact hcallback _ _

/-- An UNSUBACK takes out the first packet with its packet id, whatever it is. -/
theorem unsuback_touchesOnly_iff (c : MqttClient cfg) : c.TouchesOnly env .unsuback ↔ c.Unsubscribing := by
  have hack : c.onAck env .unsuback = c.onUnsuback env := rfl
  rw [TouchesOnly, Unsubscribing, hack, onUnsuback]
  cases hfind : c.outbox.find (·.packet.packetId = c.incoming.packetId) with
  | none => exact ⟨fun _ _ h => (by cases h), fun _ => .inl rfl⟩
  | some it =>
    dsimp only
    obtain ⟨item, hitem, hid⟩ := find_spec hfind
    constructor
    · intro htouches it' hit other hother
      obtain rfl := Option.some.inj hit
      obtain rfl := Option.some.inj (hitem.symm.trans hother)
      have hsuffix : (c.remove it).log <:+ ((c.remove it).tell env .unsuback).log := suffix_tell env _ _
      change (c.remove it).tell env .unsuback = c ∨ _ at htouches
      rcases htouches with hsame | ⟨c', before, gone, behind, follow, hsettles, hsame⟩
      · rw [hsame] at hsuffix
        have hlength := hsuffix.length_le
        simp only [MqttClient.remove, note, List.length_cons] at hlength
        omega
      · -- the log says which packet was taken out
        change (c.remove it).tell env .unsuback = c'.tell env .unsuback at hsame
        obtain ⟨r, hr, hlog⟩ := hsettles.log
        have hsuffix' := suffix_tell env c' .unsuback
        rw [← hsame] at hsuffix'
        have hlength : (c.remove it).log.length = c'.log.length := by
          rw [hlog]
          rfl
        have heq := (List.suffix_of_suffix_length_le hsuffix hsuffix' hlength.le).eq_of_length hlength
        rw [hlog] at heq
        have hposition : it = before.length := by
          have hevent := congrArg Record.event (List.cons.inj heq).1
          rw [hr] at hevent
          exact Event.remove.inj hevent
        rw [hsettles.items, hposition, List.getElem?_append_right le_rfl, Nat.sub_self] at hitem
        obtain rfl := Option.some.inj hitem
        exact (of_decide_eq_true hsettles.acknowledged).1
    · intro htype
      exact .inr ⟨_, _, _, _, _, remove_settles hitem (isFor_of_isType (htype it rfl item hitem)
        (of_decide_eq_true hid)), rfl⟩

/-- **An acknowledgement touches only the packet it acknowledges**, but for an UNSUBACK when the first
packet with its packet id is not an UNSUBSCRIBE. -/
theorem touchesOnly_iff (env : Env cfg) (c : MqttClient cfg) (ack : Ack) :
    c.TouchesOnly env ack ↔ (ack = .unsuback → c.Unsubscribing) := by
  cases ack with
  | puback => exact iff_of_true (finish_touchesOnly c rfl fun _ => rfl) nofun
  | pubrec => exact iff_of_true (proceed_touchesOnly c rfl rfl fun _ => rfl) nofun
  | pubrel => exact iff_of_true (proceed_touchesOnly c rfl rfl fun _ => rfl) nofun
  | pubcomp => exact iff_of_true (finish_touchesOnly c rfl fun _ => rfl) nofun
  | suback => exact iff_of_true (suback_touchesOnly c) nofun
  | unsuback => exact (unsuback_touchesOnly_iff c).trans ⟨fun h _ => h, fun h => h rfl⟩

/-- A server that sends a PUBLISH of quality 2 with packet id 1 right behind the CONNACK. -/
def twoWaysScript : Script where
  read := [(9, [0x20, 2, 1, 0, 0x34, 5, 0, 1, 0x61, 0, 1])]

/-- The client has a PUBREC with packet id 1 in its queue and an UNSUBSCRIBE that got the same one. -/
def twoWays : MqttClient .linux :=
  let c := twoWaysScript.run
    [.call .connect, .loop, .loop, .call (.unsubscribe ⟨[0x62], by decide⟩ []), .loop]
  { c with parser := (c.parser.parseInput [0xB0, 2, 0, 1]).2.2 }

/-- The UNSUBACK takes the PUBREC out. -/
theorem not_touchesOnly_twoWays : ¬ ∀ (env : Env .linux) (c : MqttClient .linux) (ack : Ack),
    c.TouchesOnly env ack := by
  intro h
  have htouches := h (twoWaysScript.env .linux) twoWays .unsuback
  rw [unsuback_touchesOnly_iff, Unsubscribing] at htouches
  have hfind : twoWays.outbox.find (·.packet.packetId = twoWays.incoming.packetId) = some 0 := by decide +kernel
  have hother : (twoWays.outbox.items[0]?).any (·.isType PacketType.UNSUBSCRIBE) = false := by decide +kernel
  obtain ⟨item, hitem, -⟩ := find_spec hfind
  rw [hitem, Option.any_some, htouches 0 hfind item hitem] at hother
  exact absurd hother (by decide)

/-! ### Memory for the next packet -/

/-- An acknowledgement that there is memory for is added. -/
theorem addPacket_of_suffices (c : MqttClient cfg) (type : MQTTPacketType) (packetId : UInt16)
    (halloc : (env.alloc c.tick).Suffices cfg) :
    ∃ packet, Packet.ack cfg (env.alloc c.tick) type packetId = (.SUCCESS, packet) ∧
      (c.addPacket env fun alloc => Packet.ack cfg alloc type packetId).2 = (c.push packet).asked := by
  obtain ⟨hnode, hmalloc, hfree⟩ := halloc
  have hgranted : ∃ b, Packet.allocate cfg (env.alloc c.tick) 2 true = some b := by
    rw [Packet.allocate, if_neg (by simpa using hfree), if_pos hmalloc]
    exact ⟨_, rfl⟩
  have hbuild : (Packet.ack cfg (env.alloc c.tick) type packetId).1 = .SUCCESS := by
    obtain ⟨b, hb⟩ := hgranted
    rw [Packet.ack, hb]
    rfl
  rcases addPacket_cases env c fun alloc => Packet.ack cfg alloc type packetId with
    ⟨packet, hpacket, hadd⟩ | ⟨hnot | hnot, -⟩
  · exact ⟨packet, hpacket, by rw [hadd]⟩
  · rw [hnode] at hnot
    cases hnot
  · exact absurd hbuild hnot

/-- Without memory nothing is added. -/
theorem addPacket_of_not_suffices (c : MqttClient cfg) (type : MQTTPacketType) (packetId : UInt16)
    (halloc : ¬ (env.alloc c.tick).Suffices cfg) :
    (c.addPacket env fun alloc => Packet.ack cfg alloc type packetId).2 = c.asked := by
  rcases addPacket_cases env c fun alloc => Packet.ack cfg alloc type packetId with
    ⟨packet, hpacket, hadd⟩ | ⟨-, hadd⟩
  · refine absurd ?_ halloc
    rw [Packet.ack, Packet.allocate] at hpacket
    by_cases hfree : (env.alloc c.tick).freeMemory < cfg.minFreeMemory
    · rw [if_pos ⟨rfl, hfree⟩] at hpacket
      cases hpacket
    rw [if_neg (by simpa using hfree)] at hpacket
    by_cases hmalloc : (env.alloc c.tick).malloc
    · refine ⟨?_, hmalloc, Nat.not_lt.mp hfree⟩
      by_contra hnode
      rw [addPacket] at hadd
      dsimp only at hadd
      rw [if_neg hnode] at hadd
      cases (Prod.mk.inj hadd).1
    · rw [if_neg hmalloc] at hpacket
      cases hpacket
  · rw [hadd]

/-- A packet that is taken out is missed. -/
theorem outbox_remove_ne {c : MqttClient cfg} {it : ℕ} {item : OutgoingPacket}
    (hitem : c.outbox.items[it]? = some item) : (c.remove it).outbox ≠ c.outbox := by
  intro h
  have hlength := congrArg (fun outbox => outbox.items.length) h
  have hlt := (List.getElem?_eq_some_iff.mp hitem).1
  change (c.outbox.remove it).items.length = c.outbox.items.length at hlength
  rw [CursorList.items_remove, List.length_eraseIdx_of_lt hlt] at hlength
  omega

/-- When there is no memory, the packet that is acknowledged goes and none comes. -/
theorem proceed_outOfMemory_iff (c : MqttClient cfg) (type next : MQTTPacketType)
    (halloc : ¬ (env.alloc c.tick).Suffices cfg) :
    (c.proceed env type next).outbox = c.outbox ↔ c.findFirst type c.incoming.packetId = none := by
  rw [proceed]
  cases hfind : c.findFirst type c.incoming.packetId with
  | none => exact iff_of_true rfl rfl
  | some it =>
    obtain ⟨item, -, hitem, -, -⟩ := findFirst_spec hfind
    dsimp only
    rw [addPacket_of_not_suffices c next _ halloc]
    have hne : (c.asked.remove it).outbox ≠ c.outbox := outbox_remove_ne (c := c.asked) hitem
    exact iff_of_false hne (Option.some_ne_none it)

/-- **Out of memory**, a PUBREC or PUBREL leaves the queue as it was only when it acknowledges nothing. -/
theorem outOfMemory_iff (env : Env cfg) (c : MqttClient cfg) (halloc : ¬ (env.alloc c.tick).Suffices cfg) :
    ((c.onPubrec env).outbox = c.outbox ↔ c.findFirst PacketType.PUBLISH c.incoming.packetId = none) ∧
      ((c.onPubrel env).outbox = c.outbox ↔ c.findFirst PacketType.PUBREC c.incoming.packetId = none) :=
  ⟨proceed_outOfMemory_iff c _ _ halloc, proceed_outOfMemory_iff c _ _ halloc⟩

/-- A server that accepts the client. -/
def acceptScript : Script where
  read := [(9, [0x20, 2, 1, 0])]

/-- The environment in which a client gets a PUBREC when there is no memory any more. -/
def poorEnv : Env .linux := acceptScript.poorEnv .linux 14

/-- The client in it, which sent a PUBLISH of quality 2. -/
def needy : MqttClient .linux :=
  let c := (MqttClient.new .linux ⟨[0x6e], by decide⟩).run poorEnv
    [.call .connect, .loop, .loop, .call (.publish ⟨[0x62], by decide⟩ 2 false [7]), .loop]
  { c with parser := (c.parser.parseInput [0x50, 2, 0, 1]).2.2 }

theorem outOfMemory_iff_needy :
    ((needy.onPubrec poorEnv).outbox = needy.outbox ↔
      needy.findFirst PacketType.PUBLISH needy.incoming.packetId = none) ∧
    ((needy.onPubrel poorEnv).outbox = needy.outbox ↔
      needy.findFirst PacketType.PUBREC needy.incoming.packetId = none) := by
  apply outOfMemory_iff
  decide +kernel

/-- The PUBLISH is gone and there is no PUBREL. -/
theorem not_kept_needy : ¬ ∀ (env : Env .linux) (c : MqttClient .linux), ¬ (env.alloc c.tick).Suffices .linux →
    (c.onPubrec env).outbox = c.outbox ∧ (c.onPubrel env).outbox = c.outbox := by
  intro h
  have hkept := (h poorEnv needy (by decide +kernel)).1
  rw [onPubrec, proceed_outOfMemory_iff needy _ _ (by decide +kernel)] at hkept
  have hfound : needy.findFirst PacketType.PUBLISH needy.incoming.packetId = some 0 := by decide +kernel
  rw [hfound] at hkept
  cases hkept

/-! ### The order of acknowledgements -/

variable (env) in
/-- The acknowledgement that came in is honoured for the PUBLISH at a position: after a PUBACK the packet is
gone and the user is told, after a PUBREC a PUBREL is at the back instead. -/
def Honours (c : MqttClient cfg) (qos : Byte) (it : ℕ) : Prop :=
  if qos = 1 then
    c.onPuback env = (c.remove it).callback env .onPublish (.onPublish c.incoming.packetId)
  else
    ∃ alloc packet, Packet.ack cfg alloc PacketType.PUBREL c.incoming.packetId = (.SUCCESS, packet) ∧
      c.onPubrec env = (c.push packet).asked.remove it

/-- The position of the first PUBLISH of this quality of service. -/
def oldest (c : MqttClient cfg) (qos : Byte) : Option ℕ := c.outbox.find (·.isPublish qos)

theorem isType_of_isPublish {item : OutgoingPacket} {qos : Byte} (h : item.isPublish qos) :
    item.isType PacketType.PUBLISH := (of_decide_eq_true h).1

/-- The first PUBLISH that has the packet id is found. -/
theorem findFirst_eq {c : MqttClient cfg} {type : MQTTPacketType} {packetId : UInt16} {it : ℕ}
    {item : OutgoingPacket} (hfind : c.outbox.find (·.isType type) = some it)
    (hitem : c.outbox.items[it]? = some item) (hid : item.packet.packetId = packetId) :
    c.findFirst type packetId = some it := by
  rw [findFirst, hfind]
  simp only [Option.bind_eq_bind, Option.bind_some, hitem, if_pos hid]

/-- The log tells which packet was taken out. -/
theorem position_unique {c d : MqttClient cfg} {it it' : ℕ} (h : (c.remove it).log <:+ d.log)
    (h' : (c.remove it').log <:+ d.log) : it = it' := by
  have hlength : (c.remove it).log.length = (c.remove it').log.length := rfl
  have heq := (List.suffix_of_suffix_length_le h h' hlength.le).eq_of_length hlength
  have hevent := congrArg Record.event (List.cons.inj heq).1
  exact Event.remove.inj hevent

/-- A PUBACK is honoured when the PUBLISH is the first one. -/
theorem puback_honours_iff {c : MqttClient cfg} {it : ℕ} {item : OutgoingPacket}
    (hitem : c.outbox.items[it]? = some item) (hid : item.packet.packetId = c.incoming.packetId) :
    c.Honours env 1 it ↔ c.outbox.find (·.isType PacketType.PUBLISH) = some it := by
  have hsuffix := suffix_tell env (c.remove it) .puback
  rw [Honours, if_pos rfl]
  constructor
  · intro h
    change _ = (c.remove it).tell env .puback at h
    rw [← h, onPuback, finish] at hsuffix
    cases hfind : c.findFirst PacketType.PUBLISH c.incoming.packetId with
    | none =>
      rw [hfind] at hsuffix
      have hlength := hsuffix.length_le
      simp only [MqttClient.remove, note, List.length_cons] at hlength
      omega
    | some it' =>
      rw [hfind] at hsuffix
      have hsuffix' := suffix_tell env (c.remove it') .puback
      obtain rfl := position_unique hsuffix hsuffix'
      obtain ⟨-, hfirst, -⟩ := findFirst_spec hfind
      exact hfirst
  · intro hfirst
    rw [onPuback, finish, findFirst_eq hfirst hitem hid]

/-- A PUBREC is honoured when the PUBLISH is the first one and there is memory for the PUBREL. -/
theorem pubrec_honours_iff {c : MqttClient cfg} {it : ℕ} {item : OutgoingPacket}
    (hitem : c.outbox.items[it]? = some item) (hid : item.packet.packetId = c.incoming.packetId) :
    c.Honours env 2 it ↔ c.outbox.find (·.isType PacketType.PUBLISH) = some it ∧
      (env.alloc c.tick).Suffices cfg := by
  rw [Honours, if_neg (by decide), onPubrec, proceed]
  constructor
  · rintro ⟨alloc, packet, -, h⟩
    cases hfind : c.findFirst PacketType.PUBLISH c.incoming.packetId with
    | none =>
      rw [hfind] at h
      have hlength := congrArg (fun c => c.log.length) h
      simp only [MqttClient.remove, note, asked, push, List.length_cons] at hlength
      omega
    | some it' =>
      rw [hfind] at h
      dsimp only at h
      have hevent := congrArg Record.event (List.cons.inj (congrArg MqttClient.log h)).1
      obtain rfl : it' = it := Event.remove.inj hevent
      obtain ⟨-, hfirst, -⟩ := findFirst_spec hfind
      refine ⟨hfirst, ?_⟩
      by_contra halloc
      rw [addPacket_of_not_suffices c _ _ halloc] at h
      have hlength := congrArg (fun c => c.outbox.items.length) h
      have hlt := (List.getElem?_eq_some_iff.mp hitem).1
      change (c.outbox.remove it').items.length = ((c.outbox.emplace _).remove it').items.length at hlength
      rw [CursorList.items_remove, CursorList.items_remove, CursorList.items_emplace,
        List.length_eraseIdx_of_lt hlt, List.length_eraseIdx_of_lt (by simp; omega), List.length_append,
        List.length_singleton] at hlength
      omega
  · rintro ⟨hfirst, halloc⟩
    obtain ⟨packet, hpacket, hadd⟩ := addPacket_of_suffices c PacketType.PUBREL c.incoming.packetId halloc
    refine ⟨_, packet, hpacket, ?_⟩
    rw [findFirst_eq hfirst hitem hid]
    dsimp only
    rw [hadd]

/-- **An acknowledgement in order**, a PUBACK for the first PUBLISH of quality 1 or a PUBREC for the first one of
quality 2, is honoured exactly when no other PUBLISH is in front of it and, for the PUBREL, there is memory. -/
theorem honours_iff (env : Env cfg) {c : MqttClient cfg} {qos : Byte} {it : ℕ} {item : OutgoingPacket}
    (hqos : qos = 1 ∨ qos = 2) (holdest : c.oldest qos = some it) (hitem : c.outbox.items[it]? = some item)
    (hid : item.packet.packetId = c.incoming.packetId) :
    c.Honours env qos it ↔ (∀ i < it, ∀ other ∈ c.outbox.items[i]?, ¬ other.isType PacketType.PUBLISH) ∧
      (qos = 2 → (env.alloc c.tick).Suffices cfg) := by
  have hfirst : c.outbox.find (·.isType PacketType.PUBLISH) = some it ↔
      ∀ i < it, ∀ other ∈ c.outbox.items[i]?, ¬ other.isType PacketType.PUBLISH := by
    obtain ⟨hlt, rfl⟩ := List.getElem?_eq_some_iff.mp hitem
    obtain ⟨_, hpublish, _⟩ := CursorList.find_eq_some_iff.mp holdest
    rw [CursorList.find_eq_some_iff]
    constructor
    · rintro ⟨_, _, hnone⟩ i hi other hother
      obtain ⟨_, rfl⟩ := List.getElem?_eq_some_iff.mp hother
      exact hnone i hi
    · intro hnone
      refine ⟨hlt, isType_of_isPublish hpublish, fun i hi => ?_⟩
      exact hnone i hi _ (List.getElem?_eq_getElem (by omega))
  rcases hqos with rfl | rfl
  · rw [puback_honours_iff hitem hid, hfirst]
    exact (and_iff_left nofun).symm
  · rw [pubrec_honours_iff hitem hid, hfirst]
    exact and_congr_right fun _ => ⟨fun h _ => h, fun h => h rfl⟩

/-- The PUBACK for a PUBLISH of quality 1 that was sent behind one of quality 2. -/
def mixed : MqttClient .linux :=
  let c := acceptScript.run [.call .connect, .loop, .loop, .call (.publish ⟨[0x61], by decide⟩ 2 false [7]),
    .call (.publish ⟨[0x62], by decide⟩ 1 false [8]), .loop]
  { c with parser := (c.parser.parseInput [0x40, 2, 0, 2]).2.2 }

theorem honours_iff_mixed : mixed.Honours (acceptScript.env .linux) 1 1 ↔
    (∀ i < 1, ∀ other ∈ mixed.outbox.items[i]?, ¬ other.isType PacketType.PUBLISH) ∧
      ((1 : Byte) = 2 → ((acceptScript.env .linux).alloc mixed.tick).Suffices .linux) := by
  have holdest : mixed.oldest 1 = some 1 := by decide +kernel
  have hid : (mixed.outbox.items[1]?).map (·.packet.packetId) = some mixed.incoming.packetId := by decide +kernel
  obtain ⟨item, hitem, -⟩ := find_spec holdest
  rw [hitem] at hid
  exact honours_iff _ (.inl rfl) holdest hitem (Option.some.inj hid)

/-- The PUBACK is dropped. -/
theorem not_honours_mixed : ¬ ∀ (env : Env .linux) (c : MqttClient .linux) (qos : Byte) (it : ℕ)
    (item : OutgoingPacket), (env.alloc c.tick).Suffices .linux → qos = 1 ∨ qos = 2 → c.oldest qos = some it →
    c.outbox.items[it]? = some item → item.packet.packetId = c.incoming.packetId → c.Honours env qos it := by
  intro h
  have holdest : mixed.oldest 1 = some 1 := by decide +kernel
  have hid : (mixed.outbox.items[1]?).map (·.packet.packetId) = some mixed.incoming.packetId := by decide +kernel
  obtain ⟨item, hitem, -⟩ := find_spec holdest
  rw [hitem] at hid
  have hhonours := h (acceptScript.env .linux) mixed 1 1 item (by decide +kernel) (.inl rfl) holdest hitem
    (Option.some.inj hid)
  rw [puback_honours_iff hitem (Option.some.inj hid)] at hhonours
  have hfirst : mixed.outbox.find (·.isType PacketType.PUBLISH) = some 0 := by decide +kernel
  rw [hfirst] at hhonours
  cases hhonours

/-! ### Every PUBREL -/

variable (env) in
/-- Handling the packet that came in adds a PUBCOMP with its packet id at the back of the queue. -/
def AnswersPubrel (c : MqttClient cfg) : Prop :=
  ∃ rest packet, Packet.ack cfg (env.alloc c.tick) PacketType.PUBCOMP c.incoming.packetId = (.SUCCESS, packet) ∧
    (c.handle env).2.outbox.items = rest ++ [⟨0, packet, c.tick⟩] ∧
    (c.handle env).2.outbox.items.countP (·.isFor PacketType.PUBCOMP c.incoming.packetId) =
      c.outbox.items.countP (·.isFor PacketType.PUBCOMP c.incoming.packetId) + 1

theorem handle_pubrel (env : Env cfg) {c : MqttClient cfg} (hstate : c.state ≠ .connectingMqtt)
    (htype : c.incomingType = PacketType.PUBREL) : (c.handle env).2 = c.received.onPubrel env := by
  rw [handle]
  dsimp only
  rw [← received, ← incomingType, htype, if_neg fun h => hstate h.1]
  rfl

/-- A packet of another type does not count. -/
theorem countP_eraseIdx {items : List OutgoingPacket} {it : ℕ} {item : OutgoingPacket} {type : MQTTPacketType}
    (hitem : items[it]? = some item) (hother : item.isType type = false) (packetId : UInt16) :
    (items.eraseIdx it).countP (·.isFor type packetId) = items.countP (·.isFor type packetId) := by
  obtain ⟨hlt, rfl⟩ := List.getElem?_eq_some_iff.mp hitem
  have hsplit : items = items.take it ++ items[it] :: items.drop (it + 1) := by
    rw [← List.drop_eq_getElem_cons hlt, List.take_append_drop]
  have hnot : ¬ items[it].isFor type packetId := by
    intro hfor
    rw [(of_decide_eq_true hfor).1] at hother
    cases hother
  rw [List.eraseIdx_eq_take_drop_succ]
  conv_rhs => rw [hsplit]
  rw [List.countP_append, List.countP_append, List.countP_cons_of_neg hnot]

/-- A PUBREL is answered when the first PUBREC in the queue has its packet id. -/
theorem answersPubrel_iff {c : MqttClient cfg} (hstate : c.state ≠ .connectingMqtt)
    (htype : c.incomingType = PacketType.PUBREL) (halloc : (env.alloc c.tick).Suffices cfg) :
    c.AnswersPubrel env ↔ (c.findFirst PacketType.PUBREC c.incoming.packetId).isSome := by
  rw [AnswersPubrel, handle_pubrel env hstate htype, onPubrel, proceed]
  have hfirst : c.received.findFirst PacketType.PUBREC c.received.incoming.packetId =
      c.findFirst PacketType.PUBREC c.incoming.packetId := rfl
  rw [hfirst]
  cases hfind : c.findFirst PacketType.PUBREC c.incoming.packetId with
  | none =>
    refine iff_of_false ?_ Bool.false_ne_true
    rintro ⟨rest, packet, -, -, hcount⟩
    change c.outbox.items.countP _ = _ at hcount
    omega
  | some it =>
    refine iff_of_true ?_ rfl
    obtain ⟨item, -, hitem, hrec, -⟩ := findFirst_spec hfind
    obtain ⟨packet, hpacket, hadd⟩ := @addPacket_of_suffices _ env c.received PacketType.PUBCOMP
      c.incoming.packetId halloc
    obtain ⟨-, hid, -, hpubcomp⟩ := Packet.ack_built hpacket
    have hlt := (List.getElem?_eq_some_iff.mp hitem).1
    have hitems : ((c.received.push packet).asked.remove it).outbox.items =
        c.outbox.items.eraseIdx it ++ [⟨0, packet, c.tick⟩] := by
      show ((c.outbox.emplace ⟨0, packet, c.tick⟩).remove it).items = _
      rw [CursorList.items_remove, CursorList.items_emplace, List.eraseIdx_append_of_lt_length hlt]
    have hother : item.isType PacketType.PUBCOMP = false := by
      rw [OutgoingPacket.isType, decide_eq_false_iff_not, of_decide_eq_true hrec]
      decide
    have hhandled : ((c.received.addPacket env fun alloc =>
        Packet.ack cfg alloc PacketType.PUBCOMP c.received.incoming.packetId).2.remove it).outbox.items =
        c.outbox.items.eraseIdx it ++ [⟨0, packet, c.tick⟩] := by
      rw [← hitems]
      exact congrArg (fun d : MqttClient cfg => (d.remove it).outbox.items) hadd
    refine ⟨c.outbox.items.eraseIdx it, packet, hpacket, hhandled, ?_⟩
    dsimp only
    rw [hhandled, List.countP_append, countP_eraseIdx hitem hother, List.countP_singleton, if_pos]
    exact isFor_of_isType (decide_eq_true (hpubcomp.trans (by decide))) hid

theorem isSome_findFirst (c : MqttClient cfg) (type : MQTTPacketType) (packetId : UInt16) :
    (c.findFirst type packetId).isSome =
      (c.outbox.items.find? (·.isType type)).any (·.packet.packetId = packetId) := by
  rw [findFirst, CursorList.find, List.find?_eq_bind_findIdx?_getElem?]
  cases c.outbox.items.findIdx? (·.isType type) with
  | none => rfl
  | some it =>
    simp only [Option.bind_eq_bind, Option.bind_some]
    cases c.outbox.items[it]? with
    | none => rfl
    | some item =>
      simp only [Option.bind_some, Option.any_some]
      split_ifs with hid
      · exact (decide_eq_true hid).symm
      · exact (decide_eq_false hid).symm

/-- **Every PUBREL** that comes in when the client is connected, in any run: if there is memory, it is answered
exactly when the first PUBREC in the queue has its packet id. -/
theorem run_answersPubrel {env : Env cfg} {generatedClientId : CString} {actions : List Action} {r : Record}
    {earlier : Log} {report : Parser.Report}
    (h : r :: earlier <:+ ((new cfg generatedClientId).run env actions).log) (hr : r.event = .packet report)
    (htype : report.packetType &&& 0xF0 = PacketType.PUBREL) (hstate : r.state = .connected) :
    ∃ c : MqttClient cfg, c.received.log = r :: earlier ∧
      (c.handle env).2.log <:+ ((new cfg generatedClientId).run env actions).log ∧
      ((env.alloc c.tick).Suffices cfg → (c.AnswersPubrel env ↔
        (r.outbox.items.find? (·.isType PacketType.PUBREC)).any (·.packet.packetId = report.packetId))) := by
  obtain ⟨c, hc, hlog⟩ := run_handledAt h (by rw [hr]; rfl)
  refine ⟨c, hc, hlog, fun halloc => ?_⟩
  obtain rfl := (List.cons.inj hc).1
  obtain rfl := Event.packet.inj hr
  have hopen : c.state ≠ .connectingMqtt := by
    intro hopening
    exact absurd (hopening.symm.trans hstate) (by decide)
  rw [answersPubrel_iff hopen htype halloc, isSome_findFirst]
  rfl

/-- A server that sends a PUBLISH of quality 2 and its PUBREL; then the connection is lost, and with it the
PUBCOMP. -/
def lostPubcompScript : Script where
  read := [(9, [0x20, 2, 1, 0, 0x34, 5, 0, 1, 0x61, 0, 1]), (18, [0x62, 2, 0, 1]), (33, [0x20, 2, 1, 0])]
  pending := [22]

/-- In the next connection the server sends the PUBREL again. -/
def lostPubcompActions : List Action :=
  [.call (.set (.cleanSession false)), .call .connect, .loop, .loop, .loop, .loop, .loop, .loop, .call .connect,
    .loop, .loop]

/-- A PUBREL with this packet id came in. -/
def isPubrel (packetId : UInt16) : Record → Bool
  | ⟨.packet report, _, _, _, _⟩ =>
    decide (report.packetType &&& 0xF0 = PacketType.PUBREL ∧ report.packetId = packetId)
  | _ => false

theorem exists_of_isPubrel {r : Record} {packetId : UInt16} (h : isPubrel packetId r) :
    ∃ report, r.event = .packet report ∧ report.packetType &&& 0xF0 = PacketType.PUBREL ∧
      report.packetId = packetId := by
  obtain ⟨event, _, _, _, _⟩ := r
  cases event <;> first | exact ⟨_, rfl, of_decide_eq_true h⟩ | cases h

/-- The first PUBREL is answered. -/
theorem run_answersPubrel_first : ∃ r earlier, ∃ c : MqttClient .linux, c.received.log = r :: earlier ∧
    (c.handle (lostPubcompScript.env .linux)).2.log <:+ (lostPubcompScript.run lostPubcompActions).log ∧
      (((lostPubcompScript.env .linux).alloc c.tick).Suffices .linux →
        (c.AnswersPubrel (lostPubcompScript.env .linux) ↔
          (r.outbox.items.find? (·.isType PacketType.PUBREC)).any (·.packet.packetId = 1))) := by
  have hfound : ((lostPubcompScript.run lostPubcompActions).log.drop 20).head?.any
      (fun r => isPubrel 1 r && decide (r.state = .connected)) = true := by
    decide +kernel
  have hsuffix := List.drop_suffix 20 (lostPubcompScript.run lostPubcompActions).log
  cases hlog : (lostPubcompScript.run lostPubcompActions).log.drop 20 with
  | nil =>
    rw [hlog] at hfound
    cases hfound
  | cons r earlier =>
    rw [hlog] at hfound hsuffix
    obtain ⟨hpubrel, hstate⟩ := (Bool.and_eq_true _ _).mp hfound
    obtain ⟨report, hevent, htype, hid⟩ := exists_of_isPubrel hpubrel
    obtain ⟨c, hc, hhandled, hanswers⟩ := run_answersPubrel hsuffix hevent htype (of_decide_eq_true hstate)
    rw [hid] at hanswers
    exact ⟨r, earlier, c, hc, hhandled, hanswers⟩

/-- The second one is not. -/
theorem not_answersPubrel_repeated : ¬ ∀ (env : Env .linux) (generatedClientId : CString) (actions : List Action)
    (bytes : List Byte),
    let c := (MqttClient.new .linux generatedClientId).run env actions
    let c : MqttClient .linux := { c with parser := (c.parser.parseInput bytes).2.2 }
    c.state = .connected → c.incomingType = PacketType.PUBREL → (env.alloc c.tick).Suffices .linux →
      c.AnswersPubrel env := by
  intro h
  have hanswers := h (lostPubcompScript.env .linux) ⟨[0x63], by decide⟩ lostPubcompActions [0x62, 2, 0, 1]
    (by decide +kernel) (by decide +kernel) (by decide +kernel)
  rw [answersPubrel_iff (by decide +kernel) (by decide +kernel) (by decide +kernel)] at hanswers
  exact absurd hanswers (by decide +kernel)

end MqttClient

end EspMqttClient
