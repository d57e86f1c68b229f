/-
  `MqttClient` — `loop` and runs of it (`MqttClient.cpp`).
-/
import EspMqttClient.MqttClient.Handlers

namespace EspMqttClient

namespace MqttClient

variable {cfg : Config} (env : Env cfg)

/-! ### Receiving and timers -/

/-- Something is wrong with the connection, which comes to its end. -/
def lost (c : MqttClient cfg) (fault : Fault) : MqttClient cfg :=
  { (c.note (.fault fault)).setState .disconnectingTcp1 with disconnectReason := .TCP_DISCONNECTED }

/-- The loop of `_checkIncoming` over the unread input.  Every round reads a byte, so there are at most
as many as there are bytes. -/
def checkIncomingLoop : ℕ → MqttClient cfg → List Byte → MqttClient cfg
  | 0, c, _ => c
  | fuel + 1, c, input =>
    if input = [] then c
    else
      let (result, bytesParsed, parser) := c.parser.parseInput input
      let c := { c with parser }.note (.parsed (input.take bytesParsed))
      match result with
      | .packet =>
        let (more, c) := c.handle env
        if more then checkIncomingLoop fuel c (input.drop bytesParsed) else c
      | .protocolError => c.lost .protocolError
      | .awaitData => checkIncomingLoop fuel c (input.drop bytesParsed)

/-- `_checkIncoming`. -/
def checkIncoming (c : MqttClient cfg) : MqttClient cfg :=
  let input := env.read c.tick
  let c := (c.note (.read input)).asked
  if input = [] then c
  else
    let c := { c with lastServerActivity := c.millis env }.asked
    c.checkIncomingLoop env input.length input

/-- `_checkPing`. -/
def checkPing (c : MqttClient cfg) : MqttClient cfg :=
  let keepAlive := c.settings.keepAlive
  if keepAlive = 0 then c
  else
    let currentMillis := c.millis env
    let c := c.asked
    -- disconnect when server was inactive for twice the keepalive time
    if currentMillis - c.lastServerActivity > 2 * keepAlive then c.lost .keepAlive
    -- send ping when client was inactive during the keepalive time
    -- or when server hasn't responded within keepalive time
    else if c.pingSent = false ∧ (currentMillis - c.lastClientActivity > keepAlive ∨
        currentMillis - c.lastServerActivity > keepAlive) then
      match c.addPacket env fun alloc => Packet.control cfg alloc PacketType.PINGREQ with
      | (true, c) => { c with pingSent := true }.note .ping
      | (false, c) => c
    else c

/-- `millis() - timeSent > timeout`, in the integer type that `millis()` leads to. -/
def timedOut (cfg : Config) (millis : ℕ) (timeSent timeout : UInt32) : Bool :=
  if cfg.wideMillis then (millis : ℤ) - timeSent.toNat > timeout.toNat
  else UInt32.ofNat millis - timeSent > timeout

/-- `_checkTimeout`: only when not busy sending and when the first packet has been sent. -/
def checkTimeout (c : MqttClient cfg) : MqttClient cfg :=
  match c.outbox.items with
  | [] => c
  | front :: _ =>
    if c.bytesSent = 0 ∧ c.outbox.cursor ≠ 0 then
      let millis := env.millis c.tick
      let c := c.asked
      if timedOut cfg millis front.timeSent c.settings.timeout then
        { c.note .timeout with outbox := c.outbox.resetCurrent }
      else c
    else c

/-! ### The state machine -/

/-- `loop` in `connectingTcp2`. -/
def loopConnectingTcp2 (c : MqttClient cfg) : MqttClient cfg :=
  if env.connected c.tick then
    let c := { c.asked with parser := c.parser.reset }
    let activity := c.millis env
    { c.asked with lastServerActivity := activity, lastClientActivity := activity }.setState .connectingMqtt
  else
    let c := c.asked
    if env.disconnected c.tick then c.asked.lost .transport else c.asked

/-- `loop` in `connectingTcp1`, which goes on to `connectingTcp2`. -/
def loopConnectingTcp1 (c : MqttClient cfg) : MqttClient cfg :=
  let success := env.connect c.tick
  let c := (c.note (.transportConnect success)).asked
  if success then (c.setState .connectingTcp2).loopConnectingTcp2 env else c.lost .transport

/-- `loop` in `connected`, in `disconnectingMqtt2` and, if packets may be sent before the CONNACK, in
`connectingMqtt`. -/
def loopConnected (c : MqttClient cfg) : MqttClient cfg :=
  if env.connected c.tick then
    let c := c.asked
    let c := c.checkOutbox env
    let c := c.checkIncoming env
    let c := c.checkPing env
    c.checkTimeout env
  else c.asked.lost .transport

/-- `loop` in `connectingMqtt`. -/
def loopConnectingMqtt (c : MqttClient cfg) : MqttClient cfg :=
  if cfg.waitForConnack then
    if env.connected c.tick then
      let c := c.asked
      let (_, c) := c.sendPacket env
      let c := c.checkIncoming env
      c.checkPing env
    else c.asked.lost .transport
  else c.loopConnected env

/-- `loop` in `disconnectingMqtt1`. -/
def loopDisconnectingMqtt1 (c : MqttClient cfg) : MqttClient cfg :=
  let c :=
    if c.outbox.items = [] then
      match c.addPacket env fun alloc => Packet.control cfg alloc PacketType.DISCONNECT with
      | (true, c) => c.setState .disconnectingMqtt2
      | (false, c) => c.note (.onError 0 .OUT_OF_MEMORY)
    else c
  let c := c.checkOutbox env
  let c := c.checkIncoming env
  let c := c.checkPing env
  c.checkTimeout env

/-- `loop` in `disconnectingTcp2`. -/
def loopDisconnectingTcp2 (c : MqttClient cfg) : MqttClient cfg :=
  if env.disconnected c.tick then
    let c := c.asked.clearQueue 0
    let c := { c with bytesSent := 0 }.setState .disconnected
    c.callback env .onDisconnect (.onDisconnect c.disconnectReason)
  else c.asked

def loop (c : MqttClient cfg) : MqttClient cfg :=
  match c.state with
  | .disconnected => c
  | .connectingTcp1 => c.loopConnectingTcp1 env
  | .connectingTcp2 => c.loopConnectingTcp2 env
  | .connectingMqtt => c.loopConnectingMqtt env
  | .connected => c.loopConnected env
  | .disconnectingMqtt1 => c.loopDisconnectingMqtt1 env
  | .disconnectingMqtt2 => c.loopConnected env
  -- the break accomodates async clients
  | .disconnectingTcp1 => (c.note .stop).setState .disconnectingTcp2
  | .disconnectingTcp2 => c.loopDisconnectingTcp2 env

/-! ### Runs -/

/-- What a program does with a client: it calls a function of the API or `loop`. -/
inductive Action
  | call (apiCall : ApiCall)
  | loop

def act (c : MqttClient cfg) : Action → MqttClient cfg
  | .call apiCall => c.call env apiCall
  | .loop => c.loop env

/-- A run: one action after the other. -/
def run (c : MqttClient cfg) (actions : List Action) : MqttClient cfg :=
  actions.foldl (fun c action => c.act env action) c

end MqttClient

/-! ### Scripts -/

/-- What an environment does at which question.  What is not in a table is read or called never,
accepted as a whole and at time zero.  When a connection is `pending` it is neither made nor lost. -/
structure Script where
  read : List (ℕ × List Byte) := []
  write : List (ℕ × ℕ) := []
  callback : List (ℕ × List ApiCall) := []
  millis : List (ℕ × ℕ) := []
  pending : List ℕ := []

/-- An environment that follows a script and in which nothing fails. -/
def Script.env (cfg : Config) (script : Script) : Env cfg where
  connect _ := true
  connected tick := !script.pending.contains tick
  disconnected tick := !script.pending.contains tick
  write tick size := min ((script.write.lookup tick).getD size) size
  read tick := ((script.read.lookup tick).getD []).take cfg.rxBufferSize
  millis tick := (script.millis.lookup tick).getD 0
  alloc _ := ⟨cfg.minFreeMemory, true, true⟩
  callback tick := (script.callback.lookup tick).getD []
  le_write tick size := by omega
  write_le tick size := by omega
  length_read_le tick := List.length_take_le _ _

/-- A run of a new client by a script. -/
def Script.run (script : Script) (actions : List MqttClient.Action) : MqttClient .linux :=
  (MqttClient.new .linux ⟨[0x63], by decide⟩).run (script.env .linux) actions

end EspMqttClient
