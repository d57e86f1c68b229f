/-
  `espMqttClientAsync` with its transport (`espMqttClientAsync.cpp`, `Transport/ClientAsync.cpp`).

  The TCP library hands the segments to `onDataCb`, and what `_checkIncoming` reads is what the transport makes
  of them.  All other questions go to the `Env`.  `loop` reads at most once (`loop_reads`).

  `history` is ghost state: the connections, the segments and what was read, newest first.
-/
import EspMqttClient.Data.Trace
import EspMqttClient.MqttClient.Async
import EspMqttClient.MqttClient.History
import EspMqttClient.Transport.Basic

namespace EspMqttClient

/-! ### What happens to the bytes -/

inductive Happening
  /-- The library made a connection. -/
  | connection
  /-- The library hands over a segment to a client in this state. -/
  | segment (data : List Byte) (state : State)
  /-- `_checkIncoming` obtains these bytes, from a segment that is `valid` or not. -/
  | read (bytes : List Byte) (valid : Bool)
deriving DecidableEq

/-- Was anything read? -/
def Event.isRead : Event → Bool
  | .read _ => true
  | _ => false

/-- How many times `_checkIncoming` called `read`. -/
def Log.reads (log : Log) : ℕ := log.countP (·.event.isRead)

/-! ### The client -/

structure EspMqttClientAsync (cfg : Config) where
  client : MqttClient cfg
  clientAsync : ClientAsync
  /-- Ghost: what happened to the bytes, newest first. -/
  history : List Happening

namespace EspMqttClientAsync

variable {cfg : Config} (env : AsyncEnv cfg)

def new (cfg : Config) (generatedClientId : CString) : EspMqttClientAsync cfg :=
  ⟨.new cfg generatedClientId, .new, []⟩

/-- Reading is up to the transport. -/
def transport (c : EspMqttClientAsync cfg) : Env cfg :=
  { env.toEnv with
    read := fun _ => (c.clientAsync.read cfg.rxBufferSize).1
    length_read_le := fun _ => c.clientAsync.length_read_le _ }

def loop (c : EspMqttClientAsync cfg) : EspMqttClientAsync cfg :=
  let client := c.client.loop (c.transport env)
  if client.log.reads = c.client.log.reads then { c with client }
  else
    let (bytes, clientAsync) := c.clientAsync.read cfg.rxBufferSize
    { client, clientAsync, history := .read bytes c.clientAsync.valid :: c.history }

def connect (c : EspMqttClientAsync cfg) : Bool × EspMqttClientAsync cfg :=
  let (ret, client) := c.client.connect env.toEnv
  (ret, { c with client }.loop env)

def onConnectCb (c : EspMqttClientAsync cfg) : EspMqttClientAsync cfg :=
  { c with client := c.client.setState .connectingTcp2, history := .connection :: c.history }.loop env

/-- `freed` is what is found in the memory of the segment afterwards. -/
def onDataCb (freed : ℕ → ℕ → Byte) (c : EspMqttClientAsync cfg) (data : List Byte) : EspMqttClientAsync cfg :=
  let c := { c with
    clientAsync := c.clientAsync.receive data
    history := .segment data c.client.state :: c.history }.loop env
  { c with clientAsync := c.clientAsync.release (freed c.client.tick) }

def onDisconnectCb (c : EspMqttClientAsync cfg) : EspMqttClientAsync cfg :=
  { c with client := c.client.setState .disconnectingTcp2 }.loop env

def onPollCb (c : EspMqttClientAsync cfg) : EspMqttClientAsync cfg := c.loop env

/-- A call of the user's, or one of the library's. -/
inductive Action
  | call (apiCall : ApiCall)
  | onConnectCb
  | onDataCb (data : List Byte)
  | onDisconnectCb
  | onPollCb

def act (freed : ℕ → ℕ → Byte) (c : EspMqttClientAsync cfg) : Action → EspMqttClientAsync cfg
  | .call .connect => (c.connect env).2
  | .call apiCall => { c with client := c.client.call env.toEnv apiCall }
  | .onConnectCb => c.onConnectCb env
  | .onDataCb data => c.onDataCb env freed data
  | .onDisconnectCb => c.onDisconnectCb env
  | .onPollCb => c.onPollCb env

/-- A run: one action after the other. -/
def run (freed : ℕ → ℕ → Byte) (c : EspMqttClientAsync cfg) (actions : List Action) : EspMqttClientAsync cfg :=
  actions.foldl (fun c action => c.act env freed action) c

end EspMqttClientAsync

end EspMqttClient
