/-
  `espMqttClientAsync` — the client that a TCP library calls (`espMqttClientAsync.h`,
  `espMqttClientAsync.cpp`, `Transport/ClientAsync.cpp`).

  The library calls one of four functions when something happens to the connection.  What else it does
  is left to the `Env`: the bytes of `onDataCb` are what the next `read` gives.  `loop` is called by these
  functions and by `connect`, also if that is called from within a callback, where `loop` would run inside
  itself.  An `AsyncEnv` has no such callbacks: the user calls `connect` between the actions.
-/
import EspMqttClient.MqttClient.Loop

namespace EspMqttClient

/-- An environment in which the user's callbacks do not call `connect`. -/
structure AsyncEnv (cfg : Config) extends Env cfg where
  not_connect : ∀ tick : ℕ, ∀ apiCall ∈ callback tick, apiCall ≠ .connect

namespace MqttClientAsync

open MqttClient

variable {cfg : Config} (env : AsyncEnv cfg)

def connect (c : MqttClient cfg) : Bool × MqttClient cfg :=
  let (ret, c) := c.connect env.toEnv
  (ret, c.loop env.toEnv)

def onConnectCb (c : MqttClient cfg) : MqttClient cfg := (c.setState .connectingTcp2).loop env.toEnv

def onDataCb (c : MqttClient cfg) : MqttClient cfg := c.loop env.toEnv

def onDisconnectCb (c : MqttClient cfg) : MqttClient cfg := (c.setState .disconnectingTcp2).loop env.toEnv

def onPollCb (c : MqttClient cfg) : MqttClient cfg := c.loop env.toEnv

/-- A call of the user's, or one of the library's. -/
inductive Action
  | call (apiCall : ApiCall)
  | onConnectCb
  | onDataCb
  | onDisconnectCb
  | onPollCb

def act (c : MqttClient cfg) : Action → MqttClient cfg
  | .call .connect => (connect env c).2
  | .call apiCall => c.call env.toEnv apiCall
  | .onConnectCb => onConnectCb env c
  | .onDataCb => onDataCb env c
  | .onDisconnectCb => onDisconnectCb env c
  | .onPollCb => onPollCb env c

/-- A run: one action after the other. -/
def run (c : MqttClient cfg) (actions : List Action) : MqttClient cfg :=
  actions.foldl (fun c action => act env c action) c

end MqttClientAsync

end EspMqttClient
