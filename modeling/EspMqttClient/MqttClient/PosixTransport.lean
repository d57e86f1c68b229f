/-
  `espMqttClient` on Linux, with its transport (`espMqttClient.cpp`, `Transport/ClientPosix.cpp`).

  `loop` is the only function that tells the transport to connect or to stop, and it does so in one state each.
  Whether it is connected the transport answers from its descriptor, so the answers of the `Env` to `connect`,
  `connected` and `disconnected` are not used.
-/
import EspMqttClient.MqttClient.Loop
import EspMqttClient.Transport.Posix

namespace EspMqttClient

structure EspMqttClientPosix (cfg : Config) where
  client : MqttClient cfg
  clientPosix : ClientPosix

namespace EspMqttClientPosix

variable {cfg : Config} (env : Env cfg) (sys : System)

/-- A new client in a process with these descriptors. -/
def new (cfg : Config) (generatedClientId : CString) (others : List ℕ) : EspMqttClientPosix cfg :=
  ⟨.new cfg generatedClientId, .new others⟩

/-- What the transport answers by itself.  `success` is the result of `connect`, if that is called. -/
def transport (success : Bool) (p : ClientPosix) : Env cfg :=
  { env with
    connect := fun _ => success
    connected := fun _ => p.connected
    disconnected := fun _ => p.disconnected }

def loop (c : EspMqttClientPosix cfg) : EspMqttClientPosix cfg :=
  match c.client.state with
  | .connectingTcp1 =>
    let (success, clientPosix) := c.clientPosix.connect sys c.client.tick
    ⟨c.client.loop (transport env success clientPosix), clientPosix⟩
  | .disconnectingTcp1 => ⟨c.client.loop (transport env false c.clientPosix), c.clientPosix.stop⟩
  | _ => ⟨c.client.loop (transport env false c.clientPosix), c.clientPosix⟩

/-- `~espMqttClient`: the transport goes first, then `~MqttClient` disconnects and clears the queue. -/
def destroy (c : EspMqttClientPosix cfg) : EspMqttClientPosix cfg :=
  ⟨(c.client.disconnect true).2.clearQueue 2, c.clientPosix.destroy⟩

/-- A call of the user's, or something that the rest of the program does with its descriptors. -/
inductive Action
  | call (apiCall : ApiCall)
  | loop
  | openOther
  | closeOther (fd : ℕ)

def act (c : EspMqttClientPosix cfg) : Action → EspMqttClientPosix cfg
  | .call apiCall => { c with client := c.client.call env apiCall }
  | .loop => c.loop env sys
  | .openOther => { c with clientPosix.descriptors := c.clientPosix.descriptors.openOther }
  | .closeOther fd => { c with clientPosix.descriptors := c.clientPosix.descriptors.closeOther fd }

/-- A run: one action after the other. -/
def run (c : EspMqttClientPosix cfg) (actions : List Action) : EspMqttClientPosix cfg :=
  actions.foldl (fun c action => c.act env sys action) c

end EspMqttClientPosix

end EspMqttClient
