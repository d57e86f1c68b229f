/-
  What can be read off a log.

  A log is newest first, so a function on it takes the newest record off and goes on with the rest.
-/
import EspMqttClient.Data.Trace
import EspMqttClient.MqttClient.Loop

namespace EspMqttClient

namespace Event

/-- Anything but the three events that concern the bytes that come in. -/
def isLocal : Event → Bool
  | .transportConnect _ | .read _ | .parsed _ => false
  | _ => true

/-- Does the event leave the state and the disconnect reason alone? -/
def isCalm : Event → Bool
  | .state _ | .fault _ | .connect _ | .disconnect _ | .onConnect _ | .onDisconnect _ => false
  | _ => true

/-- Does the event leave the outbox and what was written of it alone? -/
def isMute : Event → Bool
  | .onError .. | .calls _ | .nextPacketId _ | .fault _ | .stop | .disconnect _ | .packet _ | .timeout
  | .onSubscribe .. | .onUnsubscribe _ | .onMessage _ | .onPublish _ | .read _ | .parsed _ => true
  | _ => false

/-- Was the transport told to connect? -/
def isTransportConnect : Event → Bool
  | .transportConnect _ => true
  | _ => false

/-- Was the transport asked to write? -/
def isWrite : Event → Bool
  | .write _ => true
  | _ => false

/-- The bytes that the transport accepted. -/
def writtenBytes : Event → List Byte
  | .write bytes => bytes
  | _ => []

/-- Does the client leave its connection? -/
def isTearing : Event → Bool
  | .state next => next = .disconnectingTcp1
  | _ => false

/-- The bytes of a read buffer. -/
def readBytes : Event → List Byte
  | .read bytes => bytes
  | _ => []

/-- The bytes that the parser consumed. -/
def parsedBytes : Event → List Byte
  | .parsed bytes => bytes
  | _ => []

/-- Did a `connect` return true? -/
def isConnect : Event → Bool
  | .connect _ => true
  | _ => false

def isOnConnect : Event → Bool
  | .onConnect _ => true
  | _ => false

def isOnDisconnect : Event → Bool
  | .onDisconnect _ => true
  | _ => false

/-- Does the client begin to disconnect, or go on with it? -/
def isLeaving : Event → Bool
  | .state next => State.disconnectingMqtt1.toNat ≤ next.toNat
  | _ => false

end Event

/-- Is a byte written? -/
def Record.isWriting (r : Record) : Bool := r.event.writtenBytes ≠ []

namespace Log

/-- How many calls of `connect` returned true. -/
def connects (log : Log) : ℕ := log.countP (·.event.isConnect)

/-- How many calls of the `onDisconnect` callback were due. -/
def onDisconnects (log : Log) : ℕ := log.countP (·.event.isOnDisconnect)

/-- Was a disconnect begun since the last `connect`? -/
def closing : Log → Bool := Trace.since (·.event.isConnect) (·.event.isLeaving)

/-- Was the `onConnect` callback due since the last `connect`? -/
def greeted : Log → Bool := Trace.since (·.event.isConnect) (·.event.isOnConnect)

/-- Did the client leave the connection that the transport was told to make last? -/
def torn : Log → Bool := Trace.since (·.event.isTransportConnect) (·.event.isTearing)

/-- The bytes that were read in this connection. -/
def received : Log → List Byte := Trace.gather (·.event.isTransportConnect) (·.event.readBytes)

/-- The bytes that the transport accepted in this connection. -/
def written : Log → List Byte := Trace.gather (·.event.isTransportConnect) (·.event.writtenBytes)

/-- The bytes that the parser consumed in this connection. -/
def consumed : Log → List Byte := Trace.gather (·.event.isTransportConnect) (·.event.parsedBytes)

/-- Was the transport told to connect just now? -/
def dialling : Log → Bool
  | [] => false
  | r :: _ => r.event.isTransportConnect

/-- Is the send loop running: was a packet written to or left just now? -/
def sending : Log → Bool
  | [] => false
  | r :: _ => match r.event with
    | .write _ | .sent _ => true
    | _ => false

end Log

end EspMqttClient
