/-
  `ClientPosix` (`Transport/ClientPosix.cpp`) and the descriptors of its process.

  The system gives the lowest number out that is not in use, so a descriptor that is closed twice may be
  somebody else's by then.  What the system decides is a `System`, a table of answers like an `Env`.
-/
import EspMqttClient.Packets.Codec
import EspMqttClient.Transport.Basic

namespace EspMqttClient

/-! ### Descriptors -/

/-- The open descriptors of a process. -/
structure Descriptors where
  /-- The sockets that `ClientPosix` opened and did not close. -/
  own : List ℕ
  /-- What the rest of the program opened and did not close. -/
  others : List ℕ
deriving DecidableEq

namespace Descriptors

def isOpen (d : Descriptors) (fd : ℕ) : Bool := fd ∈ d.own ∨ fd ∈ d.others

/-- The lowest number that is not in use.  One of so many is free. -/
def lowest (d : Descriptors) : ℕ :=
  ((List.range (d.own.length + d.others.length + 1)).find? fun fd => !d.isOpen fd).getD 0

/-- `::socket`, called by `ClientPosix`. -/
def socket (d : Descriptors) (success : Bool) : ℤ × Descriptors :=
  if success then (d.lowest, { d with own := d.lowest :: d.own }) else (-1, d)

/-- `::close`, of whosever descriptor it is. -/
def close (d : Descriptors) (fd : ℕ) : Descriptors :=
  if fd ∈ d.own then { d with own := d.own.erase fd } else { d with others := d.others.erase fd }

/-- The rest of the program opens a descriptor. -/
def openOther (d : Descriptors) : Descriptors := { d with others := d.lowest :: d.others }

/-- The rest of the program closes one of its own. -/
def closeOther (d : Descriptors) (fd : ℕ) : Descriptors := { d with others := d.others.erase fd }

end Descriptors

/-! ### Addresses -/

/-- The address and the port of a `sockaddr_in`, in network byte order. -/
structure SockAddr where
  addr : UInt32
  port : UInt16
deriving DecidableEq

/-- The octet at this address of a number in the memory of a little-endian machine. -/
def octet (n : UInt32) (i : ℕ) : BitVec 8 := n.toBitVec.extractLsb' (8 * i) 8

/-- `htonl` of a little-endian machine. -/
def htonl (n : UInt32) : UInt32 := ⟨octet n 0 ++ octet n 1 ++ octet n 2 ++ octet n 3⟩

/-- `htons` of a little-endian machine. -/
def htons (n : UInt16) : UInt16 := n <<< 8 ||| n >>> 8

/-- What `setServer` was called with last. -/
inductive Server
  | ip (ip : UInt32) (port : UInt16)
  | host (host : Option CString) (port : UInt16)

/-- What the system answers, and which server is set, by the number of the question. -/
structure System where
  /-- Does `::socket` open a socket? -/
  socket : ℕ → Bool
  /-- Does `::connect` succeed on an open socket? -/
  connect : ℕ → SockAddr → Bool
  /-- The addresses that `getaddrinfo` finds, in network byte order, none if it fails. -/
  getaddrinfo : ℕ → CString → List UInt32
  server : ℕ → Server

/-! ### `ClientPosix` -/

structure ClientPosix where
  sockfd : ℤ
  host : SockAddr
  descriptors : Descriptors

namespace ClientPosix

/-- A new transport in a process with these descriptors. -/
def new (others : List ℕ) : ClientPosix := ⟨-1, ⟨0, 0⟩, ⟨[], others⟩⟩

def connected (p : ClientPosix) : Bool := 0 ≤ p.sockfd

def disconnected (p : ClientPosix) : Bool := p.sockfd < 0

def stop (p : ClientPosix) : ClientPosix :=
  if 0 ≤ p.sockfd then { p with sockfd := -1, descriptors := p.descriptors.close p.sockfd.toNat } else p

variable (sys : System) (tick : ℕ)

/-- `connect(IPAddress, uint16_t)`.  That there is no socket is only logged: then `::connect` fails. -/
def connectIp (p : ClientPosix) (ip : UInt32) (port : UInt16) : Bool × ClientPosix :=
  let p := if p.connected then p.stop else p
  let (sockfd, descriptors) := p.descriptors.socket (sys.socket tick)
  let p := { p with sockfd, descriptors, host := ⟨htonl ip, htons port⟩ }
  (0 ≤ p.sockfd ∧ sys.connect tick p.host, p)

/-- `_hostToIP`: the first address that is not 0. -/
def hostToIP (hostname : Option CString) : UInt32 :=
  match hostname with
  | none => 0
  | some hostname => (((sys.getaddrinfo tick hostname).map htonl).find? (· ≠ 0)).getD 0

/-- `connect(const char*, uint16_t)`. -/
def connectHost (p : ClientPosix) (hostname : Option CString) (port : UInt16) : Bool × ClientPosix :=
  let ipAddress := hostToIP sys tick hostname
  if ipAddress = 0 then (false, p) else p.connectIp sys tick ipAddress port

/-- The call of `connect` in `MqttClient::loop`. -/
def connect (p : ClientPosix) : Bool × ClientPosix :=
  match sys.server tick with
  | .ip ip port => p.connectIp sys tick ip port
  | .host host port => p.connectHost sys tick host port

/-- `~ClientPosix`. -/
def destroy (p : ClientPosix) : ClientPosix := p.stop

end ClientPosix

end EspMqttClient
