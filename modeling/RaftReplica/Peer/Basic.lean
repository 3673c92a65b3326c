import RaftReplica.Failure
import RaftReplica.Options
import RaftReplica.Peer.Address
import RaftReplica.Status
import RaftReplica.Text.Quoted

/-!
# Peers

A peer is a remote replica as the roster describes it. A seat is a peer together with whether it is
connected. Connecting only checks the address and keeps the connection for later; nobody is called.
-/

namespace RaftReplica

/-- A remote replica. -/
structure Peer where
  /-- Its precedence; zero while it has none. -/
  pid : Nat
  name : String
  addr : String
  region : Option String
deriving DecidableEq, Inhabited, Repr

/-- What can go wrong with a peer. -/
inductive PeerError where
  | noEndpoint
  | alreadyConnected
  | notConnected
  | notFound (name : String)
  | invalidAddress (name : String) (cause : Address.AddressError)
  /-- A secured connection to an address that names no host. -/
  | noHost (name : String)
  | rpc (name : String) (status : Status)
  | deadlineExceeded (name : String)
  | cancelled (name : String)
  /-- The roster's file cannot be read or written. -/
  | inaccessibleRoster
  | malformedRoster
  | multiple (errors : List PeerError)

namespace PeerError

mutual

def message : PeerError → String
  | noEndpoint => "peer does not have an endpoint to connect on"
  | alreadyConnected => "already connected to remote peer"
  | notConnected => "not connected to remote peer"
  | notFound name => s!"no peer found named {Text.quote name}"
  | invalidAddress name cause => s!"invalid address for {name}: {cause.message}"
  | noHost name => s!"could not connect to {name}: transport error: invalid URI"
  | rpc name status =>
    s!"rpc to {name} failed: status: {Status.codeName status.code}, " ++
      s!"message: {Text.quote status.message}"
  | deadlineExceeded name => s!"rpc to {name} timed out"
  | cancelled name => s!"rpc to {name} was cancelled"
  | inaccessibleRoster => "could not access roster"
  | malformedRoster => "malformed roster"
  | multiple errors => "\n".intercalate (messages errors)

def messages : List PeerError → List String
  | [] => []
  | error :: errors => error.message :: messages errors

end

/-- What an operation that went on over every error reports: nothing, the one error, or all. -/
def collect : List PeerError → Except PeerError Unit
  | [] => .ok ()
  | [error] => .error error
  | errors => .error (.multiple errors)

end PeerError

namespace PeerError

def kind : PeerError → String
  | noEndpoint => "NoEndpoint"
  | alreadyConnected => "AlreadyConnected"
  | notConnected => "NotConnected"
  | notFound _ => "NotFound"
  | invalidAddress .. => "InvalidAddress"
  | noHost _ => "Transport"
  | rpc .. => "Rpc"
  | deadlineExceeded _ => "DeadlineExceeded"
  | cancelled _ => "Cancelled"
  | inaccessibleRoster => "Io"
  | malformedRoster => "Malformed"
  | multiple _ => "Multiple"

instance : Failure PeerError := ⟨kind, message⟩

end PeerError

/-- A peer's place in a roster and its connection. -/
structure Seat where
  peer : Peer
  connected : Bool
deriving DecidableEq, Inhabited, Repr

namespace Seat

/-- A place without a connection. -/
def ofPeer (peer : Peer) : Seat := ⟨peer, false⟩

/-- Why the peer cannot be connected. -/
def connectError? (seat : Seat) (options : ConnectOptions) : Option PeerError :=
  if seat.peer.addr = "" then some .noEndpoint
  else if seat.connected then some .alreadyConnected
  else
    match Address.parse (Bytes.ofText (Address.dialUri seat.peer.addr options.tls.isSome)) with
    | .error cause => some (.invalidAddress seat.peer.name cause)
    | .ok .path => if options.tls = some "" then some (.noHost seat.peer.name) else none
    | .ok .host => none

/-- Connects the peer, if nothing stands against it. -/
def connect (seat : Seat) (options : ConnectOptions) : Seat × Option PeerError :=
  match seat.connectError? options with
  | some error => (seat, some error)
  | none => ({ seat with connected := true }, none)

/-- Drops the connection. -/
def close (seat : Seat) : Seat × Option PeerError :=
  if seat.connected then ({ seat with connected := false }, none)
  else (seat, some .notConnected)

/-- The seat as a text for a reader of logs. -/
def describe (seat : Seat) : String :=
  let region := Text.quoteOption seat.peer.region
  let name := Text.quote seat.peer.name
  let addr := Text.quote seat.peer.addr
  s!"Peer \x7b pid: {seat.peer.pid}, name: {name}, addr: {addr}, region: {region}, " ++
    s!"connected: {seat.connected} \x7d"

end Seat

end RaftReplica
