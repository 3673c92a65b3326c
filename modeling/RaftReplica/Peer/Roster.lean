import RaftReplica.Json.Scan
import RaftReplica.Peer.Basic

/-!
# Rosters

A roster lists the peers of a replica in order; names may repeat. Operations on all peers go on over
every failure and report the failures together. On file a roster is a JSON array of its peers, each
an object with the fields in order, or, to a reader, an array of their values.
-/

namespace RaftReplica

/-- Peers in order, with their connections. -/
abbrev Roster := List Seat

namespace Roster

def ofPeers (peers : List Peer) : Roster := peers.map Seat.ofPeer

def peers (roster : Roster) : List Peer := roster.map (·.peer)

def names (roster : Roster) : List String := roster.map (·.peer.name)

/-- The first peer of a name. -/
def get? (roster : Roster) (name : String) : Except PeerError Seat :=
  match roster.find? fun seat => seat.peer.name = name with
  | some seat => .ok seat
  | none => .error (.notFound name)

/-- The earlier of two peers unless the later one has a lower precedence number. -/
def lowerPid (a b : Peer) : Peer := if b.pid < a.pid then b else a

/-- The first peer with the lowest precedence number, among those that have one. -/
def presiding? (roster : Roster) : Option String :=
  match (roster.peers).filter fun peer => 0 < peer.pid with
  | [] => none
  | first :: rest => some (rest.foldl lowerPid first).name

/-- Connects every peer. -/
def connect (roster : Roster) (options : ConnectOptions) : Roster × Except PeerError Unit :=
  let results := roster.map (·.connect options)
  (results.map (·.1), PeerError.collect (results.filterMap (·.2)))

/-- Drops every connection. -/
def close (roster : Roster) : Roster × Except PeerError Unit :=
  let results := roster.map Seat.close
  (results.map (·.1), PeerError.collect (results.filterMap (·.2)))

/-- Whether two rosters list the same peers, connected or not. -/
def listsSame (a b : Roster) : Bool := a.peers = b.peers

end Roster

/-! ## On file -/

namespace Peer

open Json

/-- A member of an object. -/
def member (key : String) (value : Bytes) : Bytes := quote key ++ ascii ':' :: value

/-- The peer as a JSON object. -/
def toJson (peer : Peer) : Bytes :=
  let region := match peer.region with
    | some region => ascii ',' :: member "region" (quote region)
    | none => []
  ascii '\x7b' :: member "pid" (decimalDigits peer.pid) ++
    ascii ',' :: member "name" (quote peer.name) ++
    ascii ',' :: member "addr" (quote peer.addr) ++ region ++ [ascii '\x7d']

/-- The greatest precedence number. -/
def maxPid : Nat := 2 ^ 16 - 1

/-- The fields of a peer as far as they have been read. -/
structure Fields where
  pid : Option Nat
  name : Option String
  addr : Option String
  region : Option (Option String)

def Fields.none : Fields := ⟨.none, .none, .none, .none⟩

/-- The peer of the fields; only the region may be missing. -/
def Fields.toPeer? (fields : Fields) : Option Peer := do
  let pid ← fields.pid
  let name ← fields.name
  let addr ← fields.addr
  return ⟨pid, name, addr, fields.region.getD .none⟩

/-- Reads the value of a key. A known key may come once; the value of any other is passed over. -/
def Fields.read (fields : Fields) (key : String) (bytes : Bytes) : Option (Fields × Bytes) :=
  if key = "pid" then
    if fields.pid.isSome then .none
    else (natUpTo? maxPid bytes).map fun (pid, rest) => ({ fields with pid := some pid }, rest)
  else if key = "name" then
    if fields.name.isSome then .none
    else (string? bytes).map fun (name, rest) => ({ fields with name := some name }, rest)
  else if key = "addr" then
    if fields.addr.isSome then .none
    else (string? bytes).map fun (addr, rest) => ({ fields with addr := some addr }, rest)
  else if key = "region" then
    if fields.region.isSome then .none
    else (optionalString? bytes).map fun (region, rest) =>
      ({ fields with region := some region }, rest)
  else (ignore? bytes).map fun rest => (fields, rest)

/-- Reads members up to the end of their object. -/
def Fields.readMembers : (fuel : Nat) → Fields → Bytes → Option (Fields × Bytes)
  | 0, _, _ => .none
  | fuel + 1, fields, bytes => do
    let (key, rest) ← string? bytes
    let rest ← expect? ':' rest
    let (fields, rest) ← fields.read key rest
    match expect? ',' rest with
    | some rest => readMembers fuel fields rest
    | .none =>
      let rest ← expect? '\x7d' rest
      return (fields, rest)

/-- Reads a peer from an object. -/
def ofObject? (bytes : Bytes) : Option (Peer × Bytes) := do
  let rest ← expect? '\x7b' bytes
  let (fields, rest) ←
    match expect? '\x7d' rest with
    | some rest => some (Fields.none, rest)
    | .none => Fields.readMembers (rest.length + 1) Fields.none rest
  let peer ← fields.toPeer?
  return (peer, rest)

/-- Reads a peer from an array of its values. -/
def ofArray? (bytes : Bytes) : Option (Peer × Bytes) := do
  let rest ← expect? '[' bytes
  let (pid, rest) ← natUpTo? maxPid rest
  let rest ← expect? ',' rest
  let (name, rest) ← string? rest
  let rest ← expect? ',' rest
  let (addr, rest) ← string? rest
  let (region, rest) ←
    match expect? ',' rest with
    | some rest => optionalString? rest
    | .none => some (.none, rest)
  let rest ← expect? ']' rest
  return (⟨pid, name, addr, region⟩, rest)

/-- Reads a peer off the front of the bytes. -/
def ofJson? (bytes : Bytes) : Option (Peer × Bytes) :=
  match expect? '[' bytes with
  | some _ => ofArray? bytes
  | .none => ofObject? bytes

end Peer

namespace Roster

open Json

/-- JSON values separated by commas. -/
def separate : List Bytes → Bytes
  | [] => []
  | [value] => value
  | value :: rest => value ++ ascii ',' :: separate rest

/-- The content of the roster's file. -/
def toFile (roster : Roster) : Bytes :=
  ascii '[' :: separate (roster.peers.map Peer.toJson) ++ [ascii ']', ascii '\n']

/-- Reads peers up to the end of their array. -/
def readPeers : (fuel : Nat) → Bytes → Option (List Peer × Bytes)
  | 0, _ => none
  | fuel + 1, bytes => do
    let (peer, rest) ← Peer.ofJson? bytes
    match expect? ',' rest with
    | some rest =>
      let (peers, rest) ← readPeers fuel rest
      return (peer :: peers, rest)
    | none =>
      let rest ← expect? ']' rest
      return ([peer], rest)

/-- Reads a whole file as an array of peers. -/
def peersOfFile? (bytes : Bytes) : Option (List Peer) := do
  let rest ← expect? '[' bytes
  let (peers, rest) ←
    match expect? ']' rest with
    | some rest => some ([], rest)
    | none => readPeers (rest.length + 1) rest
  if isEnd rest then some peers else none

/-- The roster in a file, without connections. -/
def ofFile (bytes : Bytes) : Except PeerError Roster :=
  match peersOfFile? bytes with
  | some peers => .ok (ofPeers peers)
  | none => .error .malformedRoster

/-- What is in each file, by its path. -/
abbrev Files := String → Option Bytes

/-- Writes the roster to a file in place of what is there. -/
def dump (roster : Roster) (files : Files) (path : String) : Files :=
  fun other => if other = path then some roster.toFile else files other

/-- Reads the roster in a file. -/
def load (files : Files) (path : String) : Except PeerError Roster :=
  match files path with
  | some content => ofFile content
  | none => .error .inaccessibleRoster

end Roster

end RaftReplica
