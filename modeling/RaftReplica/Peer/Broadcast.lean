import RaftReplica.Peer.Call
import RaftReplica.Peer.Roster
import RaftReplica.Pipe

/-!
# Broadcasts

A broadcast makes one call to every entry of a roster, all with the same request. The replies of the
calls that succeed go into a channel in the order in which the calls end; the others leave nothing
behind. Each call holds a sender of the channel until its reply is in, so that the channel ends with
the last call. What the broadcast counts are the replies that the channel took.
-/

namespace RaftReplica

/-- A call of a broadcast. -/
structure PeerCall where
  /-- The entry of the roster that is called. -/
  place : Nat
  seat : Seat
  request : Request

/-- A broadcast under way. -/
structure Broadcast where
  /-- The calls that have not ended. -/
  calls : List PeerCall
  /-- Replies that wait for room in the channel. -/
  held : List Reply
  channel : Pipe Reply
  /-- How many replies the channel took. -/
  succeeded : Nat

namespace Broadcast

/-- Calls every entry of a roster. -/
def start (roster : Roster) (request : Request) (channel : Pipe Reply) : Broadcast where
  calls := roster.zipIdx.map fun (seat, place) => ⟨place, seat, request⟩
  held := []
  channel := { channel with senders := roster.length }
  succeeded := 0

/-- Puts held replies into the channel, as far as it takes them. -/
def pass (b : Broadcast) : List Reply → Broadcast
  | [] => { b with held := [] }
  | reply :: rest =>
    match b.channel.trySend reply with
    | .ok channel => pass { b with channel := channel.dropSender, succeeded := b.succeeded + 1 } rest
    | .error .full => { b with held := reply :: rest }
    | .error .closed => pass { b with channel := b.channel.dropSender } rest

/-- Lets held replies go on. -/
def settle (b : Broadcast) : Broadcast := b.pass b.held

/-- Ends the call at a place. -/
def finish (b : Broadcast) (place : Nat) (result : Except PeerError Reply) : Broadcast :=
  if b.calls.any (·.place == place) then
    let b := { b with calls := b.calls.filter (·.place != place) }
    match result with
    | .ok reply => { b with held := b.held ++ [reply] }.settle
    | .error _ => { b with channel := b.channel.dropSender }
  else b

/-- Takes a reply from the channel. -/
def receive (b : Broadcast) : Received Reply × Broadcast :=
  let (received, channel) := b.channel.receive
  (received, { b with channel }.settle)

/-- Whether all calls are over and their replies gone. -/
def isOver (b : Broadcast) : Bool := b.calls.isEmpty && b.held.isEmpty

/-- How many replies were delivered, once the broadcast is over. -/
def join? (b : Broadcast) : Option Nat := if b.isOver then some b.succeeded else none

/-- Takes replies for as long as there are some, `max` at the most. -/
def receiveAll : (max : Nat) → Broadcast → List Reply × Broadcast
  | 0, b => ([], b)
  | max + 1, b =>
    match b.receive with
    | (.item reply, b) =>
      let (replies, b) := receiveAll max b
      (reply :: replies, b)
    | (_, b) => ([], b)

/-- Ends calls one after the other, with somebody at the channel who takes each reply at once. -/
def carryOut : List (Nat × Except PeerError Reply) → Broadcast → List Reply × Broadcast
  | [], b => ([], b)
  | (place, result) :: rest, b =>
    let (first, b) := receiveAll (b.channel.capacity + 1) (b.finish place result)
    let (replies, b) := carryOut rest b
    (first ++ replies, b)

/-- Broadcasts to remotes in the order of a roster, and gives the replies and their number. -/
def toRemotes (peers : List (Seat × Remote)) (limits : CallLimits) (request : Request)
    (channel : Pipe Reply) : List Reply × Nat :=
  let ends := peers.zipIdx.map fun ((seat, remote), place) =>
    (place, remote.call seat limits request 0)
  let inOrder := ends.mergeSort fun a b => a.2.time ≤ b.2.time
  let (replies, b) := carryOut (inOrder.map fun (place, ended) => (place, ended.result))
    (start (peers.map (·.1)) request channel)
  (replies, b.succeeded)

end Broadcast

end RaftReplica
