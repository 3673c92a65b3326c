import RaftReplica.Peer.Call
import RaftReplica.Random.ChaCha
import RaftReplica.Replica.Served
import RaftReplica.Time.Timer

/-!
# Simulated time

A simulation runs served replicas, with their timers and the calls between them, on a clock of its
own. Time stands still while anything can still happen and then moves on to the next whole millisecond
at which a timer or a call is due. Calls between the replicas take no time; besides replicas there are
remotes of known conduct. A replica or remote can be cut off, and then all calls from and to it fail.

A replica's pipe is held open by whoever drives the replica and by the connections of the other
replicas to it, which end with their own loops. What finds a pipe full stands in line for it.
-/

namespace RaftReplica

/-- A timer of a replica. -/
abbrev ReplicaTimer := Timer (Interval ChaCha)

/-- A served replica with what runs beside its loop and what is seen of it. -/
structure Node where
  served : Served
  /-- The timers that are running or have yet to end. -/
  timers : List ReplicaTimer
  /-- Whether somebody holds the handle through which it is driven. -/
  handle : Bool
  /-- Whether somebody holds one more sender of its pipe. -/
  sender : Bool
  /-- The replicas that it is connected to. Each connection holds a sender of the other's pipe. -/
  connections : List String
  /-- Whether a slot of its pipe is set aside for whoever drives it. -/
  promised : Bool
  /-- What came out of its commit stream since somebody last looked. -/
  commits : List LogEntry
  /-- Whether something was published since somebody last looked. -/
  changed : Bool

/-- What a call waits for. -/
inductive Awaited where
  /-- The response of a remote. -/
  | response (response : Response)
  /-- The answer of a replica. -/
  | answer (ticket : Ticket)

/-- A call under way. -/
structure OpenCall where
  caller : String
  /-- The number of the broadcast that it belongs to. -/
  broadcast : Nat
  deadline : Nat
  awaited : Awaited

/-- What wants room in a pipe. -/
inductive Load where
  | event (event : Event)
  /-- A slot, for somebody who will fill it later. -/
  | slot

/-- Something that wants room in a replica's pipe. -/
structure Delivery where
  target : String
  load : Load
  /-- The number of the broadcast that it is a reply to. The replies to one broadcast stand in line
  one at a time. -/
  broadcast : Option Nat

/-- Everything there is at a time. -/
structure Simulation where
  /-- In nanoseconds. -/
  now : Nat
  nodes : Std.TreeMap String Node compare
  remotes : List Remote
  /-- The names that are cut off. -/
  cut : List String
  calls : List OpenCall
  /-- What stands in line for room in a full pipe. -/
  line : List Delivery
  /-- What is yet to try its pipe. -/
  deliveries : List Delivery
  /-- The next unused ticket. Broadcasts are numbered by tickets too. -/
  ticket : Ticket
  answers : Std.TreeMap Ticket Answer compare

namespace Simulation

def start (remotes : List Remote) : Simulation :=
  ⟨0, ∅, remotes, [], [], [], [], 0, ∅⟩

def node? (sim : Simulation) (name : String) : Option Node := sim.nodes[name]?

def setNode (sim : Simulation) (name : String) (node : Node) : Simulation :=
  { sim with nodes := sim.nodes.insert name node }

/-- Changes a node, if there is one of the name. -/
def change (sim : Simulation) (name : String) (f : Node → Node) : Simulation :=
  { sim with nodes := sim.nodes.modify name f }

end Simulation

/-- The delays of a replica's timers of a kind. -/
def Replica.delays (r : Replica) : Tick → Interval ChaCha
  | .heartbeat => r.settings.heartbeatInterval (ChaCha.ofSeed (r.settings.seed.getD 0))
  | .election => r.settings.electionInterval (ChaCha.ofSeed (r.settings.seed.getD 0))

namespace Node

def ofServed (served : Served) : Node where
  served := served
  timers := []
  handle := true
  sender := true
  connections := []
  promised := false
  commits := []
  changed := false

def replica (node : Node) : Replica := node.served.replica

/-- Changes the pipe. -/
def mapPipe (change : Pipe Event → Pipe Event) (node : Node) : Node :=
  { node with served := { node.served with pipe := change node.served.pipe } }

/-- Changes the timers of a kind. -/
def mapTimers (node : Node) (tick : Tick) (f : ReplicaTimer → ReplicaTimer) : Node :=
  { node with timers := node.timers.map fun timer => if timer.tick = tick then f timer else timer }

/-- Starts a timer in place of those of its kind. -/
def startTimer (node : Node) (tick : Tick) (now : Nat) : Node :=
  let node := node.mapTimers tick Timer.stop
  { node with timers := node.timers ++ [Timer.start tick (node.replica.delays tick) now] }

/-- Lets timers run one after the other, each on what the one before left of the pipe. -/
def settleTimers (now : Nat) : List ReplicaTimer → Pipe Event → List ReplicaTimer × Pipe Event
  | [], pipe => ([], pipe)
  | timer :: rest, pipe =>
    let (timer, pipe) := timer.settle now pipe
    let (rest, pipe) := settleTimers now rest pipe
    (if timer.isOver then rest else timer :: rest, pipe)

/-- Lets all timers run until they wait. -/
def tick (node : Node) (now : Nat) : Node :=
  let (timers, pipe) := settleTimers now node.timers node.served.pipe
  { node with timers, served := { node.served with pipe } }

end Node

namespace Simulation

/-! ## Effects -/

/-- Makes a call, unless it fails at once. One that is given no time is dropped before it goes
out. -/
def makeCall (caller : String) (broadcast : Nat) (timeout : Duration) (request : Request)
    (sim : Simulation) (seat : Seat) : Simulation :=
  let target := seat.peer.name
  let limits : CallLimits := ⟨timeout.nanoseconds, none⟩
  let deadline := limits.deadline sim.now
  let isCut := [caller, target].any sim.cut.contains
  if !seat.connected || isCut || deadline ≤ sim.now then sim
  else if (sim.node? target).isSome then
    { sim with
      ticket := sim.ticket + 1
      calls := sim.calls ++ [⟨caller, broadcast, deadline, .answer sim.ticket⟩]
      deliveries := sim.deliveries ++ [⟨target, .event (Event.ofRequest sim.ticket request), none⟩] }
  else
    match (sim.remotes.find? (·.name = target)).bind (·.respond? sim.now request) with
    | some response =>
      { sim with calls := sim.calls ++ [⟨caller, broadcast, deadline, .response response⟩] }
    | none => sim

/-- Carries out an effect of a replica. What a replica calls for does not go out any more once it has
been stopped. -/
def carryOut (name : String) (sim : Simulation) (effect : Effect) : Simulation :=
  match effect with
  | .broadcast seats request =>
    match sim.node? name with
    | some node =>
      if node.replica.cancelled then sim
      else
        seats.foldl (makeCall name sim.ticket node.replica.settings.rpcTimeout request)
          { sim with ticket := sim.ticket + 1 }
    | none => sim
  | .answer ticket answer => { sim with answers := sim.answers.insert ticket answer }
  | .commit entry => sim.change name fun node => { node with commits := node.commits ++ [entry] }
  | .publish _ => sim.change name fun node => { node with changed := true }
  | .startTicker tick => sim.change name fun node => node.startTimer tick sim.now
  | .stopTicker tick => sim.change name fun node => node.mapTimers tick Timer.stop
  | .interruptTicker tick => sim.change name fun node => node.mapTimers tick Timer.interrupt

/-- Carries out all that a replica wants done, and tells whether there was anything. -/
def carryOutAll (sim : Simulation) (name : String) : Simulation × Bool :=
  match sim.node? name with
  | none => (sim, false)
  | some node =>
    let (effects, served) := node.served.takeEffects
    let sim := sim.setNode name { node with served }
    (effects.foldl (carryOut name) sim, !effects.isEmpty)

/-! ## Connections -/

/-- Connects a replica to the others of its roster. -/
def join (sim : Simulation) (name : String) : Simulation :=
  match sim.node? name with
  | none => sim
  | some node =>
    let others := node.replica.peers.names.filter fun other => (sim.node? other).isSome
    let sim := sim.setNode name { node with connections := others }
    others.foldl (fun sim other => sim.change other (Node.mapPipe Pipe.addSender)) sim

/-- Drops the connections of a replica whose loop has ended, and tells whether there were any. -/
def part (sim : Simulation) (name : String) : Simulation × Bool :=
  match sim.node? name with
  | none => (sim, false)
  | some node =>
    if node.served.ended.isNone || node.connections.isEmpty then (sim, false)
    else
      let sim := sim.setNode name { node with connections := [] }
      (node.connections.foldl (fun sim other => sim.change other (Node.mapPipe Pipe.dropSender)) sim,
        true)

end Simulation

end RaftReplica
