import RaftReplica.Event.Basic
import RaftReplica.Failure
import RaftReplica.Health
import RaftReplica.Log
import RaftReplica.Peer.Roster
import RaftReplica.Progress
import RaftReplica.Quorum.Election
import RaftReplica.Role

/-!
# The state of a replica

A replica is one member of a quorum: itself and the peers of its roster. This file holds its state,
the effects that handling an event has on the outside, and a turn, which is the state together with
the effects so far. Nothing here talks to anybody: calls to peers, answers, commits and timers are
effects for the surroundings to carry out.
-/

namespace RaftReplica

/-- Why a replica cannot do what it was asked to. -/
inductive ReplicaError where
  | notListening
  | invalidOptions (cause : OptionsError)
  | unknownRole (code : Nat)
  | peers (cause : PeerError)
  | election (cause : ElectionError)
  | aborted (message : String)
  /-- The present term is the largest, and counting on overflows. Nothing sees to that: the replica comes apart
  over it. -/
  | termExhausted

def ReplicaError.message : ReplicaError → String
  | notListening => "replica is not listening for events"
  | invalidOptions cause =>
    if cause.kind = overflowKind then cause.message else s!"invalid replica options: {cause.message}"
  | unknownRole code => s!"unknown replica state {code}"
  | peers cause => s!"could not reach peers: {cause.message}"
  | election cause => s!"could not hold election: {cause.message}"
  | aborted message => s!"event loop aborted: {message}"
  | termExhausted => "attempt to add with overflow"

def ReplicaError.kind : ReplicaError → String
  | notListening => "NotListening"
  | invalidOptions cause => if cause.kind = overflowKind then overflowKind else "InvalidOptions"
  | unknownRole _ => "UnknownState"
  | peers _ => "Peers"
  | election cause => "Election." ++ cause.kind
  | aborted _ => "Aborted"
  | termExhausted => overflowKind

instance : Failure ReplicaError := ⟨ReplicaError.kind, ReplicaError.message⟩

/-- The state of a replica. -/
structure Replica where
  name : String
  /-- The peers, without an entry of the replica's own name. -/
  peers : Roster
  quorum : Quorum
  settings : Settings
  role : Role
  /-- Whether the peers have been connected and the first timer started. -/
  bootstrapped : Bool
  term : Nat
  /-- For whom it voted in its term. -/
  votedFor : Option String
  leader : Option String
  log : Log
  commitIndex : Nat
  /-- The index of the last entry put on the commit stream. -/
  lastApplied : Nat
  /-- The votes of a candidate. -/
  election : Option Election
  /-- A leader's view of its peers. -/
  progress : Option Progress
  /-- Whether there is a timer for heartbeats. -/
  heartbeatTicker : Bool
  /-- Whether there is a timer for elections. -/
  electionTicker : Bool
  /-- Whether events reach it through a pipe. -/
  listening : Bool
  /-- Whether its calls and timers have been called off for good. -/
  cancelled : Bool
  /-- What was last published. -/
  published : Snapshot
  health : HealthFlags

namespace Replica

/-- A stopped replica that has never been started. An entry of its own name in the roster is
ignored. -/
def create (name : String) (roster : Roster) (options : Options) : Except ReplicaError Replica :=
  match Settings.validate options with
  | .error cause => .error (.invalidOptions cause)
  | .ok settings =>
    let peers : Roster := roster.filter fun seat => seat.peer.name != name
    .ok {
      name, peers, settings
      quorum := (Quorum.form Sequence.new (peers.names ++ [name])).1
      role := .stopped
      bootstrapped := false
      term := 0
      votedFor := none
      leader := none
      log := Log.empty
      commitIndex := 0
      lastApplied := 0
      election := none
      progress := none
      heartbeatTicker := false
      electionTicker := false
      listening := false
      cancelled := false
      published := Snapshot.initial
      health := HealthFlags.initial }

/-- What may be published of the present state. -/
def snapshot (r : Replica) : Snapshot := ⟨r.role, r.term, r.leader⟩

/-- Whether a timer of a kind is there. -/
def hasTicker (r : Replica) : Tick → Bool
  | .heartbeat => r.heartbeatTicker
  | .election => r.electionTicker

def setTicker (r : Replica) (tick : Tick) (present : Bool) : Replica :=
  match tick with
  | .heartbeat => { r with heartbeatTicker := present }
  | .election => { r with electionTicker := present }

end Replica

/-- What a replica wants done outside. -/
inductive Effect where
  /-- One request to some peers. It goes out to those that are connected. -/
  | broadcast (seats : List Seat) (request : Request)
  | answer (ticket : Ticket) (answer : Answer)
  /-- An entry for the commit stream. -/
  | commit (entry : LogEntry)
  | publish (snapshot : Snapshot)
  /-- A new timer, in place of one that may be there. -/
  | startTicker (tick : Tick)
  | stopTicker (tick : Tick)
  | interruptTicker (tick : Tick)
deriving DecidableEq, Repr

/-- A replica in the middle of acting, with what it wants done so far. -/
structure Turn where
  replica : Replica
  effects : List Effect

namespace Turn

/-- A turn before anything happens. -/
def start (r : Replica) : Turn := ⟨r, []⟩

def emit (t : Turn) (effect : Effect) : Turn := { t with effects := t.effects ++ [effect] }

def emitAll (t : Turn) (effects : List Effect) : Turn :=
  { t with effects := t.effects ++ effects }

def update (t : Turn) (change : Replica → Replica) : Turn :=
  { t with replica := change t.replica }

@[simp] theorem effects_start (r : Replica) : (start r).effects = [] := rfl

@[simp] theorem replica_emit (t : Turn) (effect : Effect) : (t.emit effect).replica = t.replica := rfl

@[simp] theorem effects_emit (t : Turn) (effect : Effect) :
    (t.emit effect).effects = t.effects ++ [effect] := rfl

@[simp] theorem replica_emitAll (t : Turn) (effects : List Effect) :
    (t.emitAll effects).replica = t.replica := rfl

@[simp] theorem effects_emitAll (t : Turn) (effects : List Effect) :
    (t.emitAll effects).effects = t.effects ++ effects := rfl

@[simp] theorem replica_update (t : Turn) (change : Replica → Replica) :
    (t.update change).replica = change t.replica := rfl

@[simp] theorem effects_update (t : Turn) (change : Replica → Replica) :
    (t.update change).effects = t.effects := rfl

/-- Publishes the present state if it differs from what was published last. -/
def publish (t : Turn) : Turn :=
  if t.replica.published = t.replica.snapshot then t
  else (t.update fun r => { r with published := r.snapshot }).emit (.publish t.replica.snapshot)

/-- Starts a timer, in place of one that may be there. -/
def startTicker (t : Turn) (tick : Tick) : Turn :=
  (t.update fun r => r.setTicker tick true).emit (.startTicker tick)

/-- Stops a timer that is there. -/
def stopTicker (t : Turn) (tick : Tick) : Turn :=
  if t.replica.hasTicker tick then
    (t.update fun r => r.setTicker tick false).emit (.stopTicker tick)
  else t

/-- Starts the wait of a timer over, if the timer is there. -/
def interruptTicker (t : Turn) (tick : Tick) : Turn :=
  if t.replica.hasTicker tick then t.emit (.interruptTicker tick) else t

end Turn

/-- How a turn ends. -/
abbrev Outcome := Turn × Except ReplicaError Unit

end RaftReplica
