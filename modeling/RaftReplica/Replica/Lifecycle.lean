import RaftReplica.Replica.Basic

/-!
# Taking a role

Each role is prepared before it is taken, and taken only if that succeeds: peers are connected on the
first run, a candidate calls an election and votes for itself, a leader forgets what it knew of its
peers, and whoever stops lets go of everything that runs. Taking a role publishes it.
-/

namespace RaftReplica

namespace Turn

/-- Takes a role that has been prepared. -/
def settle (t : Turn) (role : Role) : Turn :=
  (t.update fun r => { r with role }).publish

/-- Forgets the votes of a candidate and the peers' progress of a leader. -/
def leaveOffice (t : Turn) : Turn :=
  t.update fun r => { r with election := none, progress := none }

/-- Lets go of timers, calls, connections and the pipe, unless that has been done. -/
def prepareStopped (t : Turn) : Turn :=
  if t.replica.role = .stopped then t
  else
    ((t.stopTicker .heartbeat).stopTicker .election).update fun r =>
      { r with
        cancelled := true
        peers := r.peers.close.1
        listening := false
        leader := none
        health := { r.health with ready := false } }

/-- Connects the peers and starts the election timer, the first time. Peers that can be connected
are, even if others cannot. -/
def prepareRunning (t : Turn) : Outcome :=
  if t.replica.bootstrapped then (t, .ok ())
  else
    let (peers, result) := t.replica.peers.connect t.replica.settings.connect
    let t := t.update fun r => { r with peers }
    match result with
    | .error cause => (t, .error (.peers cause))
    | .ok () =>
      ((t.startTicker .election).update fun r =>
        { r with bootstrapped := true, health := { r.health with healthy := true } }, .ok ())

/-- Exchanges the heartbeat timer for a fresh wait of the election timer. -/
def prepareFollower (t : Turn) : Turn :=
  let t := t.leaveOffice.stopTicker .heartbeat
  let t := if t.replica.electionTicker then t.interruptTicker .election
    else t.startTicker .election
  t.update fun r => { r with health := { r.health with ready := true } }

/-- The election as it stands once its caller has voted, if the caller may. -/
def castOwnVote (election : Election) (name : String) : Election :=
  match election.vote name with
  | .ok (_, election) => election
  | .error _ => election

/-- Calls an election and votes for oneself. -/
def prepareCandidate (t : Turn) : Outcome :=
  let t := t.leaveOffice
  match t.replica.quorum.election with
  | .error cause => (t, .error (.election cause))
  | .ok election =>
    (t.update fun r => { r with election := some (castOwnVote election r.name) }, .ok ())

/-- Exchanges the election timer for a heartbeat timer and takes a fresh view of the peers. -/
def prepareLeader (t : Turn) : Turn :=
  (((t.leaveOffice.stopTicker .election).startTicker .heartbeat)).update fun r =>
    { r with
      progress := some (Progress.start r.peers.names r.log.lastIndex)
      leader := some r.name }

/-- Takes a role, if it can be prepared. What a failed preparation has done stays done. -/
def enter (t : Turn) (role : Role) : Outcome :=
  let (t, result) : Outcome := match role with
    | .stopped => (t.prepareStopped, .ok ())
    | .initialized => (t.leaveOffice, .ok ())
    | .running => t.prepareRunning
    | .follower => (t.prepareFollower, .ok ())
    | .candidate => t.prepareCandidate
    | .leader => (t.prepareLeader, .ok ())
  match result with
  | .error error => (t, .error error)
  | .ok () => (t.settle role, .ok ())

/-- Takes roles one after the other, up to one that cannot be taken. -/
def enterAll (t : Turn) : List Role → Outcome
  | [] => (t, .ok ())
  | role :: roles =>
    match t.enter role with
    | (t, .ok ()) => enterAll t roles
    | (t, .error error) => (t, .error error)

/-- Brings a new replica to where it serves as a follower. -/
def bootstrap (t : Turn) : Outcome := t.enterAll [.initialized, .running, .follower]

/-- Stops for good. -/
def shutDown (t : Turn) : Turn := (t.enter .stopped).1

end Turn

namespace Replica

/-- Takes a role given by its number. -/
def setRole (r : Replica) (code : Nat) : Outcome :=
  match Role.ofCode? code with
  | some role => (Turn.start r).enter role
  | none => (Turn.start r, .error (.unknownRole code))

end Replica

end RaftReplica
