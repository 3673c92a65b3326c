import RaftReplica.Proofs.Replica.Becomes
import RaftReplica.Proofs.Replica.Bootstrap
import RaftReplica.Proofs.Replica.Outcome

/-!
# The life of one replica

A replica by itself does not know whom to trust.  In its life it handles any events in any order: data to
write, timeouts at whatever time, requests that nobody would make, replies to what it never asked.  A life
goes on after an event that cannot be handled, so that what is said of all lives is said of every stretch
of one, however it ends.

* `Life` is a replica that has been created and bootstrapped, and the events that it handles from then on.
* `state`, `turn` and `stream` are the replica before an event, what the event makes it do, and all that
  has been put on its commit stream.
* `becomes` and `fresh` connect these states with one another and with the beginning.
* `mem_peers` and `mem_hosts` say who its peers and the members of its quorum are.
* `sample` is the life of a replica with one peer that handles some listed events.
-/

namespace RaftReplica

/-- A replica that has come to serve, and the events that it handles one after the other. -/
structure Life where
  name : String
  roster : Roster
  options : Options
  /-- Whether events reach it through a pipe. -/
  listening : Bool
  start : Turn
  boots : Replica.boot? name roster options listening = some start
  event : Nat → Event

namespace Life

/-- The replica before the event of that number. -/
def state (life : Life) : Nat → Replica
  | 0 => life.start.replica
  | k + 1 => ((life.state k).handle (life.event k)).1.replica

/-- What the event of that number makes the replica do. -/
def turn (life : Life) (k : Nat) : Turn := ((life.state k).handle (life.event k)).1

/-- All that has been put on the commit stream before the event of that number. -/
def stream (life : Life) : Nat → List LogEntry
  | 0 => life.start.committed
  | k + 1 => life.stream k ++ (life.turn k).committed

variable (life : Life)

@[simp] theorem replica_turn (k : Nat) : (life.turn k).replica = life.state (k + 1) := rfl

@[simp] theorem stream_succ (k : Nat) :
    life.stream (k + 1) = life.stream k ++ (life.turn k).committed := rfl

theorem handles (k : Nat) : (life.state k).Handles (life.event k) (life.state (k + 1)) :=
  (life.state k).handles_handle (life.event k)

/-- Later states come of earlier ones. -/
theorem becomes {j k : Nat} (hjk : j ≤ k) : (life.state j).Becomes (life.state k) := by
  induction hjk with
  | refl => exact .refl
  | @step k hjk ih => exact ih.handle (life.handles k)

theorem fresh : (life.state 0).Fresh := (Replica.boot?_ok life.boots).2.1

theorem stream_zero : life.stream 0 = [] := (Replica.boot?_ok life.boots).2.2

/-- A replica keeps its name. -/
theorem name_state (k : Nat) : (life.state k).name = life.name := by
  have hfirst : (life.state 0).name = life.name := (Replica.boot?_ok life.boots).1
  rw [(life.becomes (Nat.zero_le k)).sameMember.name, hfirst]

theorem exists_created :
    ∃ r : Replica, r.Created life.name life.roster ∧ r.bootstrap = (life.start, .ok ()) :=
  Replica.exists_created_of_boot? life.boots

/-- The peers of a replica are those of its roster but for itself. -/
theorem mem_peers (k : Nat) {other : String} :
    other ∈ (life.state k).peers.names ↔ other ∈ life.roster.names ∧ other ≠ life.name := by
  obtain ⟨r, hcreated, hstart⟩ := life.exists_created
  obtain ⟨-, -, -, hpeers, -⟩ := Replica.bootstrap_ok hcreated.bootstrapped hstart
  have hfirst : (life.state 0).peers.names = r.peers.names := hpeers
  rw [(life.becomes (Nat.zero_le k)).sameMember.peers, hfirst, hcreated.peers]

/-- The quorum of a replica are itself and those of its roster, but for those without a name. -/
theorem mem_hosts (k : Nat) {host : String} :
    host ∈ (life.state k).quorum.hosts ↔
      (host ∈ (life.state k).peers.names ∨ host = life.name) ∧ host ≠ "" := by
  obtain ⟨r, hcreated, hstart⟩ := life.exists_created
  obtain ⟨-, -, hquorum, hpeers, -⟩ := Replica.bootstrap_ok hcreated.bootstrapped hstart
  have hfirst : (life.state 0).quorum = r.quorum := hquorum
  have hfirst' : (life.state 0).peers.names = r.peers.names := hpeers
  obtain ⟨-, hquorum', hpeers'⟩ := (life.becomes (Nat.zero_le k)).sameMember
  rw [hquorum', hpeers', hfirst, hfirst', hcreated.quorum]

/-- Every entry carries the index at which it stands, whatever has been merged. -/
theorem indexed (k : Nat) : (life.state k).log.Indexed := by
  apply (life.becomes (Nat.zero_le k)).indexed
  rw [life.fresh.log]
  exact Log.indexed_empty

/-- At any two times of one term the votes that a replica has given are for one candidate. -/
theorem vote_unique {j k : Nat} (hterm : (life.state j).term = (life.state k).term)
    {candidate other : String} (hvote : (life.state j).votedFor = some candidate)
    (hvote' : (life.state k).votedFor = some other) : candidate = other :=
  Replica.vote_unique ((Nat.le_total j k).imp life.becomes life.becomes) hterm hvote hvote'

/-! ## Sample lives -/

/-- The only peer of the replica whose lives are samples. -/
def sampleRoster : Roster := Roster.ofPeers [⟨2, "b", "b:1", none⟩]

theorem boots_sample :
    (Replica.boot? "a" sampleRoster Options.default true).isSome = true := by
  decide +kernel

/-- The life in which `a`, with `b` as its only peer, handles the listed events and none of interest
from then on. -/
def sample (events : List Event) : Life where
  name := "a"
  roster := sampleRoster
  options := Options.default
  listening := true
  start := (Replica.boot? "a" sampleRoster Options.default true).get boots_sample
  boots := (Option.some_get boots_sample).symm
  event k := events.getD k .heartbeatTimeout

end Life

end RaftReplica
