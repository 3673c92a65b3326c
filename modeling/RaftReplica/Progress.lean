import Std.Data.TreeMap
import RaftReplica.Number.Word

/-!
# A leader's view of its peers

For each peer a leader remembers which entry to send next and up to where the peer's log is known to
match its own. The matches of all peers together say which entries a majority holds.
-/

namespace RaftReplica

/-- Where a peer stands. -/
structure PeerProgress where
  /-- The index of the next entry to send. -/
  next : Nat
  /-- The highest index known to match. -/
  matched : Nat
deriving DecidableEq, Inhabited, Repr

namespace PeerProgress

/-- A peer that is thought to have the leader's log, of which nothing is known yet. -/
def initial (lastIndex : Nat) : PeerProgress := ⟨saturatingSucc lastIndex, 0⟩

/-- The peer holds the leader's entries up to `index`. -/
def succeed (p : PeerProgress) (index : Nat) : PeerProgress :=
  let matched := max p.matched index
  ⟨max p.next (saturatingSucc matched), matched⟩

/-- The peer refused what was sent; its log ends at `lastIndex`. -/
def fail (p : PeerProgress) (lastIndex : Nat) : PeerProgress :=
  let next := min (p.next - 1) (saturatingSucc lastIndex)
  ⟨max (max next (saturatingSucc p.matched)) 1, p.matched⟩

end PeerProgress

/-- Where all the peers stand, by name. -/
structure Progress where
  peers : Std.TreeMap String PeerProgress compare

namespace Progress

/-- The start of a leader's term with its log at `lastIndex`. -/
def start (names : List String) (lastIndex : Nat) : Progress :=
  ⟨Std.TreeMap.ofList (names.map fun name => (name, PeerProgress.initial lastIndex)) compare⟩

def contains (progress : Progress) (peer : String) : Bool := progress.peers.contains peer

def get? (progress : Progress) (peer : String) : Option PeerProgress := progress.peers[peer]?

/-- The records in the order of names. -/
def records (progress : Progress) : List (String × PeerProgress) := progress.peers.toList

/-- Notes a success of a known peer. -/
def succeed (progress : Progress) (peer : String) (index : Nat) : Progress :=
  ⟨progress.peers.modify peer (·.succeed index)⟩

/-- Notes a failure of a known peer. -/
def fail (progress : Progress) (peer : String) (lastIndex : Nat) : Progress :=
  ⟨progress.peers.modify peer (·.fail lastIndex)⟩

/-- Adds a name to the group of peers that wait for `next`. -/
def joinGroup (next : Nat) (name : String) :
    List (Nat × List String) → List (Nat × List String)
  | [] => [(next, [name])]
  | (n, names) :: groups =>
    if n = next then (n, names ++ [name]) :: groups
    else (n, names) :: joinGroup next name groups

/-- The names that wait for each index, where each is first met in the records. -/
def groupsOf (records : List (String × PeerProgress)) : List (Nat × List String) :=
  records.foldl (fun groups (name, p) => joinGroup p.next name groups) []

/-- The names that wait for each index, by index and name. -/
def groups (progress : Progress) : List (Nat × List String) :=
  (groupsOf progress.records).mergeSort fun a b => a.1 ≤ b.1

/-- What every peer has matched. -/
def matched (progress : Progress) : List Nat := progress.records.map (·.2.matched)

end Progress

/-- The highest index that a majority of the cluster holds, given what every peer of the leader has
matched. The leader's own log reaches further than any match, so that half the peers are enough;
`none` without peers. -/
def clusterCommitIndex (matched : List Nat) : Option Nat :=
  (matched.mergeSort fun a b => a ≤ b)[matched.length / 2]?

end RaftReplica
