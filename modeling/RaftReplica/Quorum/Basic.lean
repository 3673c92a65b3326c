import Std.Data.TreeSet
import RaftReplica.Sequence

/-!
# Quorums

A quorum is a set of hosts that decide together, under a number of its own. Hosts are named by
non-empty texts; a repeated name counts once, and the empty name for nobody.
-/

namespace RaftReplica

/-- A set of names in their order. -/
abbrev NameSet := Std.TreeSet String compare

/-- A numbered set of hosts. -/
structure Quorum where
  id : UInt64
  hosts : NameSet

namespace Quorum

/-- The set of the non-empty names of a list. -/
def hostSet (names : List String) : NameSet :=
  Std.TreeSet.ofList (names.filter fun name => name != "") compare

/-- The quorum of the listed hosts, under the next number of `ids`. -/
def form (ids : Sequence) (names : List String) : Quorum × Sequence :=
  let (id, ids) := ids.next
  (⟨id, hostSet names⟩, ids)

def size (q : Quorum) : Nat := q.hosts.size

def isEmpty (q : Quorum) : Bool := q.hosts.isEmpty

def contains (q : Quorum) (host : String) : Bool := q.hosts.contains host

/-- The hosts in order. -/
def names (q : Quorum) : List String := q.hosts.toList

/-- Whether every host of `a` is one of `b`. -/
def isSubset (a b : Quorum) : Bool := a.names.all b.contains

def isSuperset (a b : Quorum) : Bool := b.isSubset a

/-- Whether some host of `a` is one of `b`. -/
def intersects (a b : Quorum) : Bool := a.names.any b.contains

end Quorum

end RaftReplica
