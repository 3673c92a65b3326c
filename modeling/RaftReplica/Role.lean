/-!
# Roles

The stages of a replica's life and, once it serves, its part in the cluster. Each has a name and a
number.
-/

namespace RaftReplica

/-- What a replica is at a time. -/
inductive Role where
  | stopped
  | initialized
  | running
  | follower
  | candidate
  | leader
deriving DecidableEq, Inhabited, Repr

namespace Role

def name : Role → String
  | stopped => "stopped"
  | initialized => "initialized"
  | running => "running"
  | follower => "follower"
  | candidate => "candidate"
  | leader => "leader"

def code : Role → Nat
  | stopped => 0
  | initialized => 1
  | running => 2
  | follower => 3
  | candidate => 4
  | leader => 5

def ofCode? : Nat → Option Role
  | 0 => some stopped
  | 1 => some initialized
  | 2 => some running
  | 3 => some follower
  | 4 => some candidate
  | 5 => some leader
  | _ => none

/-- Whether a replica in this role takes part in the cluster. -/
def isServing : Role → Bool
  | follower | candidate | leader => true
  | stopped | initialized | running => false

theorem ofCode?_code (role : Role) : ofCode? role.code = some role := by
  cases role <;> rfl

end Role

/-- What the outside may know of a replica at a time. -/
structure Snapshot where
  role : Role
  term : Nat
  leader : Option String
deriving DecidableEq, Inhabited, Repr

/-- Before anything is published. -/
def Snapshot.initial : Snapshot := ⟨.stopped, 0, none⟩

end RaftReplica
