/-!
# Health

Three flags for an outside probe and the words they are reported in. Maintenance hides everything
else, and being unhealthy hides not being ready.
-/

namespace RaftReplica

/-- What a probe is told. -/
inductive Health where
  | ok
  | notReady
  | unhealthy
  | maintenance
deriving DecidableEq, Repr

def Health.name : Health → String
  | ok => "ok"
  | notReady => "not ready"
  | unhealthy => "unhealthy"
  | maintenance => "maintenance"

/-- The flags behind the reports; none is set at first. -/
structure HealthFlags where
  healthy : Bool
  ready : Bool
  maintenance : Bool
deriving DecidableEq, Repr

namespace HealthFlags

def initial : HealthFlags := ⟨false, false, false⟩

instance : Inhabited HealthFlags := ⟨initial⟩

def status (flags : HealthFlags) : Health :=
  if flags.maintenance then .maintenance
  else if !flags.healthy then .unhealthy
  else if !flags.ready then .notReady
  else .ok

/-- Whether the process is alive. -/
def liveness (flags : HealthFlags) : Health := if flags.healthy then .ok else .unhealthy

/-- Whether it takes requests. -/
def readiness (flags : HealthFlags) : Health := if flags.ready then .ok else .notReady

end HealthFlags

end RaftReplica
