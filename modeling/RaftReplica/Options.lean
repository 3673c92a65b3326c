import RaftReplica.Failure
import RaftReplica.Time.Interval

/-!
# Options of a replica

What a user may choose for a replica, the defaults for what is left out, and the checks that make a
choice usable: the shortest election timeout must be longer than the heartbeat and than the deadline
of a call, or followers would stand for election while their leader is alive.
-/

namespace RaftReplica

/-- How the connection to a peer is set up. -/
structure ConnectOptions where
  /-- The transport's own limit on a request. -/
  requestTimeout : Option Duration
  keepalive : Option Duration
  /-- The name that the peer's certificate has to show, or the empty name for the one in its
  address. Without one the connection is not secured. -/
  tls : Option String

def ConnectOptions.default : ConnectOptions where
  requestTimeout := some (Duration.ofSeconds 1)
  keepalive := none
  tls := none

/-- A user's choice; what is `none` takes its default. -/
structure Options where
  /-- How often a leader makes itself heard. -/
  heartbeat : Option Duration
  /-- The nominal election timeout. -/
  electionTimeout : Option Duration
  /-- How far election timeouts are spread around the nominal one. -/
  electionJitter : Option Float
  /-- The deadline of a call to a peer. -/
  rpcTimeout : Option Duration
  /-- Whether queued write-aheads share one round of replication. -/
  aggregate : Option Bool
  /-- The capacity of the event pipe. -/
  bufferSize : Option Nat
  /-- The seed of the election timeouts. -/
  seed : Option UInt64
  connect : Option ConnectOptions

def Options.default : Options := ⟨none, none, none, none, none, none, none, none⟩

/-- The capacity of an event pipe unless another is asked for. -/
def defaultBufferSize : Nat := 1024

/-- Why options are refused. -/
inductive OptionsError where
  | heartbeatZero
  | jitterOutOfRange
  | heartbeatTooLong
  | rpcTimeoutTooLong
  | noBuffer
  /-- The shortest election timeout does not fit a duration. -/
  | electionTimeoutTooLong
deriving DecidableEq, Repr

def OptionsError.message : OptionsError → String
  | heartbeatZero => "Heartbeat must be greater than zero"
  | jitterOutOfRange => "Election jitter must be 0 < f <= 1.0"
  | heartbeatTooLong => "Minimum election timeout must be greater than the heartbeat"
  | rpcTimeoutTooLong => "RPC timeout must be less than the minimum election timeout"
  | noBuffer => "Event buffer must hold at least one event"
  | electionTimeoutTooLong =>
    "cannot convert float seconds to Duration: value is either too big or NaN"

def OptionsError.kind : OptionsError → String
  | electionTimeoutTooLong => overflowKind
  | _ => "InvalidOptions"

instance : Failure OptionsError := ⟨OptionsError.kind, OptionsError.message⟩

/-- The values a replica runs with. -/
structure Settings where
  heartbeat : Duration
  electionTimeout : Duration
  electionJitter : Float
  rpcTimeout : Duration
  aggregate : Bool
  bufferSize : Nat
  seed : Option UInt64
  connect : ConnectOptions

namespace Settings

/-- The shortest election timeout, if a duration holds it. -/
def minElectionTimeout? (settings : Settings) : Option Duration :=
  settings.electionTimeout.scale? (1 - settings.electionJitter)

/-- The first thing that is wrong with the settings. -/
def problem? (settings : Settings) : Option OptionsError :=
  if settings.heartbeat = Duration.zero then some .heartbeatZero
  else if ¬(0 < settings.electionJitter ∧ settings.electionJitter ≤ 1) then some .jitterOutOfRange
  else
    match settings.minElectionTimeout? with
    | none => some .electionTimeoutTooLong
    | some shortest =>
      if shortest ≤ settings.heartbeat then some .heartbeatTooLong
      else if shortest ≤ settings.rpcTimeout then some .rpcTimeoutTooLong
      else if settings.bufferSize = 0 then some .noBuffer
      else none

/-- The options with the defaults filled in. -/
def ofOptions (options : Options) : Settings where
  heartbeat := options.heartbeat.getD (Duration.ofMilliseconds 100)
  electionTimeout := options.electionTimeout.getD (Duration.ofMilliseconds 1000)
  electionJitter := options.electionJitter.getD 0.5
  rpcTimeout := options.rpcTimeout.getD (Duration.ofMilliseconds 300)
  aggregate := options.aggregate.getD true
  bufferSize := options.bufferSize.getD defaultBufferSize
  seed := options.seed
  connect := options.connect.getD ConnectOptions.default

/-- The settings that options stand for, if they are usable. -/
def validate (options : Options) : Except OptionsError Settings :=
  let settings := ofOptions options
  match settings.problem? with
  | some problem => .error problem
  | none => .ok settings

variable {σ : Type}

/-- The delays between a leader's heartbeats. -/
def heartbeatInterval (settings : Settings) (source : σ) : Interval σ :=
  Interval.fixed settings.heartbeat source

/-- The delays after which an election is due. -/
def electionInterval (settings : Settings) (source : σ) : Interval σ :=
  match Interval.jitter settings.electionTimeout settings.electionJitter source with
  | .ok interval => interval
  | .error _ => Interval.fixed settings.electionTimeout source

end Settings

end RaftReplica
