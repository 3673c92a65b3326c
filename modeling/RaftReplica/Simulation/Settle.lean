import RaftReplica.Simulation.Basic

/-!
# Settling

At one point in time a simulation goes through rounds: timers tick, calls that are due end, events
enter the pipes, and the replicas handle them and have their effects carried out. It has settled when
a round brings nothing. Between two such points nothing happens, so that the clock can jump.
-/

namespace RaftReplica.Simulation

/-- What has become of a call. -/
inductive CallState where
  | underWay
  | failed
  | succeeded (reply : Reply)

/-- How a call stands now. One that is due at its deadline has failed. -/
def stateOf (sim : Simulation) (call : OpenCall) : CallState :=
  match call.awaited with
  | .answer ticket =>
    match (sim.answers[ticket]?).bind Answer.reply? with
    | some reply => if call.deadline ≤ sim.now then .failed else .succeeded reply
    | none => if call.deadline ≤ sim.now then .failed else .underWay
  | .response response =>
    if call.deadline ≤ response.time then
      if call.deadline ≤ sim.now then .failed else .underWay
    else if response.time ≤ sim.now then
      match response.result with
      | .ok reply => .succeeded reply
      | .error _ => .failed
    else .underWay

/-- Goes through calls and keeps those that are still under way. The replies of the others go to
their callers. -/
def endCalls (sim : Simulation) : List OpenCall → Simulation × Bool
  | [] => (sim, false)
  | call :: rest =>
    match sim.stateOf call with
    | .underWay => endCalls { sim with calls := sim.calls ++ [call] } rest
    | .failed => ((endCalls sim rest).1, true)
    | .succeeded reply =>
      let delivery : Delivery := ⟨call.caller, .event (Event.ofReply reply), some call.broadcast⟩
      let sim := { sim with deliveries := sim.deliveries ++ [delivery] }
      ((endCalls sim rest).1, true)

/-- Gives a delivery its room in the pipe, if there is any. One whose pipe is closed or held by nobody
is lost. -/
def admit? (sim : Simulation) (delivery : Delivery) : Option Simulation :=
  match sim.node? delivery.target with
  | none => some sim
  | some node =>
    let pipe := node.served.pipe
    match delivery.load with
    | .event event =>
      match pipe.tryWeakSend event with
      | .ok pipe => some (sim.setNode delivery.target (node.mapPipe fun _ => pipe))
      | .error .full => none
      | .error .closed => some sim
    | .slot =>
      if pipe.closed then some sim
      else if pipe.isFull then none
      else some (sim.setNode delivery.target { node.mapPipe Pipe.setAside with promised := true })

/-- Lets what stands in line have its room. -/
def serveLine (sim : Simulation) : List Delivery → Simulation × Bool
  | [] => (sim, false)
  | delivery :: rest =>
    match sim.admit? delivery with
    | some sim => ((serveLine sim rest).1, true)
    | none => serveLine { sim with line := sim.line ++ [delivery] } rest

/-- Whether a reply to the same broadcast stands in line already. -/
def isBehind (sim : Simulation) (delivery : Delivery) : Bool :=
  delivery.broadcast.isSome && sim.line.any (·.broadcast = delivery.broadcast)

/-- Lets deliveries try their pipes. One that finds no room gets in line. -/
def deliver (sim : Simulation) : List Delivery → Simulation × Bool
  | [] => (sim, false)
  | delivery :: rest =>
    if sim.isBehind delivery then
      deliver { sim with deliveries := sim.deliveries ++ [delivery] } rest
    else
      match sim.admit? delivery with
      | some sim => ((deliver sim rest).1, true)
      | none => deliver { sim with line := sim.line ++ [delivery] } rest

/-- Lets a replica run, and tells whether it did anything. -/
def runNode (sim : Simulation) (name : String) : Simulation × Bool :=
  match sim.node? name with
  | none => (sim, false)
  | some node =>
    let idle := node.served.pipe.queue.isEmpty && !node.served.pipe.isOver
    let (sim, acted) :=
      (sim.setNode name { node with served := node.served.work }).carryOutAll name
    let (sim, parted) := sim.part name
    (sim, acted || parted || (node.served.ended.isNone && !idle))

/-- Lets the replicas run one after the other. -/
def runNodes (sim : Simulation) : List String → Simulation × Bool
  | [] => (sim, false)
  | name :: rest =>
    let (sim, acted) := sim.runNode name
    let (sim, others) := runNodes sim rest
    (sim, acted || others)

/-- One round, and whether it brought anything. -/
def round (sim : Simulation) : Simulation × Bool :=
  let sim := { sim with nodes := sim.nodes.map fun _ (node : Node) => node.tick sim.now }
  let (sim, ended) := endCalls { sim with calls := [] } sim.calls
  let (sim, admitted) := serveLine { sim with line := [] } sim.line
  let (sim, delivered) := deliver { sim with deliveries := [] } sim.deliveries
  let (sim, acted) := sim.runNodes sim.nodes.keys
  (sim, ended || admitted || delivered || acted)

/-- Goes through that many rounds at most. -/
def settleWithin : (rounds : Nat) → Simulation → Simulation
  | 0, sim => sim
  | rounds + 1, sim =>
    match sim.round with
    | (sim, true) => settleWithin rounds sim
    | (sim, false) => sim

/-- More rounds than the traffic of one point in time takes. -/
def maxRounds : Nat := 10 ^ 5

/-- Lets everything happen that can happen now. -/
def settle (sim : Simulation) : Simulation := settleWithin maxRounds sim

/-! ## The clock -/

/-- When a call has to be looked at again. -/
def OpenCall.wakeTime (call : OpenCall) : Nat :=
  match call.awaited with
  | .answer _ => call.deadline
  | .response response => min call.deadline (Clock.wakeTime response.time)

/-- The times at which something is due. -/
def wakeTimes (sim : Simulation) : List Nat :=
  sim.calls.map OpenCall.wakeTime ++
    sim.nodes.values.flatMap fun node => node.timers.filterMap Timer.wakeTime?

/-- Moves the clock to the next time at which something is due, if that is not after `target`, and
lets it happen. -/
def wake? (sim : Simulation) (target : Nat) : Option Simulation :=
  match sim.wakeTimes.min? with
  | none => none
  | some time =>
    let time := max time (sim.now + Clock.millisecond)
    if time ≤ target then some { sim with now := time }.settle else none

/-- Moves the clock on through that many wakes at most, and at the end to `target`. -/
def advanceWithin : (wakes : Nat) → (target : Nat) → Simulation → Simulation
  | 0, target, sim => { sim with now := target }.settle
  | wakes + 1, target, sim =>
    match sim.wake? target with
    | some sim => advanceWithin wakes target sim
    | none => { sim with now := target }.settle

/-- Lets milliseconds pass. -/
def advance (sim : Simulation) (milliseconds : Nat) : Simulation :=
  advanceWithin (milliseconds + 1) (sim.now + milliseconds * Clock.millisecond) sim.settle

/-- What was last published by a replica. -/
def published? (sim : Simulation) (name : String) : Option Snapshot :=
  (sim.node? name).map (·.replica.published)

/-- Whether a replica will publish nothing more. -/
def hasEnded (sim : Simulation) (name : String) : Bool :=
  (sim.node? name).any (·.served.ended.isSome)

/-- Moves the clock on until a replica has published a role, and tells whether it has before
`target`. What happens at `target` itself comes too late, and for a replica that has ended there is
nothing to wait for. -/
def awaitWithin (name : String) (role : Role) :
    (wakes : Nat) → (target : Nat) → Simulation → Simulation × Option Snapshot
  | wakes, target, sim =>
    match (sim.published? name).filter (·.role = role), wakes with
    | some snapshot, _ => (sim, some snapshot)
    | none, 0 => ({ sim with now := target }.settle, none)
    | none, wakes + 1 =>
      if sim.hasEnded name then (sim, none)
      else
        match sim.wake? (target - 1) with
        | some sim => awaitWithin name role wakes target sim
        | none => ({ sim with now := target }.settle, none)

/-- Waits for a replica to publish a role, for less than some milliseconds unless it has. -/
def await (sim : Simulation) (name : String) (role : Role) (milliseconds : Nat) :
    Simulation × Option Snapshot :=
  awaitWithin name role (milliseconds + 1) (sim.now + milliseconds * Clock.millisecond) sim.settle

end RaftReplica.Simulation
