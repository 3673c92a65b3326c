import RaftReplica.Simulation.Settle

/-!
# Driving a simulation

How somebody outside drives the replicas of a simulation: through the handle that serving a replica
gives, and through one more sender of its pipe. A replica that both are gone of ends as soon as no other
replica is connected to it.
-/

namespace RaftReplica

/-- What comes of something that is done through a handle. -/
inductive Driven (α : Type) where
  | done (result : α)
  /-- There is no handle any more. -/
  | gone

namespace Simulation

/-- A peer of a simulation: a replica with its options, or a remote. -/
structure Entrant where
  peer : Peer
  options : Options

/-- Serves a replica and keeps a sender of its pipe. What it publishes on the way is nobody's news. -/
def enter (sim : Simulation) (roster : Roster) (entrant : Entrant) :
    Except ReplicaError Simulation := do
  let replica ← Replica.create entrant.peer.name roster entrant.options
  let served := replica.serve
  match served.ended with
  | some (.error error) => .error error
  | _ =>
    let node := Node.ofServed { served with pipe := served.pipe.addSender }
    let (sim, _) := (sim.setNode replica.name node).carryOutAll replica.name
    return sim.change replica.name fun node => { node with changed := false }

/-- Serves replicas that all have one another and the remotes in their rosters, and connects them. -/
def create (entrants : List Entrant) (remotes : List (Peer × Remote)) :
    Except ReplicaError Simulation := do
  let roster := Roster.ofPeers (entrants.map (·.peer) ++ remotes.map (·.1))
  let sim ← entrants.foldlM (fun sim entrant => sim.enter roster entrant) (start (remotes.map (·.2)))
  return sim.nodes.keys.foldl join sim

/-- Takes tickets that are not in use. -/
def reserve (sim : Simulation) (count : Nat) : Ticket × Simulation :=
  (sim.ticket, { sim with ticket := sim.ticket + count })

/-- Puts an event into a replica's pipe, if there is room. -/
def trySend (sim : Simulation) (name : String) (event : Event) : Except PipeError Simulation :=
  match sim.node? name with
  | none => .error .closed
  | some node => (node.served.pipe.trySend event).map fun pipe =>
      sim.setNode name (node.mapPipe fun _ => pipe)

/-- Fills the slot that is set aside in a replica's pipe, if there is one, and tells whether the pipe
took the event. -/
def fillSlot (sim : Simulation) (name : String) (event : Event) : Simulation × Bool :=
  match (sim.node? name).filter (·.promised) with
  | none => (sim, false)
  | some node =>
    let sim := sim.setNode name { node.mapPipe Pipe.giveBack with promised := false }
    match sim.trySend name event with
    | .ok sim => (sim, true)
    | .error _ => (sim, false)

/-- Puts an event into a replica's pipe, once there is room, and tells whether the pipe took it.
Whoever drives a replica acts only when nothing else can happen: until then a slot that it has stood in
line for stays empty. -/
def send (sim : Simulation) (name : String) (event : Event) : Simulation × Bool :=
  match sim.trySend name event with
  | .ok sim => (sim, true)
  | .error .closed => (sim, false)
  | .error .full =>
    let place : Delivery := ⟨name, .slot, none⟩
    { sim with line := sim.line ++ [place] }.settle.fillSlot name event

/-- Sends events one behind the other and tells of each whether the pipe took it. -/
def sendAll (sim : Simulation) (name : String) : List Event → Simulation × List Bool
  | [] => (sim, [])
  | event :: rest =>
    let (sim, sent) := sim.send name event
    let (sim, others) := sendAll sim name rest
    (sim, sent :: others)

/-- Whether somebody holds a replica's handle. -/
def hasHandle (sim : Simulation) (name : String) : Bool := (sim.node? name).any (·.handle)

/-- Gives up a replica's handle, which holds a sender. -/
def dropHandle (sim : Simulation) (name : String) : Simulation :=
  sim.change name fun node =>
    if node.handle then { node.mapPipe Pipe.dropSender with handle := false } else node

/-- Gives up the other sender of a replica's pipe. -/
def dropSender (sim : Simulation) (name : String) : Simulation :=
  sim.change name fun node =>
    if node.sender then { node.mapPipe Pipe.dropSender with sender := false } else node

/-- What comes of an event that is sent to a replica. -/
inductive Dispatched where
  /-- It went through the handle. -/
  | throughHandle (result : Except ReplicaError Unit)
  /-- It went past the handle, which is gone, into the pipe. -/
  | sent
  /-- The pipe did not take it. -/
  | closed
  /-- There is nothing left to send it through. -/
  | gone

/-- What comes of an event that a node's pipe has taken or not. -/
def dispatched (node : Node) (taken : Bool) : Dispatched :=
  if node.handle then .throughHandle (if taken then .ok () else .error .notListening)
  else if taken then .sent
  else .closed

/-- Dispatches events, each through the handle or else through the other sender. -/
def dispatch (sim : Simulation) (name : String) (events : List Event) :
    Simulation × List Dispatched :=
  match (sim.node? name).filter fun node => node.handle || node.sender with
  | none => (sim.settle, events.map fun _ => .gone)
  | some node =>
    let (sim, taken) := sim.sendAll name events
    (sim.settle, taken.map (dispatched node))

/-- The place that was given to a write-ahead, or why there is none. -/
def receiptOf (answer : Option Answer) : Except WriteAheadError (Nat × Nat) :=
  match answer with
  | some (.receipt term index) => .ok (term, index)
  | some (.refusal error) => .error error
  | _ => .error .stopped

/-- Dispatches events and writes data behind them, through the handle, and waits for the receipt. -/
def write (sim : Simulation) (name : String) (before : List Event) (data : Bytes) :
    Simulation × Driven (Except WriteAheadError (Nat × Nat)) :=
  if sim.hasHandle name then
    let (ticket, sim) := sim.reserve 1
    let (sim, _) := sim.sendAll name (before ++ [.writeAhead ⟨data, some ticket⟩])
    let sim := sim.settle
    (sim, .done (receiptOf sim.answers[ticket]?))
  else (sim.settle, .gone)

/-- Shuts a replica down through its handle, which is gone then. -/
def shutDown (sim : Simulation) (name : String) :
    Simulation × Driven (Except ReplicaError Unit) :=
  match (sim.node? name).filter (·.handle) with
  | none => (sim.settle, .gone)
  | some node =>
    let (served, result) := node.served.shutDown
    let (sim, _) := ((sim.setNode name { node with served }).dropHandle name).carryOutAll name
    (sim.settle, .done result)

/-- Lets go of the handle and of the other sender. -/
def abandon (sim : Simulation) (name : String) : Simulation :=
  ((sim.dropHandle name).dropSender name).settle

/-- Cuts a name off. -/
def cutOff (sim : Simulation) (name : String) : Simulation :=
  { sim with cut := name :: sim.cut }.settle

/-- Ends the cut of a name. -/
def heal (sim : Simulation) (name : String) : Simulation :=
  { sim with cut := sim.cut.filter (· != name) }.settle

/-- Takes note of everything that came out of the replicas. -/
def look (sim : Simulation) : Simulation :=
  { sim with nodes := sim.nodes.map fun _ (node : Node) => { node with commits := [], changed := false } }

end Simulation

end RaftReplica
