import RaftReplica.Replica.Effects

/-!
# Clusters

A cluster is a set of replicas and what is on its way between them. A replica acts on an event of its
own or on a parcel that reaches it; what it then sends joins the parcels under way, and the answer to a
request is sent back. Between two replicas parcels are kept in the order in which they were sent.

Whoever drives the cluster chooses what is delivered, lost or doubled, and which replicas are cut off.
-/

namespace RaftReplica

/-- What replicas send one another. -/
inductive Content where
  | request (request : Request)
  | reply (reply : Reply)
deriving DecidableEq, Repr

/-- A message on its way. -/
structure Parcel where
  source : String
  target : String
  content : Content
deriving DecidableEq, Repr

/-- A replica with everything it has put on its commit stream, oldest first. -/
structure Member where
  replica : Replica
  stream : List LogEntry

/-- Replicas, by name, and the parcels between them, oldest first. -/
structure Cluster where
  members : Std.TreeMap String Member compare
  transit : List Parcel
  /-- The replicas that nothing is sent to or from. -/
  isolated : List String

namespace Parcel

/-- The event that a parcel is for its target. -/
def event (parcel : Parcel) (ticket : Ticket) : Event :=
  match parcel.content with
  | .request request => Event.ofRequest ticket request
  | .reply reply => Event.ofReply reply

/-- Whether the parcel goes from one replica to another. -/
def isOn (parcel : Parcel) (source target : String) : Bool :=
  parcel.source = source && parcel.target = target

def touches (parcel : Parcel) (name : String) : Bool :=
  parcel.source = name || parcel.target = name

/-- The order of senders and, for one sender, of receivers. -/
def linkLe (a b : Parcel) : Bool := (compareLex (compareOn (·.source)) (compareOn (·.target)) a b).isLE

end Parcel

namespace Cluster

/-- A replica for every peer of a roster, all of them started. -/
def create (roster : Roster) (options : Options) : Except ReplicaError Cluster := do
  let members ← roster.names.mapM fun name => do
    let replica ← Replica.create name roster options
    match replica.bootstrap with
    | (t, .ok ()) => return (name, Member.mk t.replica t.committed)
    | (_, .error error) => .error error
  return ⟨Std.TreeMap.ofList members compare, [], []⟩

def replica? (c : Cluster) (name : String) : Option Replica := c.members[name]?.map (·.replica)

/-- Sends parcels, but none from or to a replica that is cut off. -/
def send (c : Cluster) (parcels : List Parcel) : Cluster :=
  let pass := parcels.filter fun parcel => !c.isolated.any parcel.touches
  { c with transit := c.transit ++ pass }

/-- The requests that a turn of a replica sends. -/
def requestsOf (name : String) (t : Turn) : List Parcel :=
  t.sent.map fun (seat, request) => ⟨name, seat.peer.name, .request request⟩

/-- Lets a replica act on an event. Without a replica of that name nothing happens. -/
def act (c : Cluster) (name : String) (event : Event) : Cluster × Option Outcome :=
  match c.members[name]? with
  | none => (c, none)
  | some member =>
    let (t, result) := member.replica.handle event
    let members := c.members.insert name ⟨t.replica, member.stream ++ t.committed⟩
    ({ c with members }.send (requestsOf name t), some (t, result))

/-- The ticket of whoever delivers a parcel. -/
def deliveryTicket : Ticket := 0

/-- Hands a parcel over, and sends back the answer that its target gives. -/
def handOver (c : Cluster) (parcel : Parcel) : Cluster :=
  match c.act parcel.target (parcel.event deliveryTicket) with
  | (c, none) => c
  | (c, some (t, _)) =>
    let reply := (t.answerTo? deliveryTicket).bind Answer.reply?
    c.send (reply.toList.map fun reply => ⟨parcel.target, parcel.source, .reply reply⟩)

/-- The oldest parcel from one replica to another. -/
def oldest? (c : Cluster) (source target : String) : Option Parcel :=
  c.transit.find? (·.isOn source target)

/-- Loses the oldest parcel from one replica to another. -/
def drop (c : Cluster) (source target : String) : Cluster :=
  { c with transit := c.transit.eraseP (·.isOn source target) }

/-- Delivers the oldest parcel from one replica to another. -/
def deliver (c : Cluster) (source target : String) : Cluster :=
  match c.oldest? source target with
  | none => c
  | some parcel => (c.drop source target).handOver parcel

/-- Sends a copy of the oldest parcel from one replica to another behind all others. -/
def duplicate (c : Cluster) (source target : String) : Cluster :=
  { c with transit := c.transit ++ (c.oldest? source target).toList }

/-- Cuts a replica off, and loses all that is on its way from or to it. -/
def isolate (c : Cluster) (name : String) : Cluster :=
  { c with transit := c.transit.filter (!·.touches name), isolated := name :: c.isolated }

/-- Ends the isolation of a replica. -/
def heal (c : Cluster) (name : String) : Cluster :=
  { c with isolated := c.isolated.filter (· != name) }

/-- The parcel that is first by sender and receiver, and the oldest of those. -/
def first? (c : Cluster) : Option Parcel := (c.transit.mergeSort Parcel.linkLe).head?

/-- Delivers the parcels that are first, up to that many, and tells how many there were. -/
def flush : (limit : Nat) → Cluster → Nat × Cluster
  | 0, c => (0, c)
  | limit + 1, c =>
    match c.first? with
    | none => (0, c)
    | some parcel =>
      let (count, c) := flush limit (c.deliver parcel.source parcel.target)
      (count + 1, c)

/-- The pairs of replicas with something on its way, in order, and how much that is. -/
def queued (c : Cluster) : List (String × String × Nat) :=
  (c.transit.mergeSort Parcel.linkLe).foldr (fun parcel links =>
    match links with
    | (source, target, count) :: rest =>
      if parcel.isOn source target then (source, target, count + 1) :: rest
      else (parcel.source, parcel.target, 1) :: links
    | [] => [(parcel.source, parcel.target, 1)]) []

end Cluster

end RaftReplica
