import RaftReplica.Event.Basic
import RaftReplica.Text.Hex

/-!
# Events in one line

The form in which an event is noted: its kind and what tells it from others of the kind, which is the
data to write, or the term and the name in a message.
-/

namespace RaftReplica.Event

/-- How many write-aheads of a batch are noted one by one. -/
def maxNoted : Nat := 16

/-- The data of a batch; of a long one, the first and the last. -/
def summarizeBatch (batch : List WriteAhead) : String :=
  let data := batch.map fun write => write.data.toHex
  let first := (data.head?).getD ""
  let last := (data.getLast?).getD ""
  if batch.length ≤ maxNoted then ",".intercalate data else s!"{first}..{last}"

/-- The event in one line. -/
def summary (event : Event) : String :=
  let kind := event.kind.name
  match event with
  | error message => s!"{kind}:{message}"
  | writeAhead write => s!"{kind}:{write.data.toHex}"
  | aggregatedWriteAhead batch => s!"{kind}[{batch.length}]:{summarizeBatch batch}"
  | heartbeatTimeout | electionTimeout => kind
  | voteRequest request _ => s!"{kind}:{request.term}:{request.candidate}"
  | voteReply reply => s!"{kind}:{reply.term}:{reply.remote}"
  | appendRequest request _ => s!"{kind}:{request.term}:{request.leader}"
  | appendReply reply => s!"{kind}:{reply.term}:{reply.remote}"

end RaftReplica.Event
