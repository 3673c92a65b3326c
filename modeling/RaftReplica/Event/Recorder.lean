import RaftReplica.Event.Loop

/-!
# A recording handler

A handler for trying out a loop. It notes every event, answers every write-ahead with the next place
of an imagined log, feeds further events into the pipe when it is told to, and fails where it is told
to. While it has something left to feed, it keeps the pipe open.
-/

namespace RaftReplica

/-- What a recorder is told to do. -/
structure Script where
  /-- The delivery that it refuses; deliveries are counted from one. -/
  refusal : Nat
  /-- What it feeds into the pipe, and during which delivery. -/
  feeds : List (Nat × List Event)
  /-- Whether somebody else keeps the pipe open. -/
  keepsOpen : Bool

/-- What a recorder has seen and done. -/
structure Recorder where
  deliveries : Nat
  /-- How many write-aheads it has answered. -/
  writes : Nat
  /-- The events it was handed, and those that the pipe did not take. -/
  notes : List (Event ⊕ PipeError)
  answers : List (Ticket × Answer)
  /-- The events that went to the pipe, taken or not. -/
  sent : List Event

namespace Recorder

def start : Recorder := ⟨0, 0, [], [], []⟩

/-- The term of the places that a recorder gives out. -/
def receiptTerm : Nat := 7

/-- Offers an event to the pipe and notes a refusal. -/
def offer (feed : Feed Recorder) (event : Event) : Feed Recorder :=
  let r := { feed.state with sent := feed.state.sent ++ [event] }
  match feed.pipe.trySend event with
  | .ok pipe => ⟨r, pipe⟩
  | .error error => ⟨{ r with notes := r.notes ++ [.inr error] }, feed.pipe⟩

/-- The pipe's senders while the recorder may have something left to feed. -/
def holdPipe (script : Script) (feed : Feed Recorder) : Feed Recorder :=
  let holds := script.feeds.any fun (delivery, _) => feed.state.deliveries < delivery
  { feed with pipe := { feed.pipe with senders := script.keepsOpen.toNat + holds.toNat } }

/-- Answers a write-ahead with the next place. -/
def respond (r : Recorder) (write : WriteAhead) : Recorder :=
  let place := r.writes + 1
  let answers := write.ticket.toList.map fun ticket => (ticket, Answer.receipt receiptTerm place)
  { r with writes := place, answers := r.answers ++ answers }

/-- The handler of a script. -/
def handler (script : Script) : Handler Recorder String := fun feed event =>
  let r := { feed.state with
    deliveries := feed.state.deliveries + 1
    notes := feed.state.notes ++ [.inl event] }
  let feed := holdPipe script { feed with state := r }
  if r.deliveries = script.refusal then (feed, .error s!"refused event {r.deliveries}")
  else
    let fed := (script.feeds.filter fun (delivery, _) => delivery = r.deliveries).flatMap (·.2)
    let feed := fed.foldl offer feed
    match event with
    | .error message => (feed, .error message)
    | _ => ({ feed with state := event.writes.foldl respond feed.state }, .ok ())

/-- Fills a pipe with events and has a loop run over it for as long as there is something to do. -/
def run (aggregate : Bool) (script : Script) (pipe : Pipe Event) (events : List Event) :
    Feed Recorder × Loop.Status String :=
  let feed := events.foldl offer ⟨start, pipe⟩
  let rounds := events.length + (script.feeds.flatMap (·.2)).length + 1
  Loop.run aggregate (handler script) rounds (holdPipe script feed)

end Recorder

end RaftReplica
