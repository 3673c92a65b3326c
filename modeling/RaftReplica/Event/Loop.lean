import RaftReplica.Event.Basic
import RaftReplica.Pipe

/-!
# Event loops

A loop takes events out of a pipe and has them handled one at a time, until the pipe ends, the
handler fails, or there is nothing to do for now. The aggregating loop delivers write-aheads that are
queued behind one another as one batch; the event that ends a batch is handled right after it, so
that the order is kept.

A handler works on a state of its own and on the pipe, into which it may put further events.
-/

namespace RaftReplica

/-- A handler's state together with the pipe that it is fed from. -/
structure Feed (σ : Type) where
  state : σ
  pipe : Pipe Event

/-- Handles one event, or fails. -/
abbrev Handler (σ ε : Type) := Feed σ → Event → Feed σ × Except ε Unit

namespace Loop

/-- Where a loop stands. -/
inductive Status (ε : Type) where
  /-- The pipe has ended. -/
  | closed
  /-- The pipe is empty but may yet be fed. -/
  | waiting
  | failed (error : ε)
  /-- There is more to do. -/
  | busy
deriving DecidableEq, Repr

variable {σ ε : Type}

/-- How far a batch may grow before it is delivered with the write-ahead that takes it further. -/
def maxAggregation : Nat := 512

/-- What is drained off a queue behind a write-ahead. -/
structure Drained where
  /-- The write-aheads, without the first. -/
  batch : List WriteAhead
  /-- The event that ended the batch. -/
  interruptedBy : Option Event
  rest : List Event

/-- Drains up to `room` write-aheads off a queue, and the event behind them if there is one before
the room is used up. -/
def drain : (room : Nat) → List Event → Drained
  | 0, queue => ⟨[], none, queue⟩
  | _ + 1, [] => ⟨[], none, []⟩
  | room + 1, .writeAhead write :: queue =>
    let drained := drain room queue
    { drained with batch := write :: drained.batch }
  | _ + 1, event :: queue => ⟨[], some event, queue⟩

/-- Has an event handled and says how the loop goes on. -/
def deliver (handler : Handler σ ε) (feed : Feed σ) (event : Event) : Feed σ × Status ε :=
  match handler feed event with
  | (feed, .ok ()) => (feed, .busy)
  | (feed, .error error) => (feed, .failed error)

/-- One round of the plain loop. -/
def plainStep (handler : Handler σ ε) (feed : Feed σ) : Feed σ × Status ε :=
  match feed.pipe.receive with
  | (.closed, _) => (feed, .closed)
  | (.pending, _) => (feed, .waiting)
  | (.item event, pipe) => deliver handler { feed with pipe } event

/-- One round of the aggregating loop. -/
def aggregatingStep (handler : Handler σ ε) (feed : Feed σ) : Feed σ × Status ε :=
  match feed.pipe.receive with
  | (.closed, _) => (feed, .closed)
  | (.pending, _) => (feed, .waiting)
  | (.item (.writeAhead write), pipe) =>
    let drained := drain maxAggregation pipe.queue
    let feed := { feed with pipe := { pipe with queue := drained.rest } }
    match deliver handler feed (Event.ofBatch (write :: drained.batch)) with
    | (feed, .busy) =>
      match drained.interruptedBy with
      | some event => deliver handler feed event
      | none => (feed, .busy)
    | ended => ended
  | (.item event, pipe) => deliver handler { feed with pipe } event

/-- One round of the loop of a kind. -/
def step (aggregate : Bool) (handler : Handler σ ε) (feed : Feed σ) : Feed σ × Status ε :=
  if aggregate then aggregatingStep handler feed else plainStep handler feed

/-- Runs up to that many rounds of a loop. -/
def run (aggregate : Bool) (handler : Handler σ ε) : (rounds : Nat) → Feed σ → Feed σ × Status ε
  | 0, feed => (feed, .busy)
  | rounds + 1, feed =>
    match step aggregate handler feed with
    | (feed, .busy) => run aggregate handler rounds feed
    | ended => ended

end Loop

end RaftReplica
