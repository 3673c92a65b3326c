import RaftReplica.Failure

/-!
# Pipes

A pipe is a bounded queue with many senders and one receiver. It ends for the receiver once it is
empty and either the receiver closed it or no strong sender is left; weak senders do not keep it
open. A send that has to wait for room is not part of the pipe's state: it is tried again later or
given up.
-/

namespace RaftReplica

/-- What a receiver finds. -/
inductive Received (ε : Type) where
  | item (value : ε)
  /-- Nothing yet. -/
  | pending
  /-- Nothing any more. -/
  | closed
deriving DecidableEq, Repr

/-- Why a pipe takes no event. -/
inductive PipeError where
  | closed
  | full
deriving DecidableEq, Repr

def PipeError.message : PipeError → String
  | closed => "event pipe is closed"
  | full => "event pipe is full"

def PipeError.kind : PipeError → String
  | closed => "Closed"
  | full => "Full"

instance : Failure PipeError := ⟨PipeError.kind, PipeError.message⟩

/-- A bounded queue. -/
structure Pipe (ε : Type) where
  capacity : Nat
  queue : List ε
  /-- How many strong senders there are. -/
  senders : Nat
  /-- Whether the receiver takes nothing new. -/
  closed : Bool
deriving DecidableEq, Repr

namespace Pipe

variable {ε : Type}

/-- An empty pipe with one sender. -/
def ofCapacity (capacity : Nat) : Pipe ε := ⟨capacity, [], 1, false⟩

/-- An empty pipe with one sender. A pipe without room cannot be made. -/
def create? (capacity : Nat) : Option (Pipe ε) :=
  if capacity = 0 then none else some (ofCapacity capacity)

/-- What is said of a pipe without room. -/
def noRoomMessage : String := "mpsc bounded channel requires buffer > 0"

def isFull (pipe : Pipe ε) : Bool := pipe.capacity ≤ pipe.queue.length

/-- Puts an event into the pipe, if it can go in now. -/
def trySend (pipe : Pipe ε) (event : ε) : Except PipeError (Pipe ε) :=
  if pipe.closed then .error .closed
  else if pipe.isFull then .error .full
  else .ok { pipe with queue := pipe.queue ++ [event] }

/-- The same through a weak sender, which needs a strong one to be left. -/
def tryWeakSend (pipe : Pipe ε) (event : ε) : Except PipeError (Pipe ε) :=
  if pipe.senders = 0 then .error .closed else pipe.trySend event

/-- Sets a free slot aside for a sender that has waited for it. Until the slot is given back, the pipe
has that much less room. -/
def setAside (pipe : Pipe ε) : Pipe ε := { pipe with capacity := pipe.capacity - 1 }

/-- Gives back a slot that was set aside. -/
def giveBack (pipe : Pipe ε) : Pipe ε := { pipe with capacity := pipe.capacity + 1 }

/-- One more strong sender. -/
def addSender (pipe : Pipe ε) : Pipe ε := { pipe with senders := pipe.senders + 1 }

/-- One strong sender less. -/
def dropSender (pipe : Pipe ε) : Pipe ε := { pipe with senders := pipe.senders - 1 }

/-- A weak sender made strong, if a strong one is left. -/
def upgrade? (pipe : Pipe ε) : Option (Pipe ε) :=
  if pipe.senders = 0 then none else some pipe.addSender

/-- Lets the receiver refuse everything new. -/
def close (pipe : Pipe ε) : Pipe ε := { pipe with closed := true }

/-- Takes the receiver's end away, with everything in the pipe. -/
def discard (pipe : Pipe ε) : Pipe ε := { pipe with closed := true, queue := [] }

/-- Whether nothing more can come out of an empty pipe. -/
def isOver (pipe : Pipe ε) : Bool := pipe.closed || pipe.senders == 0

/-- Takes the oldest event. -/
def receive (pipe : Pipe ε) : Received ε × Pipe ε :=
  match pipe.queue with
  | event :: rest => (.item event, { pipe with queue := rest })
  | [] => (if pipe.isOver then .closed else .pending, pipe)

/-- Takes the oldest event, if there is one now. -/
def tryReceive (pipe : Pipe ε) : Option ε × Pipe ε :=
  match pipe.queue with
  | event :: rest => (some event, { pipe with queue := rest })
  | [] => (none, pipe)

/-! ## What the operations do to the queue -/

theorem queue_of_trySend {pipe taken : Pipe ε} {event : ε} (h : pipe.trySend event = .ok taken) :
    taken.queue = pipe.queue ++ [event] := by
  unfold trySend at h
  split at h
  · cases h
  · split at h
    · cases h
    · cases h; rfl

theorem trySend_eq_closed_iff (pipe : Pipe ε) (event : ε) :
    pipe.trySend event = .error .closed ↔ pipe.closed = true := by
  unfold trySend
  cases pipe.closed <;> simp
  split <;> simp

theorem trySend_eq_full_iff (pipe : Pipe ε) (event : ε) :
    pipe.trySend event = .error .full ↔
      pipe.closed = false ∧ pipe.capacity ≤ pipe.queue.length := by
  unfold trySend isFull
  cases pipe.closed <;> simp

theorem receive_eq_closed_iff (pipe : Pipe ε) :
    pipe.receive.1 = .closed ↔ pipe.queue = [] ∧ pipe.isOver = true := by
  unfold receive
  cases pipe.queue with
  | nil => cases pipe.isOver <;> simp
  | cons event rest => simp

@[simp] theorem queue_discard (pipe : Pipe ε) : pipe.discard.queue = [] := rfl

end Pipe

end RaftReplica
