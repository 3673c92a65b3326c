import RaftReplica.Event.Loop

/-!
# What a loop takes out of its pipe

In a round the plain loop takes one event.  The aggregating loop takes all write-aheads that it can make one
batch of, and the event behind them if the batch is not full by then.  What is taken depends on the queue
alone, and not on who handles it.

* `Event.expand` takes a batch apart into its write-aheads.
* `Drains` says what is drained off a queue, and `drains_drain` that `drain` does that.
* `Portion` is what a round takes off a queue, and `step_eq` reads a round as the delivery of a portion.
* `portion_spec` says which events a portion stands for.
-/

namespace RaftReplica

namespace Event

/-- What an event stands for: a batch for its write-aheads, anything else for itself. -/
def expand : Event → List Event
  | aggregatedWriteAhead batch => batch.map writeAhead
  | event => [event]

@[simp] theorem expand_writeAhead (write : WriteAhead) : (writeAhead write).expand = [writeAhead write] := rfl

/-- The events with all batches taken apart. -/
def expandAll (events : List Event) : List Event := events.flatMap expand

/-- An event ends a batch unless it is a write-ahead by itself. -/
def Interrupts (event : Event) : Prop := ∀ write, event ≠ writeAhead write

theorem interrupts_or (event : Event) : event.Interrupts ∨ ∃ write, event = writeAhead write := by
  cases event with
  | writeAhead write => exact Or.inr ⟨write, rfl⟩
  | error | aggregatedWriteAhead | heartbeatTimeout | electionTimeout | voteRequest | voteReply
    | appendRequest | appendReply => exact Or.inl fun _ h => by cases h

@[simp] theorem expandAll_nil : expandAll [] = [] := rfl

@[simp] theorem expandAll_cons (event : Event) (events : List Event) :
    expandAll (event :: events) = event.expand ++ expandAll events := rfl

@[simp] theorem expandAll_append (events others : List Event) :
    expandAll (events ++ others) = expandAll events ++ expandAll others :=
  List.flatMap_append

@[simp] theorem expandAll_map_writeAhead (batch : List WriteAhead) :
    expandAll (batch.map writeAhead) = batch.map writeAhead := by
  induction batch with
  | nil => rfl
  | cons write rest ih => rw [List.map_cons, expandAll_cons, ih]; rfl

/-- What is delivered of a batch stands for the write-aheads of the batch. -/
@[simp] theorem expand_ofBatch (batch : List WriteAhead) :
    (ofBatch batch).expand = batch.map writeAhead := by
  match batch with
  | [] => rfl
  | [_] => rfl
  | _ :: _ :: _ => rfl

end Event

/-- The feed with so much left in the queue. -/
def Feed.leaving {σ : Type} (feed : Feed σ) (rest : List Event) : Feed σ :=
  { feed with pipe := { feed.pipe with queue := rest } }

@[simp] theorem Feed.state_leaving {σ : Type} (feed : Feed σ) (rest : List Event) :
    (feed.leaving rest).state = feed.state := rfl

@[simp] theorem Feed.queue_leaving {σ : Type} (feed : Feed σ) (rest : List Event) :
    (feed.leaving rest).pipe.queue = rest := rfl

namespace Loop

variable {σ ε : Type} {handler : Handler σ ε} {feed : Feed σ} {event : Event} {queue : List Event}

/-! ## Batches -/

/-- What is drained off a queue for a batch with so much room: write-aheads, as many as there are or as
have room, and the event behind them if there is room left. -/
structure Drains (room : Nat) (queue : List Event) (drained : Drained) : Prop where
  all : queue = drained.batch.map .writeAhead ++ drained.interruptedBy.toList ++ drained.rest
  fits : drained.batch.length ≤ room
  interrupted : ∀ event, drained.interruptedBy = some event →
    event.Interrupts ∧ drained.batch.length < room
  full : drained.interruptedBy = none → drained.batch.length = room ∨ drained.rest = []

theorem drains_drain (room : Nat) (queue : List Event) : Drains room queue (drain room queue) := by
  fun_induction drain room queue with
  | case1 queue => exact ⟨rfl, Nat.le_refl _, fun _ h => (by cases h), fun _ => Or.inl rfl⟩
  | case2 room => exact ⟨rfl, Nat.zero_le _, fun _ h => (by cases h), fun _ => Or.inr rfl⟩
  | case3 room write queue drained ih =>
    obtain ⟨hall, hfits, hinterrupted, hfull⟩ := ih
    refine ⟨?_, Nat.succ_le_succ hfits, ?_, ?_⟩
    · rw [List.map_cons, List.cons_append, List.cons_append, ← hall]
    · intro event hevent
      exact ⟨(hinterrupted event hevent).1, Nat.succ_lt_succ (hinterrupted event hevent).2⟩
    · intro hnone
      exact (hfull hnone).imp_left (congrArg (· + 1))
  | case4 room event queue hevent =>
    refine ⟨rfl, Nat.zero_le _, ?_, fun h => by cases h⟩
    intro other hother
    cases hother
    exact ⟨hevent, Nat.succ_pos room⟩

/-! ## Portions -/

/-- What a round takes off a queue. -/
structure Portion where
  /-- What is handled first. -/
  first : Event
  /-- What is handled right after that, if the loop does not end with it. -/
  next : Option Event
  rest : List Event

/-- The events of a portion in the order in which they are handled. -/
def Portion.events (portion : Portion) : List Event := portion.first :: portion.next.toList

/-- What a round takes off a queue, if there is anything. -/
def portion? (aggregate : Bool) : List Event → Option Portion
  | [] => none
  | .writeAhead write :: queue =>
    if aggregate then
      let drained := drain maxAggregation queue
      some ⟨Event.ofBatch (write :: drained.batch), drained.interruptedBy, drained.rest⟩
    else some ⟨.writeAhead write, none, queue⟩
  | event :: queue => some ⟨event, none, queue⟩

/-- Has events handled one after the other, up to one with which the loop ends. -/
def deliverAll (handler : Handler σ ε) (feed : Feed σ) : List Event → Feed σ × Status ε
  | [] => (feed, .busy)
  | event :: events =>
    match deliver handler feed event with
    | (feed, .busy) => deliverAll handler feed events
    | ended => ended

theorem portion?_of_interrupts (aggregate : Bool) (hevent : event.Interrupts) :
    portion? aggregate (event :: queue) = some ⟨event, none, queue⟩ := by
  cases event with
  | writeAhead write => exact absurd rfl (hevent write)
  | error | aggregatedWriteAhead | heartbeatTimeout | electionTimeout | voteRequest | voteReply
    | appendRequest | appendReply => rfl

theorem portion?_eq_none_iff {aggregate : Bool} : portion? aggregate queue = none ↔ queue = [] := by
  fun_cases portion? aggregate queue <;> simp

theorem deliver_of_ok (h : (handler feed event).2 = .ok ()) :
    deliver handler feed event = ((handler feed event).1, .busy) := by
  rw [deliver, ← Prod.eta (handler feed event), h]

theorem deliverAll_singleton (handler : Handler σ ε) (feed : Feed σ) (event : Event) :
    deliverAll handler feed [event] = deliver handler feed event := by
  unfold deliverAll deliver
  cases handler feed event with
  | mk feed result => cases result <;> rfl

/-- Goes on from where a loop stands, unless it has ended or waits. -/
def andThen (goOn : Feed σ → Feed σ × Status ε) : Feed σ × Status ε → Feed σ × Status ε
  | (feed, .busy) => goOn feed
  | ended => ended

theorem run_succ (aggregate : Bool) (handler : Handler σ ε) (rounds : Nat) (feed : Feed σ) :
    run aggregate handler (rounds + 1) feed =
      andThen (run aggregate handler rounds) (step aggregate handler feed) := rfl

/-- A round has a portion of the queue handled.  Where there is none, the loop waits, or ends with its
pipe. -/
theorem step_eq (aggregate : Bool) (handler : Handler σ ε) (feed : Feed σ) :
    step aggregate handler feed =
      match portion? aggregate feed.pipe.queue with
      | none => (feed, if feed.pipe.isOver then .closed else .waiting)
      | some portion =>
        deliverAll handler (feed.leaving portion.rest) portion.events := by
  cases hqueue : feed.pipe.queue with
  | nil =>
    have hreceive : feed.pipe.receive =
        (if feed.pipe.isOver then .closed else .pending, feed.pipe) := by
      simp [Pipe.receive, hqueue]
    cases hover : feed.pipe.isOver <;>
      cases aggregate <;> simp [step, plainStep, aggregatingStep, hreceive, hover, portion?]
  | cons event queue =>
    have hreceive : feed.pipe.receive = (.item event, { feed.pipe with queue }) := by
      simp [Pipe.receive, hqueue]
    -- a write-ahead is taken together with its batch, but only if the loop aggregates
    cases event with
    | writeAhead write =>
      cases aggregate with
      | false =>
        simp only [step, plainStep, hreceive, Bool.false_eq_true, if_false, portion?,
          Portion.events, Option.toList_none, deliverAll_singleton, Feed.leaving]
      | true =>
        simp only [step, aggregatingStep, hreceive, if_true, portion?, Portion.events,
          Feed.leaving]
        rw [deliverAll]
        cases (drain maxAggregation queue).interruptedBy with
        | none => rfl
        | some event =>
          -- behind the batch the event is delivered only if the loop goes on
          cases deliver handler { feed with pipe := _ } _ with
          | mk feed status =>
            cases status with
            | busy => exact (deliverAll_singleton handler feed event).symm
            | closed | waiting | failed => rfl
    | error | aggregatedWriteAhead | heartbeatTimeout | electionTimeout | voteRequest | voteReply
      | appendRequest | appendReply =>
      cases aggregate <;>
        simp only [step, plainStep, aggregatingStep, hreceive, Bool.false_eq_true, if_false, if_true,
          portion?, Portion.events, Option.toList_none, deliverAll_singleton, Feed.leaving]

/-- A portion is an event by itself, or write-aheads that make up one batch and perhaps the event behind
them.  That event is taken only if the batch is not full. -/
theorem portion_cases {aggregate : Bool} {portion : Portion}
    (h : portion? aggregate queue = some portion) :
    (portion.next = none ∧ queue = portion.first :: portion.rest) ∨
    ∃ batch, aggregate = true ∧ batch ≠ [] ∧ portion.first = .ofBatch batch ∧
      queue = batch.map .writeAhead ++ portion.next.toList ++ portion.rest ∧
      ∀ event, portion.next = some event → event.Interrupts ∧ batch.length ≤ maxAggregation := by
  match queue with
  | [] => cases h
  | event :: queue =>
    obtain hevent | ⟨write, rfl⟩ := event.interrupts_or
    · rw [portion?_of_interrupts aggregate hevent] at h
      cases h
      exact Or.inl ⟨rfl, rfl⟩
    · cases aggregate with
      | false =>
        cases h
        exact Or.inl ⟨rfl, rfl⟩
      | true =>
        cases h
        have hdrain := drains_drain maxAggregation queue
        refine Or.inr ⟨write :: (drain maxAggregation queue).batch, rfl, by simp, rfl, ?_, ?_⟩
        · rw [List.map_cons, List.cons_append, List.cons_append, ← hdrain.all]
        · intro event hevent
          exact hdrain.interrupted event hevent

/-- A portion is taken off the front of the queue, and what is handled of it stands for what was taken. -/
theorem portion_spec {aggregate : Bool} {portion : Portion}
    (h : portion? aggregate queue = some portion) :
    ∃ taken, taken ≠ [] ∧ queue = taken ++ portion.rest ∧
      Event.expandAll taken = Event.expandAll portion.events := by
  obtain ⟨hnext, hqueue⟩ | ⟨batch, -, hbatch, hfirst, hqueue, -⟩ := portion_cases h
  · refine ⟨[portion.first], by simp, hqueue, ?_⟩
    rw [Portion.events, hnext]
    rfl
  · refine ⟨batch.map .writeAhead ++ portion.next.toList, by simp [hbatch], hqueue, ?_⟩
    rw [Portion.events, hfirst]
    simp

end Loop

end RaftReplica
