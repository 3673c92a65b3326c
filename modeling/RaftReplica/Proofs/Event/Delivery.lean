import RaftReplica.Event.Recorder
import RaftReplica.Proofs.Event.Drain

/-!
# What becomes of the events in a pipe

A loop takes events out of its pipe in order and has them handled in that order.  Between taking and
handling it holds at most one event in its hand: the one behind a batch.

* `Handler.noting` notes what is handled and what the pipe has accepted; a run with it is the run without,
  `run_noting`.
* `Accounted` says that nothing got lost, doubled or out of order, `Handler.Appends.accounted_noting` that
  handling keeps it.
* `Report` says what a run leaves behind, and `report_run` that every run leaves that behind.
* `failing_run` reads off what becomes of the queue when the handler fails.
-/

namespace RaftReplica

variable {σ ε : Type}

/-! ## Taking notes -/

/-- A handler's state, with notes of what went through its hands. -/
structure Noted (σ ε : Type) where
  state : σ
  /-- What the handler was given, and how that ended. -/
  deliveries : List (Event × Except ε Unit)
  /-- All events that the pipe has accepted. -/
  accepted : List Event

namespace Noted

/-- The events that were handled, also those with which the handler failed. -/
def handled (noted : Noted σ ε) : List Event := noted.deliveries.map (·.1)

end Noted

/-- None of the deliveries was a failure. -/
def Unfailing (deliveries : List (Event × Except ε Unit)) : Prop :=
  ∀ delivery ∈ deliveries, delivery.2 = .ok ()

theorem Unfailing.concat {deliveries : List (Event × Except ε Unit)} (h : Unfailing deliveries)
    (event : Event) : Unfailing (deliveries ++ [(event, .ok ())]) := by
  intro delivery hdelivery
  obtain hdelivery | hdelivery := List.mem_append.mp hdelivery
  · exact h delivery hdelivery
  · rw [List.mem_singleton.mp hdelivery]

namespace Feed

/-- Starts taking notes, with the events that are in the pipe. -/
def noted (feed : Feed σ) : Feed (Noted σ ε) := ⟨⟨feed.state, [], feed.pipe.queue⟩, feed.pipe⟩

/-- The feed without the notes. -/
def plain (feed : Feed (Noted σ ε)) : Feed σ := ⟨feed.state.state, feed.pipe⟩

end Feed

namespace Handler

/-- The handler, with notes taken. -/
def noting (handler : Handler σ ε) : Handler (Noted σ ε) ε := fun feed event =>
  let (outcome, result) := handler feed.plain event
  let noted := ⟨outcome.state, feed.state.deliveries ++ [(event, result)],
    feed.state.accepted ++ outcome.pipe.queue.drop feed.pipe.queue.length⟩
  (⟨noted, outcome.pipe⟩, result)

/-- All that a handler does to the queue is to put events behind it. -/
def Appends (handler : Handler σ ε) : Prop :=
  ∀ feed event, feed.pipe.queue <+: (handler feed event).1.pipe.queue

theorem noting_plain (handler : Handler σ ε) (feed : Feed (Noted σ ε)) (event : Event) :
    handler feed.plain event =
      ((handler.noting feed event).1.plain, (handler.noting feed event).2) := rfl

theorem deliveries_noting (handler : Handler σ ε) (feed : Feed (Noted σ ε)) (event : Event) :
    (handler.noting feed event).1.state.deliveries =
      feed.state.deliveries ++ [(event, (handler.noting feed event).2)] := rfl

theorem handled_noting (handler : Handler σ ε) (feed : Feed (Noted σ ε)) (event : Event) :
    (handler.noting feed event).1.state.handled = feed.state.handled ++ [event] :=
  List.map_append

end Handler

namespace Loop

variable {handler : Handler σ ε} {feed : Feed (Noted σ ε)} {aggregate : Bool} {queue : List Event}

/-! ## Notes do not disturb -/

theorem deliver_noting (handler : Handler σ ε) (feed : Feed (Noted σ ε)) (event : Event) :
    deliver handler feed.plain event =
      ((deliver handler.noting feed event).1.plain, (deliver handler.noting feed event).2) := by
  unfold deliver
  rw [handler.noting_plain]
  cases handler.noting feed event with
  | mk feed result => cases result <;> rfl

theorem deliverAll_noting (handler : Handler σ ε) (feed : Feed (Noted σ ε)) (events : List Event) :
    deliverAll handler feed.plain events =
      ((deliverAll handler.noting feed events).1.plain,
        (deliverAll handler.noting feed events).2) := by
  induction events generalizing feed with
  | nil => rfl
  | cons event events ih =>
    unfold deliverAll
    rw [deliver_noting]
    cases deliver handler.noting feed event with
    | mk feed status =>
      cases status with
      | busy => exact ih feed
      | closed | waiting | failed => rfl

theorem step_noting (aggregate : Bool) (handler : Handler σ ε) (feed : Feed (Noted σ ε)) :
    step aggregate handler feed.plain =
      ((step aggregate handler.noting feed).1.plain, (step aggregate handler.noting feed).2) := by
  have hqueue : feed.plain.pipe.queue = feed.pipe.queue := rfl
  rw [step_eq, step_eq, hqueue]
  cases portion? aggregate feed.pipe.queue with
  | none => rfl
  | some portion => exact deliverAll_noting handler (feed.leaving portion.rest) portion.events

/-- A loop does with notes taken what it does without. -/
theorem run_noting (aggregate : Bool) (handler : Handler σ ε) (rounds : Nat)
    (feed : Feed (Noted σ ε)) :
    run aggregate handler rounds feed.plain =
      ((run aggregate handler.noting rounds feed).1.plain,
        (run aggregate handler.noting rounds feed).2) := by
  induction rounds generalizing feed with
  | zero => rfl
  | succ rounds ih =>
    unfold run
    rw [step_noting]
    cases step aggregate handler.noting feed with
    | mk feed status =>
      cases status with
      | busy => exact ih feed
      | closed | waiting | failed => rfl

/-! ## Nothing gets lost -/

/-- Of a pipe that had the queue once: what it has accepted is what was handled, what the loop has in its
hand, and what is in the pipe, in this order. -/
structure Accounted (queue : List Event) (feed : Feed (Noted σ ε)) (hand : List Event) : Prop where
  grown : queue <+: feed.state.accepted
  inOrder : ∃ taken, feed.state.accepted = taken ++ feed.pipe.queue ∧
    Event.expandAll taken = Event.expandAll (feed.state.handled ++ hand)

theorem accounted_noted (feed : Feed σ) : Accounted (ε := ε) feed.pipe.queue feed.noted [] :=
  ⟨List.prefix_rfl, [], rfl, rfl⟩

/-- An event that is handled leaves the hand. -/
theorem accounted_noting (happends : handler.Appends) {event : Event} {hand : List Event}
    (h : Accounted queue feed (event :: hand)) :
    Accounted queue (handler.noting feed event).1 hand := by
  obtain ⟨hgrown, taken, haccepted, hexpand⟩ := h
  obtain ⟨sent, hsent⟩ := happends feed.plain event
  change feed.pipe.queue ++ sent = (handler.noting feed event).1.pipe.queue at hsent
  refine ⟨hgrown.trans (List.prefix_append ..), taken, ?_, ?_⟩
  · show feed.state.accepted ++ (handler.noting feed event).1.pipe.queue.drop _ = _
    rw [haccepted, ← hsent, List.drop_left, List.append_assoc]
  · rw [hexpand, Handler.handled_noting, List.append_assoc]
    rfl

namespace Accounted

variable {hand : List Event}

/-- What is taken off the queue is in the hand. -/
theorem take (h : Accounted queue feed hand) {taken rest : List Event}
    (hqueue : feed.pipe.queue = taken ++ rest) :
    Accounted queue (feed.leaving rest) (hand ++ taken) := by
  obtain ⟨hgrown, before, haccepted, hexpand⟩ := h
  refine ⟨hgrown, before ++ taken, ?_, ?_⟩
  · rw [Feed.state_leaving, Feed.queue_leaving, haccepted, hqueue, List.append_assoc]
  · rw [Feed.state_leaving, ← List.append_assoc, Event.expandAll_append, hexpand,
      ← Event.expandAll_append]

/-- It does not matter how the write-aheads in the hand are batched. -/
theorem batched (h : Accounted queue feed hand) {events : List Event}
    (hexpand : Event.expandAll hand = Event.expandAll events) : Accounted queue feed events := by
  obtain ⟨hgrown, taken, haccepted, hall⟩ := h
  refine ⟨hgrown, taken, haccepted, ?_⟩
  rw [hall, Event.expandAll_append, hexpand, ← Event.expandAll_append]

theorem portion {portion : Portion} (h : Accounted queue feed [])
    (hportion : portion? aggregate feed.pipe.queue = some portion) :
    Accounted queue (feed.leaving portion.rest) portion.events := by
  obtain ⟨taken, -, hqueue, hexpand⟩ := portion_spec hportion
  exact (h.take hqueue).batched hexpand

end Accounted

/-! ## What a run leaves behind -/

/-- The last delivery failed, the first to do so, with so much in the loop's hand. -/
structure Failed (queue : List Event) (feed : Feed (Noted σ ε)) (last : Event) (error : ε)
    (hand : List Event) : Prop where
  deliveries : ∃ before, feed.state.deliveries = before ++ [(last, .error error)] ∧ Unfailing before
  accounted : Accounted queue feed hand

/-- Of events in the hand all are handled, up to one with which the handler fails. -/
theorem deliverAll_cases (happends : handler.Appends) {events : List Event}
    (hunfailing : Unfailing feed.state.deliveries) (haccounted : Accounted queue feed events) :
    (∃ next, deliverAll handler.noting feed events = (next, .busy) ∧
      Unfailing next.state.deliveries ∧ Accounted queue next []) ∨
    ∃ next before last hand error, deliverAll handler.noting feed events = (next, .failed error) ∧
      events = before ++ last :: hand ∧ Failed queue next last error hand := by
  induction events generalizing feed with
  | nil => exact Or.inl ⟨feed, rfl, hunfailing, haccounted⟩
  | cons event events ih =>
    have hnext := accounted_noting happends haccounted
    have hdeliveries := handler.deliveries_noting feed event
    unfold deliverAll deliver
    cases hresult : handler.noting feed event with
    | mk next result =>
      rw [hresult] at hnext hdeliveries
      cases result with
      | ok =>
        have hunfailing' : Unfailing next.state.deliveries := hdeliveries ▸ hunfailing.concat event
        obtain hgoing | ⟨final, before, last, hand, error, hrun, rfl, hfailed⟩ :=
          ih hunfailing' hnext
        · exact Or.inl hgoing
        · exact Or.inr ⟨final, event :: before, last, hand, error, hrun, rfl, hfailed⟩
      | error error =>
        exact Or.inr ⟨next, [], event, events, error, rfl, rfl, ⟨_, hdeliveries, hunfailing⟩, hnext⟩

/-- An event is behind a batch that the loop has put together and that is not full. -/
def Behind (event batched : Event) : Prop :=
  event.Interrupts ∧ ∃ batch, batched = .ofBatch batch ∧ batch ≠ [] ∧ batch.length ≤ maxAggregation

/-- What a run leaves behind of a queue: everything in order, or a failure with which at most the event
behind a batch is lost. -/
inductive Report (aggregate : Bool) (queue : List Event) : Feed (Noted σ ε) × Status ε → Prop
  | orderly {feed status} (hstatus : ∀ error, status ≠ .failed error)
      (hunfailing : Unfailing feed.state.deliveries) (haccounted : Accounted queue feed []) :
      Report aggregate queue (feed, status)
  | failed {feed last error} (lost : Option Event) (hfailed : Failed queue feed last error lost.toList)
      (hlost : ∀ event, lost = some event → aggregate = true ∧ Behind event last) :
      Report aggregate queue (feed, .failed error)

theorem report_step (happends : handler.Appends) (hunfailing : Unfailing feed.state.deliveries)
    (haccounted : Accounted queue feed []) :
    Report aggregate queue (step aggregate handler.noting feed) := by
  rw [step_eq]
  cases hportion : portion? aggregate feed.pipe.queue with
  | none => exact .orderly (by intro error; dsimp; split <;> nofun) hunfailing haccounted
  | some portion =>
    have hunfailing' : Unfailing (feed.leaving portion.rest).state.deliveries := hunfailing
    show Report aggregate queue (deliverAll handler.noting (feed.leaving portion.rest) portion.events)
    obtain ⟨next, hrun, hnext, haccounted'⟩ | ⟨next, before, last, hand, error, hrun, hevents,
      hfailed⟩ := deliverAll_cases happends hunfailing' (haccounted.portion hportion)
    · rw [hrun]
      exact .orderly nofun hnext haccounted'
    · rw [hrun]
      cases before with
      | nil =>
        -- the handler fails with the first event of the portion: a second one is lost
        obtain ⟨rfl, rfl⟩ : portion.first = last ∧ portion.next.toList = hand :=
          List.cons.inj hevents
        refine .failed portion.next hfailed fun event hevent => ?_
        obtain ⟨hnone, -⟩ | ⟨batch, haggregate, hbatch, hfirst, -, hnext⟩ := portion_cases hportion
        · rw [hevent] at hnone
          cases hnone
        · obtain ⟨hinterrupts, hroom⟩ := hnext event hevent
          exact ⟨haggregate, hinterrupts, batch, hfirst, hbatch, hroom⟩
      | cons first before =>
        have hsecond : portion.next.toList = before ++ last :: hand := (List.cons.inj hevents).2
        have hhand : hand = [] := by
          have hlength := congrArg List.length hsecond
          have hnext : portion.next.toList.length ≤ 1 := by cases portion.next <;> simp
          simp only [List.length_append, List.length_cons] at hlength
          exact List.eq_nil_of_length_eq_zero (by omega)
        exact .failed none (hhand ▸ hfailed) nofun

theorem report_run (happends : handler.Appends) (rounds : Nat)
    (hunfailing : Unfailing feed.state.deliveries) (haccounted : Accounted queue feed []) :
    Report aggregate queue (run aggregate handler.noting rounds feed) := by
  induction rounds generalizing feed with
  | zero => exact .orderly nofun hunfailing haccounted
  | succ rounds ih =>
    have hstep : Report aggregate queue (step aggregate handler.noting feed) :=
      report_step happends hunfailing haccounted
    unfold run
    cases hresult : step aggregate handler.noting feed with
    | mk next status =>
      rw [hresult] at hstep
      cases status with
      | busy =>
        cases hstep with
        | orderly _ hunfailing haccounted => exact ih hunfailing haccounted
      | closed | waiting | failed => exact hstep

/-- A failing handler ends the loop with its error, and the last delivery is the one that failed.  What was
handled up to it and what is still in the pipe are the queue and what was put behind it, in this order;
of the aggregating loop, but for the event that ended the batch with which the handler failed. -/
theorem failing_run (aggregate : Bool) (happends : handler.Appends) (rounds : Nat) (feed : Feed σ) :
    let outcome := run aggregate handler.noting rounds feed.noted
    let deliveries := outcome.1.state.deliveries
    run aggregate handler rounds feed = (outcome.1.plain, outcome.2) ∧
    (∀ event error, (event, .error error) ∈ deliveries →
      outcome.2 = .failed error ∧ deliveries.getLast? = some (event, .error error)) ∧
    ∀ error, outcome.2 = .failed error →
      ∃ before last lost, deliveries = before ++ [(last, .error error)] ∧ Unfailing before ∧
        Accounted feed.pipe.queue outcome.1 lost.toList ∧
        ∀ event, lost = some event → aggregate = true ∧ Behind event last := by
  have hreport : Report aggregate feed.pipe.queue (run aggregate handler.noting rounds feed.noted) :=
    report_run happends rounds nofun (accounted_noted feed)
  refine ⟨run_noting aggregate handler rounds feed.noted, ?_⟩
  cases hresult : run aggregate handler.noting rounds feed.noted with
  | mk next status =>
    rw [hresult] at hreport
    cases hreport with
    | orderly hstatus hunfailing _ =>
      refine ⟨?_, ?_⟩
      · intro event error hdelivery
        cases hunfailing _ hdelivery
      · intro error herror
        exact absurd herror (hstatus error)
    | failed lost hfailed hlost =>
      obtain ⟨⟨before, hdeliveries, hunfailing⟩, haccounted⟩ := hfailed
      refine ⟨?_, ?_⟩
      · intro event other hdelivery
        rw [hdeliveries] at hdelivery ⊢
        obtain hbefore | hlast := List.mem_append.mp hdelivery
        · cases hunfailing _ hbefore
        · cases List.mem_singleton.mp hlast
          exact ⟨rfl, List.getLast?_concat⟩
      · rintro _ ⟨⟩
        exact ⟨before, _, lost, hdeliveries, hunfailing, haccounted, hlost⟩

end Loop

/-! ## A recorder as the handler -/

namespace Recorder

theorem queue_prefix_offer (feed : Feed Recorder) (event : Event) :
    feed.pipe.queue <+: (offer feed event).pipe.queue := by
  unfold offer
  cases h : feed.pipe.trySend event with
  | ok pipe => exact ⟨[event], (Pipe.queue_of_trySend h).symm⟩
  | error => exact List.prefix_rfl

theorem queue_prefix_foldl_offer (feed : Feed Recorder) (events : List Event) :
    feed.pipe.queue <+: (events.foldl offer feed).pipe.queue := by
  induction events generalizing feed with
  | nil => exact List.prefix_rfl
  | cons event events ih => exact (queue_prefix_offer feed event).trans (ih (offer feed event))

theorem appends_handler (script : Script) : (handler script).Appends := by
  intro feed event
  let held := holdPipe script { feed with state := { feed.state with
    deliveries := feed.state.deliveries + 1, notes := feed.state.notes ++ [.inl event] } }
  let fed := (script.feeds.filter fun entry => entry.1 = feed.state.deliveries + 1).flatMap (·.2)
  have hfed : feed.pipe.queue <+: (fed.foldl offer held).pipe.queue :=
    queue_prefix_foldl_offer held fed
  unfold handler
  dsimp only
  split
  · exact List.prefix_rfl
  · cases event <;> exact hfed

/-- Two write-aheads with two timeouts behind them, which nobody adds to. -/
def sample : Feed Recorder :=
  ⟨start, ⟨4, [.writeAhead ⟨[1], none⟩, .writeAhead ⟨[2], none⟩, .electionTimeout, .heartbeatTimeout],
    0, false⟩⟩

end Recorder

namespace Loop

/-- The handler fails with the event behind the batch, and the event after that is spared. -/
theorem failing_run_second :
    let outcome := run true (Recorder.handler ⟨2, [], false⟩).noting 2 Recorder.sample.noted
    let deliveries := outcome.1.state.deliveries
    outcome.2 = .failed "refused event 2" ∧ outcome.1.pipe.queue = [.heartbeatTimeout] ∧
    ∃ before last lost, deliveries = before ++ [(last, .error "refused event 2")] ∧
      Unfailing before ∧ Accounted Recorder.sample.pipe.queue outcome.1 lost.toList ∧
      ∀ event, lost = some event → true = true ∧ Behind event last :=
  ⟨by decide, by decide,
    (failing_run true (Recorder.appends_handler ⟨2, [], false⟩) 2 Recorder.sample).2.2 _ (by decide)⟩

/-- The handler fails with the batch, and the event behind it is neither handled nor in the pipe. -/
theorem failing_run_loses_event :
    let outcome := run true (Recorder.handler ⟨1, [], false⟩).noting 2 Recorder.sample.noted
    outcome.2 = .failed "refused event 1" ∧
    .electionTimeout ∈ Recorder.sample.pipe.queue ∧
    .electionTimeout ∉ outcome.1.state.handled ∧ .electionTimeout ∉ outcome.1.pipe.queue ∧
    Event.expandAll outcome.1.state.handled ++ outcome.1.pipe.queue ≠ Recorder.sample.pipe.queue := by
  decide

end Loop

end RaftReplica
