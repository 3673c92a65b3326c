import RaftReplica.Proofs.Replica.Batching

/-!
# The tenure of a served replica

From the moment a replica is served, others put events into its pipe at any time, senders come and go, the
loop runs for a while and waits again, and at some time the replica may be told to stop.  All that can be
taken apart into incidents, and whatever is true after every run of them is true of a served replica at every
time.

* `Tenure` is a served replica with the events that its pipe has taken and the turn that its loop was in last,
  and `Incident` what can befall it.
* `exists_ran` says what some rounds of a loop come to: the replica has handled some events one after the
  other, which stand for what was taken off the front of the queue.
* `Tenure.Stands` is how a tenure can stand: it never began, it goes on, or it is over.  `stands_of` says that
  it stands so after all incidents.
* `sameEnd_befall` says that a tenure that is over stays as it is.
-/

namespace RaftReplica

/-! ## Some rounds of a loop -/

namespace Turn

variable {t next : Turn} {event : Event} {handled left : List Event} {result : Except ReplicaError Unit}

/-- A queue goes on behind an event that has been handled, and is left where it is behind one that could not
be. -/
theorem serve_cons_cases (h : t.serve (event :: handled) = (next, left, result)) :
    (∃ between, t.handle event = (between, .ok ()) ∧ between.serve handled = (next, left, result)) ∨
    ∃ error, t.handle event = (next, .error error) ∧ left = handled ∧ result = .error error := by
  cases hhandle : t.handle event with
  | mk between result' =>
    cases result' with
    | ok =>
      rw [serve_cons_of_ok hhandle] at h
      exact Or.inl ⟨between, rfl, h⟩
    | error error =>
      rw [serve_cons_of_error hhandle] at h
      cases h
      exact Or.inr ⟨error, rfl, rfl, rfl⟩

/-- What has been handled is handled before anything else. -/
theorem serve_append (h : t.serve handled = (next, [], .ok ())) (more : List Event) :
    t.serve (handled ++ more) = next.serve more := by
  induction handled generalizing t with
  | nil =>
    cases h
    rfl
  | cons event rest ih =>
    obtain ⟨between, hhandle, hrest⟩ | ⟨error, -, -, hresult⟩ := serve_cons_cases h
    · rw [List.cons_append, serve_cons_of_ok hhandle]
      exact ih hrest
    · cases hresult

/-- Nothing is left of a queue in which everything could be handled. -/
theorem left_of_serve {queue : List Event} (h : t.serve queue = (next, left, .ok ())) : left = [] := by
  induction queue generalizing t with
  | nil =>
    cases h
    rfl
  | cons event rest ih =>
    obtain ⟨between, -, hrest⟩ | ⟨error, -, -, hresult⟩ := serve_cons_cases h
    · exact ih hrest
    · cases hresult

/-- If nothing is left behind an event that could not be handled, it was the last one. -/
theorem serve_error {error : ReplicaError} (h : t.serve handled = (next, [], .error error)) :
    ∃ before event between, handled = before ++ [event] ∧ t.serve before = (between, [], .ok ()) ∧
      between.handle event = (next, .error error) := by
  induction handled generalizing t with
  | nil => cases h
  | cons event rest ih =>
    obtain ⟨between, hhandle, hrest⟩ | ⟨cause, hfails, rfl, hresult⟩ := serve_cons_cases h
    · obtain ⟨before, last, between', rfl, hbefore, hlast⟩ := ih hrest
      refine ⟨event :: before, last, between', rfl, ?_, hlast⟩
      rw [serve_cons_of_ok hhandle, hbefore]
    · cases hresult
      exact ⟨[], event, t, rfl, rfl, hfails⟩

end Turn

namespace Loop

/-- Where a loop stands after an event. -/
def afterEvent : Except ReplicaError Unit → Status ReplicaError
  | .ok () => .busy
  | .error error => .failed error

theorem serve_singleton (t : Turn) (pipe : Pipe Event) (event : Event) :
    ∃ next result, t.serve [event] = (next, [], result) ∧
      deliver Turn.handler ⟨t, pipe⟩ event = (⟨next, pipe⟩, afterEvent result) := by
  unfold deliver Turn.handler
  cases hhandle : t.handle event with
  | mk next result =>
    cases result with
    | ok => exact ⟨next, .ok (), Turn.serve_cons_of_ok hhandle [], rfl⟩
    | error error => exact ⟨next, .error error, Turn.serve_cons_of_error hhandle [], rfl⟩

/-- All of a portion is handled.  If the loop ends with it, then with its last event, for batches are always
handled. -/
theorem serve_portion {aggregate : Bool} {queue : List Event} {portion : Portion}
    (h : portion? aggregate queue = some portion) (t : Turn) (pipe : Pipe Event) :
    ∃ next result, t.serve portion.events = (next, [], result) ∧
      deliverAll Turn.handler ⟨t, pipe⟩ portion.events = (⟨next, pipe⟩, afterEvent result) := by
  obtain ⟨hnext, -⟩ | ⟨batch, -, -, hfirst, -, -⟩ := portion_cases h
  · rw [Portion.events, hnext, Option.toList_none, deliverAll_singleton]
    exact serve_singleton t pipe portion.first
  · rw [Portion.events, hfirst, deliverAll_ofBatch, Turn.serve_cons_of_ok (t.handle_ofBatch batch)]
    cases portion.next with
    | none => exact ⟨_, .ok (), rfl, rfl⟩
    | some event =>
      rw [Option.toList_some, deliverAll_singleton]
      exact serve_singleton _ pipe event

/-- What some rounds of a loop come to.  What was taken off the queue, `seen`, stands for what was handled. -/
structure Ran (t : Turn) (pipe : Pipe Event) (seen handled : List Event)
    (result : Except ReplicaError Unit) (outcome : Feed Turn × Status ReplicaError) : Prop where
  serve : t.serve handled = (outcome.1.state, [], result)
  same : Event.expandAll seen = Event.expandAll handled
  queue : pipe.queue = seen ++ outcome.1.pipe.queue
  failed : ∀ error, outcome.2 = .failed error ↔ result = .error error

/-- However many rounds a loop runs, it handles events off the front of its queue. -/
theorem exists_ran (aggregate : Bool) (rounds : Nat) (t : Turn) (pipe : Pipe Event) :
    ∃ seen handled result,
      Ran t pipe seen handled result (run aggregate Turn.handler rounds ⟨t, pipe⟩) := by
  induction rounds generalizing t pipe with
  | zero => exact ⟨[], [], .ok (), rfl, rfl, rfl, fun error => iff_of_false nofun nofun⟩
  | succ rounds ih =>
    rw [run_succ, step_eq]
    cases hportion : portion? aggregate pipe.queue with
    | none =>
      -- there is nothing to take, so the loop waits or ends with its pipe
      refine ⟨[], [], .ok (), ?_⟩
      show Ran t pipe [] [] (.ok ())
        (andThen _ (⟨t, pipe⟩, if pipe.isOver then .closed else .waiting))
      cases pipe.isOver with
      | true => exact ⟨rfl, rfl, rfl, fun error => iff_of_false nofun nofun⟩
      | false => exact ⟨rfl, rfl, rfl, fun error => iff_of_false nofun nofun⟩
    | some portion =>
      obtain ⟨taken, -, hqueue, hsame⟩ := portion_spec hportion
      obtain ⟨next, result, hserve, hdeliver⟩ :=
        serve_portion hportion t { pipe with queue := portion.rest }
      show ∃ seen handled result, Ran t pipe seen handled result
        (andThen _ (deliverAll Turn.handler ⟨t, { pipe with queue := portion.rest }⟩ portion.events))
      rw [hdeliver]
      cases result with
      | error error =>
        refine ⟨taken, portion.events, .error error, hserve, hsame, hqueue, fun other => ?_⟩
        show Status.failed error = .failed other ↔ _
        simp
      | ok =>
        obtain ⟨seen, handled, result, hran⟩ := ih next { pipe with queue := portion.rest }
        refine ⟨taken ++ seen, portion.events ++ handled, result, ?_, ?_, ?_, hran.failed⟩
        · rw [Turn.serve_append hserve]
          exact hran.serve
        · rw [Event.expandAll_append, Event.expandAll_append, hsame, hran.same]
        · have hrest : portion.rest = seen ++ _ := hran.queue
          rw [hqueue, List.append_assoc]
          exact congrArg (taken ++ ·) hrest

end Loop

/-! ## Incidents -/

/-- How a replica comes out of bootstrap once it has a pipe. -/
def Replica.booted (r : Replica) : Outcome := { r with listening := true }.bootstrap

namespace Served

/-- To run a loop is to handle events off the front of the queue.  The loop goes on with what is left, or it
ends, and with an event that could not be handled it does end. -/
theorem advance_cases {s : Served} (hended : s.ended = none) (rounds : Nat) :
    let feed := (s.drive rounds).1
    ∃ seen handled result, s.turn.serve handled = (feed.state, [], result) ∧
      Event.expandAll seen = Event.expandAll handled ∧ s.pipe.queue = seen ++ feed.pipe.queue ∧
      (result = .ok () ∧ s.advance rounds = ⟨feed.state, feed.pipe, none⟩ ∨
        s.advance rounds = finish ⟨feed.state, feed.pipe, none⟩ result) := by
  obtain ⟨seen, handled, result, hserve, hsame, hqueue, hfailed⟩ :=
    Loop.exists_ran s.replica.settings.aggregate rounds s.turn s.pipe
  change s.turn.serve handled = ((s.drive rounds).1.state, [], result) at hserve
  change s.pipe.queue = seen ++ (s.drive rounds).1.pipe.queue at hqueue
  change ∀ error, (s.drive rounds).2 = .failed error ↔ result = .error error at hfailed
  unfold advance
  rw [hended]
  generalize s.drive rounds = outcome at hserve hqueue hfailed ⊢
  obtain ⟨⟨last, pipe⟩, status⟩ := outcome
  refine ⟨seen, handled, result, hserve, hsame, hqueue, ?_⟩
  cases hresult : result with
  | error error =>
    have hstatus : status = .failed error := (hfailed error).mpr hresult
    rw [hstatus]
    exact Or.inr rfl
  | ok =>
    cases status with
    | closed => exact Or.inr rfl
    | waiting | busy => exact Or.inl ⟨rfl, rfl⟩
    | failed error =>
      have herror := (hfailed error).mp rfl
      rw [hresult] at herror
      cases herror

end Served

/-- What can befall a served replica. -/
inductive Incident where
  /-- Somebody wants an event to go into the pipe. -/
  | send (event : Event)
  /-- The pipe has so many strong senders and so much room from now on. -/
  | refit (senders capacity : Nat)
  /-- The loop has the time for so many rounds. -/
  | run (rounds : Nat)
  /-- The loop has the time for all that it can do. -/
  | work
  /-- The replica is told to stop. -/
  | stop

/-- A served replica with what has been so far.  All effects of the replica are kept. -/
structure Tenure where
  served : Served
  /-- The events that the pipe has taken. -/
  taken : List Event
  /-- The turn that the loop was in last, which is where it ended if it has. -/
  last : Turn

namespace Tenure

/-- The loop of a tenure runs for so many rounds, if it has not ended. -/
def run (k : Tenure) (rounds : Nat) : Tenure where
  served := k.served.advance rounds
  taken := k.taken
  last := if k.served.ended.isSome then k.last else (k.served.drive rounds).1.state

/-- What an incident makes of a tenure. -/
def befall (k : Tenure) : Incident → Tenure
  | .send event =>
    match k.served.pipe.trySend event with
    | .ok pipe => { k with served := { k.served with pipe }, taken := k.taken ++ [event] }
    | .error _ => k
  | .refit senders capacity =>
    { k with served := { k.served with pipe := { k.served.pipe with senders, capacity } } }
  | .run rounds => k.run rounds
  | .work => { k.run (k.served.pipe.queue.length + 1) with served := k.served.work }
  | .stop => { k with served := k.served.shutDown.1 }

/-- The tenure of a replica after incidents. -/
def of (r : Replica) (incidents : List Incident) : Tenure :=
  incidents.foldl befall ⟨r.serve, [], r.booted.1⟩

/-- A replica comes from bootstrap to a turn by handling these events one after the other, though some of them
perhaps as one batch, and the last of them with this result. -/
def Through (r : Replica) (events : List Event) (last : Turn) (result : Except ReplicaError Unit) : Prop :=
  ∃ handled, r.booted.1.serve handled = (last, [], result) ∧
    Event.expandAll events = Event.expandAll handled

/-- How a tenure of a replica can stand. -/
inductive Stands (r : Replica) : Tenure → Prop
  /-- The replica could not be bootstrapped. -/
  | unbooted {k : Tenure} {error : ReplicaError} (boots : r.booted = (k.last, .error error))
      (ended : k.served.ended = some (.error error)) (turn : k.served.turn = k.last.shutDown)
      (shut : k.served.pipe.closed = true) (left : k.served.pipe.queue = []) (taken : k.taken = []) :
      Stands r k
  /-- The loop goes on.  What is not in the queue any more has been handled. -/
  | serving {k : Tenure} {handled : List Event} (boots : r.booted.2 = .ok ())
      (ended : k.served.ended = none) (turn : k.served.turn = k.last)
      (through : Through r handled k.last (.ok ())) (taken : k.taken = handled ++ k.served.pipe.queue) :
      Stands r k
  /-- The loop has ended, and what was in the queue by then has been dropped. -/
  | concluded {k : Tenure} {handled dropped : List Event} {result : Except ReplicaError Unit}
      (boots : r.booted.2 = .ok ()) (ended : k.served.ended = some result)
      (turn : k.served.turn = k.last.conclude result) (through : Through r handled k.last result)
      (shut : k.served.pipe.closed = true) (left : k.served.pipe.queue = [])
      (taken : k.taken = handled ++ dropped) : Stands r k

variable {r : Replica} {k k' : Tenure}

/-- Once the loop has ended, an incident may still concern the senders of the pipe, and nothing else. -/
structure SameEnd (k k' : Tenure) : Prop where
  turn : k'.served.turn = k.served.turn
  ended : k'.served.ended = k.served.ended
  queue : k'.served.pipe.queue = k.served.pipe.queue
  closed : k'.served.pipe.closed = k.served.pipe.closed
  taken : k'.taken = k.taken
  last : k'.last = k.last

/-- To have the time for all that there is to do is to have it for as many rounds as that can take. -/
theorem befall_work (k : Tenure) : k.befall .work = k.run (k.served.pipe.queue.length + 1) := rfl

theorem run_of_ended {result : Except ReplicaError Unit} (hended : k.served.ended = some result)
    (rounds : Nat) : k.run rounds = k := by
  unfold run Served.advance
  rw [hended]
  rfl

theorem sameEnd_befall {result : Except ReplicaError Unit} (hended : k.served.ended = some result)
    (hshut : k.served.pipe.closed = true) (incident : Incident) : k.SameEnd (k.befall incident) := by
  cases incident with
  | send event =>
    rw [befall, (Pipe.trySend_eq_closed_iff _ event).mpr hshut]
    exact ⟨rfl, rfl, rfl, rfl, rfl, rfl⟩
  | refit senders capacity => exact ⟨rfl, rfl, rfl, rfl, rfl, rfl⟩
  | run rounds =>
    rw [befall, run_of_ended hended]
    exact ⟨rfl, rfl, rfl, rfl, rfl, rfl⟩
  | work =>
    rw [befall_work, run_of_ended hended]
    exact ⟨rfl, rfl, rfl, rfl, rfl, rfl⟩
  | stop =>
    have hidle : k.served.shutDown.1 = k.served := by
      rw [Served.shutDown, hended]
    rw [befall, hidle]
    exact ⟨rfl, rfl, rfl, rfl, rfl, rfl⟩

theorem Stands.sameEnd (h : k.Stands r) (hsame : k.SameEnd k') : k'.Stands r := by
  obtain ⟨hturn, hended, hqueue, hclosed, htaken, hlast⟩ := hsame
  cases h with
  | unbooted boots ended turn shut left taken =>
    rw [← hlast] at boots turn
    exact .unbooted boots (hended.trans ended) (hturn.trans turn) (hclosed.trans shut)
      (hqueue.trans left) (htaken.trans taken)
  | serving boots ended turn through taken =>
    rw [← hlast] at turn through
    rw [← htaken, ← hqueue] at taken
    exact .serving boots (hended.trans ended) (hturn.trans turn) through taken
  | concluded boots ended turn through shut left taken =>
    rw [← hlast] at turn through
    exact .concluded boots (hended.trans ended) (hturn.trans turn) through (hclosed.trans shut)
      (hqueue.trans left) (htaken.trans taken)

/-- With its loop a replica has lost its pipe. -/
theorem Stands.shut (h : k.Stands r) {result : Except ReplicaError Unit}
    (hended : k.served.ended = some result) : k.served.pipe.closed = true := by
  cases h with
  | unbooted boots ended turn shut | concluded boots ended turn through shut => exact shut
  | serving boots ended =>
    rw [hended] at ended
    cases ended

/-- Without an end there is only one way to stand. -/
theorem Stands.serves (h : k.Stands r) (hended : k.served.ended = none) :
    r.booted.2 = .ok () ∧ k.served.turn = k.last ∧
      ∃ handled, Through r handled k.last (.ok ()) ∧ k.taken = handled ++ k.served.pipe.queue := by
  cases h with
  | serving boots ended turn through taken => exact ⟨boots, turn, _, through, taken⟩
  | unbooted boots ended | concluded boots ended =>
    rw [hended] at ended
    cases ended

/-- What is handled in some rounds is handled behind all that has been handled. -/
theorem Stands.run (h : k.Stands r) (hended : k.served.ended = none) (rounds : Nat) :
    (k.run rounds).Stands r := by
  obtain ⟨boots, turn, handled, ⟨earlier, hserve, hsame⟩, taken⟩ := h.serves hended
  obtain ⟨seen, handled', result, hserve', hsame', hqueue, hcases⟩ := Served.advance_cases hended rounds
  have hlast : (k.run rounds).last = (k.served.drive rounds).1.state := by
    rw [Tenure.run, hended]
    rfl
  have hthrough : Through r (handled ++ seen) (k.run rounds).last result := by
    refine ⟨earlier ++ handled', ?_, ?_⟩
    · rw [Turn.serve_append hserve, ← turn, hserve', hlast]
    · rw [Event.expandAll_append, Event.expandAll_append, hsame, hsame']
  have htaken : k.taken = (handled ++ seen) ++ (k.served.drive rounds).1.pipe.queue := by
    rw [taken, hqueue, List.append_assoc]
  obtain ⟨rfl, hgoesOn⟩ | hends := hcases
  · have hserved : (k.run rounds).served = _ := hgoesOn
    refine .serving boots ?_ ?_ hthrough ?_
    · rw [hserved]
    · rw [hserved, hlast]
    · rw [hserved]
      exact htaken
  · have hserved : (k.run rounds).served = _ := hends
    refine .concluded boots ?_ ?_ hthrough ?_ ?_ htaken
    · rw [hserved]
      rfl
    · rw [hserved, hlast]
      rfl
    · rw [hserved]
      rfl
    · rw [hserved]
      rfl

theorem Stands.befall (h : k.Stands r) (incident : Incident) : (k.befall incident).Stands r := by
  cases hended : k.served.ended with
  | some result => exact h.sameEnd (sameEnd_befall hended (h.shut hended) incident)
  | none =>
    obtain ⟨boots, turn, handled, through, taken⟩ := h.serves hended
    cases incident with
    | run rounds => exact h.run hended rounds
    | work => exact h.run hended (k.served.pipe.queue.length + 1)
    | refit senders capacity => exact .serving boots hended turn through taken
    | send event =>
      rw [Tenure.befall]
      cases hsend : k.served.pipe.trySend event with
      | error cause => exact h
      | ok pipe =>
        refine .serving boots hended turn through ?_
        show k.taken ++ [event] = handled ++ pipe.queue
        rw [Pipe.queue_of_trySend hsend, taken, List.append_assoc]
    | stop =>
      have hends : k.served.shutDown.1 = k.served.finish (.ok ()) := by
        rw [Served.shutDown, hended]
      rw [Tenure.befall, hends]
      exact .concluded boots rfl (congrArg (Turn.conclude · (.ok ())) turn) through rfl rfl taken

theorem stands_begin (r : Replica) : Stands r ⟨r.serve, [], r.booted.1⟩ := by
  unfold Replica.serve
  cases hboot : (Turn.start { r with listening := true }).bootstrap with
  | mk start result =>
    have hbooted : r.booted = (start, result) := hboot
    rw [hbooted]
    cases result with
    | ok =>
      have hnothing : Through r [] start (.ok ()) := ⟨[], by rw [hbooted]; rfl, rfl⟩
      exact .serving (congrArg Prod.snd hbooted) rfl rfl hnothing rfl
    | error error => exact .unbooted hbooted rfl rfl rfl rfl rfl

/-- **How a replica stands whatever befalls it.** -/
theorem stands_of (r : Replica) (incidents : List Incident) : (of r incidents).Stands r := by
  unfold of
  generalize hbegin : (⟨r.serve, [], r.booted.1⟩ : Tenure) = k
  have h : k.Stands r := hbegin ▸ stands_begin r
  clear hbegin
  induction incidents generalizing k with
  | nil => exact h
  | cons incident rest ih => exact ih _ (h.befall incident)

/-! ## A sample replica -/

theorem created_sample : (Replica.create "a" Life.sampleRoster Options.default).toOption.isSome = true := by
  decide +kernel

/-- The replica `a` with `b` as its only peer, before it is served. -/
def sample : Replica := (Replica.create "a" Life.sampleRoster Options.default).toOption.get created_sample

theorem create_sample : Replica.create "a" Life.sampleRoster Options.default = .ok sample := by
  have hsome : (Replica.create "a" Life.sampleRoster Options.default).toOption = some sample :=
    (Option.some_get created_sample).symm
  cases hcreate : Replica.create "a" Life.sampleRoster Options.default with
  | error cause =>
    rw [hcreate] at hsome
    cases hsome
  | ok r =>
    rw [hcreate] at hsome
    exact congrArg Except.ok (Option.some.inj hsome)

end Tenure

end RaftReplica
