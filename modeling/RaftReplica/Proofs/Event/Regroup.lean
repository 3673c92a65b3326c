import RaftReplica.Proofs.Event.Delivery

/-!
# How a queue is batched

A queue that nothing is added to is handled with the write-aheads that stand behind one another in
batches of a size of their own, and the rest of them in a smaller batch.

* `batches` cuts a run of write-aheads into batches, and `regroup` does so with every run of a queue.
* `regroup_eq` reads the first round of the loop off a queue: its events come first, and what it leaves is
  regrouped behind them.
* `run_regroup` says that a run over a pipe that has ended handles the queue regrouped, and empties it.
-/

namespace RaftReplica

namespace Loop

/-- How many write-aheads are in a batch that is full. -/
def batchSize : Nat := maxAggregation + 1

/-- What is delivered of the write-aheads that make up no full batch. -/
def remainder : List WriteAhead → List Event
  | [] => []
  | batch => [Event.ofBatch batch]

/-- What is delivered of a run of write-aheads: batches that are full, and what remains. -/
def batches (run : List WriteAhead) : List Event :=
  let full := run.length / batchSize
  (List.range full).map (fun i => .aggregatedWriteAhead ((run.drop (batchSize * i)).take batchSize)) ++
    remainder (run.drop (batchSize * full))

/-- The queue with its runs of write-aheads in batches, where a run has come before it. -/
def regroupBehind (run : List WriteAhead) : List Event → List Event
  | [] => batches run
  | .writeAhead write :: queue => regroupBehind (run ++ [write]) queue
  | event :: queue => batches run ++ event :: regroupBehind [] queue

/-- The queue with its runs of write-aheads in batches. -/
def regroup (queue : List Event) : List Event := regroupBehind [] queue

/-! ## Cutting runs -/

theorem batches_of_lt {run : List WriteAhead} (h : run.length < batchSize) :
    batches run = remainder run := by
  rw [batches, Nat.div_eq_of_lt h]
  rfl

/-- The first full batch of a run comes first. -/
theorem batches_append {batch : List WriteAhead} (hbatch : batch.length = batchSize)
    (run : List WriteAhead) : batches (batch ++ run) = .aggregatedWriteAhead batch :: batches run := by
  have hpos : 0 < batchSize := Nat.succ_pos _
  have hleft : (batch ++ run).drop batchSize = run := by rw [← hbatch, List.drop_left]
  have hdrop : ∀ i, (batch ++ run).drop (batchSize * (i + 1)) = run.drop (batchSize * i) := by
    intro i
    rw [Nat.mul_succ, Nat.add_comm, ← List.drop_drop, hleft]
  have hfull : (batch ++ run).length / batchSize = run.length / batchSize + 1 := by
    rw [List.length_append, hbatch, Nat.add_comm, Nat.add_div_right _ hpos]
  have htake : (batch ++ run).take batchSize = batch := by
    rw [← hbatch, List.take_left]
  simp only [batches, hfull, hdrop, List.range_succ_eq_map, List.map_cons, List.map_map,
    Function.comp_def, Nat.succ_eq_add_one, Nat.mul_zero, List.drop_zero, htake, List.cons_append]

theorem ofBatch_of_full {batch : List WriteAhead} (h : batch.length = batchSize) :
    Event.ofBatch batch = .aggregatedWriteAhead batch := by
  match batch with
  | [] => rfl
  | [_] => cases h
  | _ :: _ :: _ => rfl

theorem remainder_of_ne_nil {batch : List WriteAhead} (h : batch ≠ []) :
    remainder batch = [Event.ofBatch batch] := by
  cases batch with
  | nil => exact absurd rfl h
  | cons => rfl

theorem regroupBehind_append {batch : List WriteAhead} (hbatch : batch.length = batchSize)
    (run : List WriteAhead) (queue : List Event) :
    regroupBehind (batch ++ run) queue = .aggregatedWriteAhead batch :: regroupBehind run queue := by
  fun_induction regroupBehind run queue with
  | case1 run => rw [regroupBehind, batches_append hbatch]
  | case2 run write queue ih => rw [regroupBehind, List.append_assoc, ih]
  | case3 run event queue hevent ih =>
    rw [regroupBehind.eq_3 _ _ _ hevent, batches_append hbatch, List.cons_append]

/-! ## The first round -/

variable {queue : List Event} {event : Event}

theorem regroupBehind_of_interrupts (run : List WriteAhead) (hevent : event.Interrupts) :
    regroupBehind run (event :: queue) = batches run ++ event :: regroup queue :=
  regroupBehind.eq_3 run event queue hevent

/-- A batch that has room for so many more takes what is drained off the queue. -/
theorem regroupBehind_drain (room : Nat) (queue : List Event) :
    ∀ run : List WriteAhead, run ≠ [] → run.length + room = batchSize →
      regroupBehind run queue =
        Event.ofBatch (run ++ (drain room queue).batch) ::
          ((drain room queue).interruptedBy.toList ++ regroup (drain room queue).rest) := by
  fun_induction drain room queue with
  | case1 queue =>
    intro run hrun hfull
    have happend := regroupBehind_append hfull [] queue
    rw [List.append_nil] at happend
    rw [happend, List.append_nil, ofBatch_of_full hfull]
    rfl
  | case2 room =>
    intro run hrun hroom
    have hshort : run.length < batchSize := by omega
    rw [regroupBehind, batches_of_lt hshort, remainder_of_ne_nil hrun, List.append_nil]
    rfl
  | case3 room write queue drained ih =>
    intro run hrun hroom
    have hlonger : (run ++ [write]).length + room = batchSize := by
      rw [List.length_append, List.length_singleton, Nat.add_assoc, Nat.add_comm 1]
      exact hroom
    rw [regroupBehind, ih (run ++ [write]) (by simp) hlonger, List.append_assoc]
    rfl
  | case4 room event queue hevent =>
    intro run hrun hroom
    have hshort : run.length < batchSize := by omega
    rw [regroupBehind_of_interrupts run hevent, batches_of_lt hshort, remainder_of_ne_nil hrun,
      List.append_nil]
    rfl

/-- The events of the first round come first, and what it leaves is regrouped behind them. -/
theorem regroup_eq (queue : List Event) :
    regroup queue =
      match portion? true queue with
      | none => []
      | some portion => portion.events ++ regroup portion.rest := by
  match queue with
  | [] => rfl
  | event :: queue =>
    obtain hevent | ⟨write, rfl⟩ := event.interrupts_or
    · rw [portion?_of_interrupts true hevent, regroup, regroupBehind_of_interrupts [] hevent]
      rfl
    · exact regroupBehind_drain maxAggregation queue [write] (by simp) (Nat.add_comm ..)

/-! ## A run over a pipe that has ended -/

variable {σ ε : Type} {handler : Handler σ ε} {feed : Feed (Noted σ ε)}

/-- A handler that never fails, puts events behind the queue only, and none once the pipe has ended. -/
structure Obliging (handler : Handler σ ε) : Prop where
  appends : handler.Appends
  succeeds : ∀ feed event, (handler feed event).2 = .ok ()
  heeds : ∀ feed event, feed.pipe.isOver = true →
    (handler feed event).1.pipe.isOver = true ∧ (handler feed event).1.pipe.queue = feed.pipe.queue

/-- All events in the hand are handled, and the pipe stays as it is. -/
theorem deliverAll_over (hobliging : Obliging handler) (hover : feed.pipe.isOver = true)
    (events : List Event) :
    ∃ next, deliverAll handler.noting feed events = (next, .busy) ∧ next.pipe.isOver = true ∧
      next.pipe.queue = feed.pipe.queue ∧ next.state.handled = feed.state.handled ++ events := by
  induction events generalizing feed with
  | nil => exact ⟨feed, rfl, hover, rfl, (List.append_nil _).symm⟩
  | cons event events ih =>
    obtain ⟨hover', hqueue⟩ : (handler.noting feed event).1.pipe.isOver = true ∧
        (handler.noting feed event).1.pipe.queue = feed.pipe.queue :=
      hobliging.heeds feed.plain event hover
    obtain ⟨next, hrun, hnext, hqueue', hhandled⟩ := ih hover'
    refine ⟨next, ?_, hnext, hqueue'.trans hqueue, ?_⟩
    · have hdeliver : deliver handler.noting feed event = ((handler.noting feed event).1, .busy) :=
        deliver_of_ok (hobliging.succeeds feed.plain event)
      rw [← hrun, deliverAll, hdeliver]
    · rw [hhandled, Handler.handled_noting, List.append_assoc]
      rfl

/-- A pipe that has ended is emptied, and its queue is handled in batches. -/
theorem run_regroup (hobliging : Obliging handler) (rounds : Nat)
    (hrounds : feed.pipe.queue.length < rounds) (hover : feed.pipe.isOver = true) :
    (run true handler.noting rounds feed).2 = .closed ∧
    (run true handler.noting rounds feed).1.pipe.queue = [] ∧
    (run true handler.noting rounds feed).1.state.handled =
      feed.state.handled ++ regroup feed.pipe.queue := by
  induction rounds generalizing feed with
  | zero => exact absurd hrounds (Nat.not_lt_zero _)
  | succ rounds ih =>
    unfold run
    rw [regroup_eq, step_eq]
    cases hportion : portion? true feed.pipe.queue with
    | none =>
      have hqueue : feed.pipe.queue = [] := portion?_eq_none_iff.mp hportion
      simp [hover, hqueue]
    | some portion =>
      obtain ⟨taken, htaken, hqueue, -⟩ := portion_spec hportion
      have hleft : (feed.leaving portion.rest).pipe.isOver = true := hover
      obtain ⟨next, hrun, hnext, hrest, hhandled⟩ := deliverAll_over hobliging hleft portion.events
      have hshorter : next.pipe.queue.length < rounds := by
        rw [hrest]
        have hlength := congrArg List.length hqueue
        have hpos := List.length_pos_iff.mpr htaken
        rw [List.length_append] at hlength
        show portion.rest.length < rounds
        omega
      obtain ⟨hclosed, hempty, hall⟩ := ih hshorter hnext
      simp only [hrun]
      refine ⟨hclosed, hempty, ?_⟩
      rw [hall, hhandled, hrest, List.append_assoc]
      rfl

end Loop

end RaftReplica
