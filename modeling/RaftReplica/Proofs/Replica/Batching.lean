import RaftReplica.Proofs.Event.Drain
import RaftReplica.Proofs.Replica.Answers
import RaftReplica.Proofs.Replica.News
import RaftReplica.Proofs.Replica.Onward
import RaftReplica.Proofs.Replica.Reach
import RaftReplica.Replica.Served

/-!
# Batches do not change what a replica does

A batch of write-aheads is appended as a whole and committed once, where the write-aheads by themselves are
appended and committed one after the other.  In the end the replica is the same, and so is all that its
clients and its readers hear; only its peers are sent other requests.

* `Turn.Alike` are turns that differ in the requests for entries at most, and `Alike.congr` carries that on.
* `alike_onWriteAheads` takes the last write-ahead off a batch, and `alike_foldl` takes a batch apart.
* `Turn.serve` handles the events of a queue one after the other, as the plain loop does, and
  `alike_serve_run` says that the aggregating loop does alike.
* `Life.batching_transparent` sums up.
-/

namespace RaftReplica

/-! ## Turns that are alike -/

namespace Effect

/-- Whether an effect is none that clients, readers or followers see, such as news, timers and requests for
votes. -/
def isAside : Effect → Bool
  | broadcast _ (.append _) | answer .. | commit _ => false
  | _ => true

end Effect

namespace Turn

def asides (t : Turn) : List Effect := t.effects.filter Effect.isAside

/-- The turns leave the same replica, and what they want done differs in requests for entries only. -/
structure Alike (t t' : Turn) : Prop where
  replica : t.replica = t'.replica
  answers : t.answers = t'.answers
  committed : t.committed = t'.committed
  asides : t.asides = t'.asides

namespace Alike

variable {t t' t'' : Turn}

theorem refl (t : Turn) : t.Alike t := ⟨rfl, rfl, rfl, rfl⟩

theorem symm (h : t.Alike t') : t'.Alike t :=
  ⟨h.replica.symm, h.answers.symm, h.committed.symm, h.asides.symm⟩

theorem trans (h : t.Alike t') (h' : t'.Alike t'') : t.Alike t'' :=
  ⟨h.replica.trans h'.replica, h.answers.trans h'.answers, h.committed.trans h'.committed,
    h.asides.trans h'.asides⟩

/-- News is neither an answer, a commit nor a request. -/
theorem published (h : t.Alike t') : t.published = t'.published := by
  have hasides : ∀ t : Turn, t.published = t.asides.filterMap Effect.publish? := by
    intro t
    rw [Turn.asides, List.filterMap_filter]
    refine List.filterMap_congr fun effect _ => ?_
    cases effect with
    | broadcast seats request => cases request <;> rfl
    | answer | commit | publish | startTicker | stopTicker | interruptTicker => rfl
  rw [hasides, hasides, h.asides]

theorem behind (h : t.Alike t') {before before' : Turn} (hbefore : before.Alike before') :
    (t.behind before.effects).Alike (t'.behind before'.effects) := by
  refine ⟨h.replica, ?_, ?_, ?_⟩
  · show (before.effects ++ t.effects).filterMap _ = (before'.effects ++ t'.effects).filterMap _
    rw [List.filterMap_append, List.filterMap_append]
    exact congrArg₂ (· ++ ·) hbefore.answers h.answers
  · show (before.effects ++ t.effects).filterMap _ = (before'.effects ++ t'.effects).filterMap _
    rw [List.filterMap_append, List.filterMap_append]
    exact congrArg₂ (· ++ ·) hbefore.committed h.committed
  · show (before.effects ++ t.effects).filter _ = (before'.effects ++ t'.effects).filter _
    rw [List.filter_append, List.filter_append]
    exact congrArg₂ (· ++ ·) hbefore.asides h.asides

/-- What goes on from turns that are alike is alike, if it does not look back. -/
theorem congr (h : t.Alike t') (act : Turn → Turn)
    (hact : ∀ t before, act (t.behind before) = (act t).behind before) : (act t).Alike (act t') := by
  rw [← t.behind_start, ← t'.behind_start, hact, hact, h.replica]
  exact (refl _).behind h

end Alike

/-! ## What the parts of a turn add -/

section Asides

variable (t : Turn)

theorem asides_emitAll {effects : List Effect} (h : ∀ effect ∈ effects, effect.isAside = false) :
    (t.emitAll effects).asides = t.asides := by
  have hnone : effects.filter Effect.isAside = [] :=
    List.filter_eq_nil_iff.mpr fun effect heffect => by simp [h effect heffect]
  rw [asides, effects_emitAll, List.filter_append, hnone, List.append_nil, asides]

@[simp] theorem asides_writeOne (write : WriteAhead) : (t.writeOne write).asides = t.asides := by
  unfold writeOne respond
  cases write.ticket with
  | none => rfl
  | some ticket => exact asides_emitAll _ (by simp [Effect.isAside])

@[simp] theorem asides_commitTo (index : Nat) : (t.commitTo index).asides = t.asides := by
  refine asides_emitAll _ fun effect heffect => ?_
  obtain ⟨entry, -, rfl⟩ := List.mem_map.mp heffect
  rfl

@[simp] theorem asides_advanceCommitIndex : t.advanceCommitIndex.asides = t.asides := by
  rcases t.advanceCommitIndex_cases with h | ⟨index, -, -, -, h⟩ <;> simp [h]

/-- Replicating shows in the requests for entries only. -/
theorem alike_replicate : t.replicate.Alike t := by
  refine ⟨rfl, t.answers_replicate, t.committed_replicate, ?_⟩
  refine asides_emitAll _ fun effect heffect => ?_
  obtain ⟨next, names, request, -, rfl⟩ := eq_broadcast_of_mem_replicationBroadcasts heffect
  rfl

theorem replica_writeOne (write : WriteAhead) :
    (t.writeOne write).replica =
      { t.replica with log := (t.replica.log.append t.replica.term write.data).2 } := by
  unfold writeOne respond
  cases write.ticket <;> rfl

theorem committed_writeOne (write : WriteAhead) : (t.writeOne write).committed = t.committed := by
  simp [writeOne]

end Asides

end Turn

/-- A stretch of a list may be read in two parts, the first of them before the list has grown. -/
theorem drop_take_append {α : Type} {l grown : List α} (hgrown : l <+: grown)
    {first second third : Nat} (hfirst : first ≤ second) (hread : second = first ∨ second ≤ l.length)
    (hsecond : second ≤ third) :
    (l.take second).drop first ++ (grown.take third).drop second = (grown.take third).drop first := by
  have hbefore : (l.take second).drop first = ((grown.take third).take second).drop first := by
    rcases hread with rfl | hread
    · rw [List.drop_eq_nil_of_le (List.length_take_le _ _),
        List.drop_eq_nil_of_le (List.length_take_le _ _)]
    · obtain ⟨rest, rfl⟩ := hgrown
      rw [List.take_take, Nat.min_eq_left hsecond, List.take_append_of_le_length hread]
  have hbehind : (grown.take third).drop second =
      ((grown.take third).drop first).drop (second - first) := by
    rw [List.drop_drop, Nat.add_sub_cancel' hfirst]
  rw [hbefore, List.drop_take, hbehind, List.take_append_drop]

/-! ## A batch and its write-aheads -/

namespace Turn

variable {t u : Turn}

/-- It does not matter whether a leader commits before it appends one more entry. -/
theorem alike_writeOne (hsteady : t.replica.Steady) (hleads : t.replica.role = .leader)
    (write : WriteAhead) :
    (t.advanceCommitIndex.writeOne write).advanceCommitIndex.Alike
      (t.writeOne write).advanceCommitIndex := by
  have hadvanced := replica_advanceCommitIndex hsteady.applied
  have hlate : (t.writeOne write).replica = t.replica.written write.data := t.replica_writeOne write
  have hearly : (t.advanceCommitIndex.writeOne write).replica =
      t.replica.reached.written write.data := by
    rw [replica_writeOne, hadvanced]
    rfl
  have hlate' : (t.writeOne write).replica.lastApplied = (t.writeOne write).replica.commitIndex := by
    rw [hlate]
    exact hsteady.applied
  have hearly' : (t.advanceCommitIndex.writeOne write).replica.lastApplied =
      (t.advanceCommitIndex.writeOne write).replica.commitIndex := by
    rw [hearly]
    rfl
  refine ⟨?_, ?_, ?_, ?_⟩
  · rw [replica_advanceCommitIndex hearly', replica_advanceCommitIndex hlate', hearly, hlate,
      Replica.reached_written hsteady hleads]
  · have hanswers := (t.advanceCommitIndex).answers_foldl_writeOne [write]
    rw [hadvanced, answers_advanceCommitIndex] at hanswers
    rw [answers_advanceCommitIndex, answers_advanceCommitIndex]
    exact hanswers.trans (t.answers_foldl_writeOne [write]).symm
  · rw [committed_advanceCommitIndex hearly', committed_advanceCommitIndex hlate', hearly, hlate,
      committed_writeOne, committed_writeOne, committed_advanceCommitIndex hsteady.applied,
      Replica.reach_written hsteady hleads, List.append_assoc]
    have hgrown : t.replica.log.entries <+: (t.replica.written write.data).log.entries :=
      List.prefix_append ..
    have hfurther := (t.replica.reached.written write.data).le_reach
    rw [Replica.reach_written hsteady hleads] at hfurther
    exact congrArg _ (drop_take_append hgrown t.replica.le_reach t.replica.reach_cases hfurther)
  · simp only [asides_advanceCommitIndex, asides_writeOne]

theorem onWriteAheads_of_leader (batch : List WriteAhead) (hleads : t.replica.role = .leader) :
    t.onWriteAheads batch = (batch.foldl writeOne t).advanceCommitIndex.replicate := if_pos hleads

/-- The last write-ahead of a batch may as well be handled by itself. -/
theorem alike_onWriteAheads (hsteady : t.replica.Steady) (batch : List WriteAhead)
    (write : WriteAhead) :
    ((t.onWriteAheads batch).onWriteAheads [write]).Alike (t.onWriteAheads (batch ++ [write])) := by
  by_cases hleads : t.replica.role = .leader
  · have hsteady' := steady_foldl_writeOne hsteady batch
    have hleads' : (batch.foldl writeOne t).replica.role = .leader := by
      rw [replica_foldl_writeOne]
      exact hleads
    have hadvanced : (t.onWriteAheads batch).replica.role = .leader := by
      rw [onWriteAheads_of_leader batch hleads, replica_replicate,
        replica_advanceCommitIndex hsteady'.applied]
      exact hleads'
    rw [onWriteAheads_of_leader [write] hadvanced, onWriteAheads_of_leader batch hleads,
      onWriteAheads_of_leader (batch ++ [write]) hleads, List.foldl_append]
    -- what goes out in between is set aside, and then what is committed in between
    have hbetween := (alike_replicate (batch.foldl writeOne t).advanceCommitIndex).congr
      (fun t => (t.writeOne write).advanceCommitIndex) (by simp)
    have hcommits := alike_writeOne hsteady' hleads' write
    exact (alike_replicate _).trans (hbetween.trans (hcommits.trans (alike_replicate _).symm))
  · have hidle : (t.onWriteAheads batch).replica.role ≠ .leader := by
      rw [t.onWriteAheads_of_not_leader batch hleads, replica_foldl_refuseOne]
      exact hleads
    rw [onWriteAheads_of_not_leader _ [write] hidle, t.onWriteAheads_of_not_leader _ hleads,
      t.onWriteAheads_of_not_leader _ hleads, List.foldl_append]
    exact .refl _

/-- Handles write-aheads one after the other. -/
def writeEach (t : Turn) (batch : List WriteAhead) : Turn :=
  batch.foldl (fun t write => t.onWriteAheads [write]) t

theorem writeEach_behind (t : Turn) (before : List Effect) (batch : List WriteAhead) :
    (t.behind before).writeEach batch = (t.writeEach batch).behind before :=
  t.foldl_behind before (fun t write => t.onWriteAheads_behind before [write]) batch

/-- The last write-aheads of a batch may as well be handled one after the other. -/
theorem alike_writeEach (hsteady : t.replica.Steady) (batch rest : List WriteAhead) :
    ((t.onWriteAheads batch).writeEach rest).Alike (t.onWriteAheads (batch ++ rest)) := by
  induction rest generalizing batch with
  | nil =>
    rw [List.append_nil]
    exact .refl _
  | cons write rest ih =>
    have hfirst := (alike_onWriteAheads hsteady batch write).congr (·.writeEach rest)
      fun t before => t.writeEach_behind before rest
    have hrest := ih (batch ++ [write])
    rw [List.append_assoc] at hrest
    exact hfirst.trans hrest

/-! ## A queue -/

/-- From turns that are alike an event leads to turns that are alike, and fails for both or for neither. -/
theorem Alike.handle (h : t.Alike u) (event : Event) :
    (t.handle event).1.Alike (u.handle event).1 ∧ (t.handle event).2 = (u.handle event).2 := by
  rw [t.handle_eq event, u.handle_eq event, h.replica]
  exact ⟨(Alike.refl _).behind h, rfl⟩

theorem steady_handle (hsteady : t.replica.Steady) (event : Event) :
    (t.handle event).1.replica.Steady := by
  rw [t.handle_eq event]
  exact hsteady.handle event

/-- Handles the events of a queue one after the other, up to one that cannot be handled, and says what is
left then. -/
def serve (t : Turn) : List Event → Turn × List Event × Except ReplicaError Unit
  | [] => (t, [], .ok ())
  | event :: queue =>
    match t.handle event with
    | (t, .ok ()) => serve t queue
    | (t, .error error) => (t, queue, .error error)

theorem serve_cons_of_ok {next : Turn} {event : Event} (h : t.handle event = (next, .ok ()))
    (queue : List Event) : t.serve (event :: queue) = next.serve queue := by
  rw [serve, h]

theorem serve_cons_of_error {next : Turn} {event : Event} {error : ReplicaError}
    (h : t.handle event = (next, .error error)) (queue : List Event) :
    t.serve (event :: queue) = (next, queue, .error error) := by
  rw [serve, h]

theorem serve_writes (t : Turn) (batch : List WriteAhead) (queue : List Event) :
    t.serve (batch.map .writeAhead ++ queue) = (t.writeEach batch).serve queue := by
  induction batch generalizing t with
  | nil => rfl
  | cons write batch ih => exact ih (t.onWriteAheads [write])

theorem handle_ofBatch (t : Turn) (batch : List WriteAhead) :
    t.handle (.ofBatch batch) = (t.onWriteAheads batch, .ok ()) := by
  match batch with
  | [] => rfl
  | [_] => rfl
  | _ :: _ :: _ => rfl

end Turn

namespace Loop

/-- How a loop over a pipe ends that has come to the end of its queue, or to an event that cannot be
handled. -/
def ending (pipe : Pipe Event) : Except ReplicaError Unit → Status ReplicaError
  | .ok () => if pipe.isOver then .closed else .waiting
  | .error error => .failed error

theorem ending_ne_busy (pipe : Pipe Event) (result : Except ReplicaError Unit) :
    ending pipe result ≠ .busy := by
  unfold ending
  split
  · split <;> nofun
  · nofun

/-- A loop ends with a turn like the one served, with the same result and the same events left in the
pipe. -/
structure Serves (pipe : Pipe Event) (served : Turn × List Event × Except ReplicaError Unit)
    (outcome : Feed Turn × Status ReplicaError) : Prop where
  alike : outcome.1.state.Alike served.1
  left : outcome.1.pipe = { pipe with queue := served.2.1 }
  result : outcome.2 = ending pipe served.2.2

/-- An event is handled, and then the rest of the queue, unless the loop ends with the event. -/
theorem serves_deliver (pipe : Pipe Event) {t u : Turn} (halike : t.Alike u)
    (hsteady : t.replica.Steady) (event : Event) {queue : List Event}
    {goOn : Feed Turn → Feed Turn × Status ReplicaError}
    (hrest : ∀ t u : Turn, t.Alike u → t.replica.Steady →
      Serves pipe (u.serve queue) (goOn ⟨t, { pipe with queue }⟩)) :
    Serves pipe (u.serve (event :: queue))
      (andThen goOn (deliver Turn.handler ⟨t, { pipe with queue }⟩ event)) := by
  obtain ⟨hnext, hresult⟩ := halike.handle event
  have hsteady' := Turn.steady_handle hsteady event
  unfold deliver Turn.handler
  cases hhandle : t.handle event with
  | mk t' result =>
    cases hhandle' : u.handle event with
    | mk u' result' =>
      rw [hhandle, hhandle'] at hnext hresult
      rw [hhandle] at hsteady'
      cases hresult
      cases result with
      | ok =>
        rw [Turn.serve_cons_of_ok hhandle']
        exact hrest t' u' hnext hsteady'
      | error error =>
        rw [Turn.serve_cons_of_error hhandle']
        exact ⟨hnext, rfl, rfl⟩

theorem deliverAll_ofBatch (t : Turn) (pipe : Pipe Event) (batch : List WriteAhead)
    (events : List Event) :
    deliverAll Turn.handler ⟨t, pipe⟩ (.ofBatch batch :: events) =
      deliverAll Turn.handler ⟨t.onWriteAheads batch, pipe⟩ events := by
  rw [deliverAll, deliver, Turn.handler, Turn.handle_ofBatch]

/-- Either loop serves its queue as if it handled one event after the other. -/
theorem serves_run (aggregate : Bool) (rounds : Nat) (pipe : Pipe Event) {t u : Turn}
    (halike : t.Alike u) (hsteady : t.replica.Steady) {queue : List Event}
    (hrounds : queue.length < rounds) :
    Serves pipe (u.serve queue) (run aggregate Turn.handler rounds ⟨t, { pipe with queue }⟩) := by
  induction rounds generalizing t u queue with
  | zero => exact absurd hrounds (Nat.not_lt_zero _)
  | succ rounds ih =>
    rw [run_succ, step_eq]
    cases hportion : portion? aggregate queue with
    | none =>
      obtain rfl := portion?_eq_none_iff.mp hportion
      show Serves pipe _
        (andThen _ (⟨t, { pipe with queue := [] }⟩, if pipe.isOver then .closed else .waiting))
      cases hover : pipe.isOver with
      | true => exact ⟨halike, rfl, by simp [andThen, Turn.serve, ending, hover]⟩
      | false => exact ⟨halike, rfl, by simp [andThen, Turn.serve, ending, hover]⟩
    | some portion =>
      have hshorter : portion.rest.length < rounds := by
        obtain ⟨taken, htaken, hqueue, -⟩ := portion_spec hportion
        have hlength := congrArg List.length hqueue
        have hpos := List.length_pos_iff.mpr htaken
        rw [List.length_append] at hlength
        omega
      have hrest : ∀ t u : Turn, t.Alike u → t.replica.Steady →
          Serves pipe (u.serve portion.rest)
            (run aggregate Turn.handler rounds ⟨t, { pipe with queue := portion.rest }⟩) :=
        fun t u halike hsteady => ih halike hsteady hshorter
      show Serves pipe _ (andThen _
        (deliverAll Turn.handler ⟨t, { pipe with queue := portion.rest }⟩ portion.events))
      obtain ⟨hnext, hqueue⟩ | ⟨batch, -, hbatch, hfirst, hqueue, -⟩ := portion_cases hportion
      · rw [hqueue, Portion.events, hnext, Option.toList_none, deliverAll_singleton]
        exact serves_deliver pipe halike hsteady portion.first hrest
      · have halike' : (t.onWriteAheads batch).Alike (u.writeEach batch) := by
          obtain ⟨write, rest, rfl⟩ := List.exists_cons_of_ne_nil hbatch
          have hone := Turn.alike_writeEach hsteady [write] rest
          exact hone.symm.trans (halike.congr (·.writeEach (write :: rest))
            fun t before => t.writeEach_behind before _)
        have hsteady' : (t.onWriteAheads batch).replica.Steady := by
          have hhandled := Turn.steady_handle hsteady (.ofBatch batch)
          rwa [Turn.handle_ofBatch] at hhandled
        rw [hqueue, Portion.events, hfirst, List.append_assoc, Turn.serve_writes, deliverAll_ofBatch]
        cases portion.next with
        | none => exact hrest _ _ halike' hsteady'
        | some event =>
          rw [Option.toList_some, deliverAll_singleton]
          exact serves_deliver pipe halike' hsteady' event hrest

end Loop

namespace Life

/-- Whether a replica is served by the aggregating loop or by the plain one: a queue that waits in a pipe
that nothing else feeds is handled with the same result, and leaves the same replica and the same events in
the pipe.  The same entries go on the commit stream, the same news is published, everybody who waits is
answered the same, and all else that is done is the same, but for the requests for entries. -/
theorem batching_transparent (life : Life) (k : Nat) (pipe : Pipe Event) :
    let feed : Feed Turn := ⟨Turn.start (life.state k), pipe⟩
    let alone := Loop.run false Turn.handler (pipe.queue.length + 1) feed
    let together := Loop.run true Turn.handler (pipe.queue.length + 1) feed
    together.2 = alone.2 ∧ alone.2 ≠ .busy ∧
    together.1.state.replica = alone.1.state.replica ∧ together.1.pipe = alone.1.pipe ∧
    together.1.state.committed = alone.1.state.committed ∧
    together.1.state.published = alone.1.state.published ∧
    together.1.state.answers = alone.1.state.answers ∧
    together.1.state.asides = alone.1.state.asides := by
  have hsteady : (Turn.start (life.state k)).replica.Steady := life.steady k
  have hserves : ∀ aggregate, Loop.Serves pipe ((Turn.start (life.state k)).serve pipe.queue)
      (Loop.run aggregate Turn.handler (pipe.queue.length + 1) ⟨Turn.start (life.state k), pipe⟩) :=
    fun aggregate => Loop.serves_run aggregate _ pipe (.refl _) hsteady (Nat.lt_succ_self _)
  obtain ⟨halike, hleft, hresult⟩ := hserves true
  obtain ⟨halike', hleft', hresult'⟩ := hserves false
  have halikes := halike.trans halike'.symm
  refine ⟨hresult.trans hresult'.symm, ?_, halikes.replica, hleft.trans hleft'.symm,
    halikes.committed, halikes.published, halikes.answers, halikes.asides⟩
  rw [hresult']
  exact Loop.ending_ne_busy pipe _

end Life

end RaftReplica
