import RaftReplica.Proofs.Replica.Tenure
import RaftReplica.Service.Basic
import RaftReplica.Simulation.Drive

/-!
# Every request is answered once

Whoever waits on an event is answered when the event is handled: once, in the order in which they wait, and
with what is true of the replica then.  Nobody is answered at any other time.  So those whose event was still
queued when the loop ended hear nothing at all, and take that for what it is.

* `Replica.Answers` is what is answered to each kind of event, and `Replica.Books` what becomes of a batch of
  write-aheads.
* `tickets_handle` says under which tickets an event is answered, `tickets_serve` says it for a queue.
* `Turn.Hears` is what callers make of an answer, and `hears_of_mem` says that they do.
* `Tenure.through_of` accounts for all events that a pipe has taken: those that were handled have been
  answered, in order, and the others have not.
* `requests_answered_once` sums up.
-/

namespace RaftReplica

/-! ## Tickets -/

namespace Event

theorem tickets_expand (event : Event) : event.expand.flatMap tickets = event.tickets := by
  cases event with
  | aggregatedWriteAhead batch =>
    show (batch.map writeAhead).flatMap tickets = batch.filterMap (·.ticket)
    induction batch with
    | nil => rfl
    | cons write rest ih =>
      rw [List.map_cons, List.flatMap_cons, ih]
      cases hticket : write.ticket <;> simp [tickets, hticket]
  | error | writeAhead | heartbeatTimeout | electionTimeout | voteRequest | voteReply | appendRequest
    | appendReply => exact List.append_nil _

/-- Whether write-aheads wait by themselves or in a batch, the same tickets wait. -/
theorem tickets_expandAll (events : List Event) :
    (expandAll events).flatMap tickets = events.flatMap tickets := by
  induction events with
  | nil => rfl
  | cons event rest ih =>
    rw [expandAll_cons, List.flatMap_append, tickets_expand, ih, List.flatMap_cons]

end Event

/-- A batch is answered under its tickets in order. -/
theorem WriteAhead.map_fst_answers (answer : Nat → Answer) (first : Nat) (batch : List WriteAhead) :
    (answers answer first batch).map Prod.fst = batch.filterMap (·.ticket) := by
  induction batch generalizing first with
  | nil => rfl
  | cons write rest ih =>
    rw [answers_cons, List.map_append, ih]
    cases hticket : write.ticket <;> simp [hticket]

/-- Places may as well be counted from further back. -/
theorem WriteAhead.answers_add (answer : Nat → Answer) (before first : Nat) (batch : List WriteAhead) :
    answers answer (before + first) batch = answers (fun i => answer (before + i)) first batch := by
  induction batch generalizing first with
  | nil => rfl
  | cons write rest ih => rw [answers_cons, answers_cons, Nat.add_assoc, ih]

/-! ## What is answered to an event -/

namespace Replica

/-- What a batch of write-aheads makes of a replica, and what it hears of it. -/
inductive Books (r : Replica) (batch : List WriteAhead) (t : Turn) : Prop
  /-- A leader answers each with its place behind the log as it was, and appends all of them in order.  Of
  itself it changes nothing else but what is committed, and besides the answers there are at most entries for
  the commit stream and for the peers. -/
  | written (leads : r.role = .leader)
      (answers : t.answers =
        WriteAhead.answers (fun i => .receipt r.term (r.log.lastIndex + i)) 1 batch)
      (replica : ∃ commitIndex lastApplied, t.replica =
        { r with log := r.log.appendAll r.term (batch.map (·.data)), commitIndex, lastApplied })
      (asides : t.asides = [])
  /-- Anybody else answers each with the leader it knows of, and does nothing else. -/
  | refused (idle : r.role ≠ .leader)
      (answers : t.answers = WriteAhead.answers (fun _ => .refusal (.notLeader r.leader)) 1 batch)
      (replica : t.replica = r)
      (effects : t.effects = t.answers.map fun given => .answer given.1 given.2)

/-- What is answered to an event. -/
def Answers (r : Replica) (t : Turn) : Event → Prop
  | .voteRequest _ ticket =>
    ∃ granted, t.answers = [(ticket, .vote ⟨r.name, t.replica.term, granted⟩)]
  | .appendRequest _ ticket =>
    ∃ success index, t.answers =
      [(ticket, .append ⟨r.name, t.replica.term, success, index, t.replica.commitIndex⟩)]
  | .writeAhead write => r.Books [write] t
  | .aggregatedWriteAhead batch => r.Books batch t
  | .error _ | .heartbeatTimeout | .electionTimeout | .voteReply _ | .appendReply _ => t.answers = []

end Replica

namespace Turn

variable (t : Turn)

/-- To refuse a batch is to answer it, and to do nothing else. -/
theorem effects_foldl_refuseOne (batch : List WriteAhead) (first : Nat) :
    (batch.foldl refuseOne t).effects = t.effects ++
      (WriteAhead.answers (fun _ => .refusal (.notLeader t.replica.leader)) first batch).map
        fun given => .answer given.1 given.2 := by
  induction batch generalizing t first with
  | nil => simp
  | cons write rest ih =>
    have hleader : (t.refuseOne write).replica.leader = t.replica.leader := by
      rw [refuseOne, replica_respond]
    rw [List.foldl_cons, ih _ (first + 1), hleader, WriteAhead.answers_cons, List.map_append,
      ← List.append_assoc]
    congr 1
    unfold refuseOne respond
    cases write.ticket <;> simp

end Turn

namespace Replica

variable (r : Replica)

theorem books_onWriteAheads (batch : List WriteAhead) :
    r.Books batch ((Turn.start r).onWriteAheads batch) := by
  have hquiet : (Turn.start r).answers = [] := rfl
  by_cases hrole : r.role = .leader
  · refine .written hrole ?_ ((Turn.start r).exists_replica_onWriteAheads batch hrole) ?_
    · rw [Turn.answers_onWriteAheads_of_leader _ batch hrole, hquiet, List.nil_append]
      exact WriteAhead.answers_add _ r.log.lastIndex 1 batch
    · rw [Turn.onWriteAheads_of_leader batch hrole, (Turn.alike_replicate _).asides,
        Turn.asides_advanceCommitIndex]
      exact (Turn.start r).eq_of_foldl Turn.asides (fun t => t.asides_writeOne) batch
  · have hturn := (Turn.start r).onWriteAheads_of_not_leader batch hrole
    have hanswers := (Turn.start r).answers_foldl_refuseOne batch 1
    have heffects := (Turn.start r).effects_foldl_refuseOne batch 1
    rw [hquiet, List.nil_append] at hanswers
    rw [Turn.effects_start, List.nil_append] at heffects
    refine .refused hrole ?_ ?_ ?_
    · rw [hturn, hanswers]
      rfl
    · rw [hturn, Turn.replica_foldl_refuseOne]
      rfl
    · rw [hturn, heffects, hanswers]

/-- **What is answered to an event**, whatever the replica is. -/
theorem answers_handle (event : Event) : r.Answers (r.handle event).1 event := by
  have hname : (r.handle event).1.replica.name = r.name := (r.handles_handle event).same.name
  cases event with
  | error message => exact rfl
  | writeAhead write => exact r.books_onWriteAheads [write]
  | aggregatedWriteAhead batch => exact r.books_onWriteAheads batch
  | heartbeatTimeout =>
    show (Turn.start r).onHeartbeatTimeout.answers = []
    unfold Turn.onHeartbeatTimeout
    split
    · exact Turn.answers_replicate _
    · rfl
  | electionTimeout => exact (Turn.start r).answers_onElectionTimeout
  | voteRequest request ticket =>
    obtain ⟨granted, hanswers, -⟩ := r.answers_voteRequest request ticket
    rw [voteReply, hname] at hanswers
    exact ⟨granted, hanswers⟩
  | voteReply reply => exact r.answers_ofReply (.vote reply)
  | appendRequest request ticket =>
    obtain ⟨success, index, hanswers, -⟩ := r.answers_appendRequest request ticket
    rw [appendReply, hname] at hanswers
    exact ⟨success, index, hanswers⟩
  | appendReply reply => exact r.answers_ofReply (.append reply)

variable {r}

theorem Books.tickets {batch : List WriteAhead} {t : Turn} (h : r.Books batch t) :
    t.answers.map Prod.fst = batch.filterMap (·.ticket) := by
  cases h with
  | written leads answers => rw [answers, WriteAhead.map_fst_answers]
  | refused idle answers => rw [answers, WriteAhead.map_fst_answers]

theorem Answers.tickets {t : Turn} {event : Event} (h : r.Answers t event) :
    t.answers.map Prod.fst = event.tickets := by
  cases event with
  | voteRequest request ticket =>
    obtain ⟨granted, hanswers⟩ := h
    rw [hanswers]
    rfl
  | appendRequest request ticket =>
    obtain ⟨success, index, hanswers⟩ := h
    rw [hanswers]
    rfl
  | writeAhead write =>
    rw [Books.tickets h]
    show [write].filterMap (·.ticket) = write.ticket.toList
    cases hticket : write.ticket <;> simp [hticket]
  | aggregatedWriteAhead batch => exact Books.tickets h
  | error | heartbeatTimeout | electionTimeout | voteReply | appendReply =>
    exact congrArg (List.map Prod.fst) h

end Replica

/-! ## Who has been answered so far -/

namespace Turn

variable {t next : Turn}

/-- An event is answered under its tickets, behind all that has been answered. -/
theorem tickets_handle (t : Turn) (event : Event) :
    (t.handle event).1.answers.map Prod.fst = t.answers.map Prod.fst ++ event.tickets := by
  rw [t.handle_eq event]
  show ((t.effects ++ (t.replica.handle event).1.effects).filterMap Effect.answer?).map Prod.fst = _
  rw [List.filterMap_append, List.map_append]
  exact congrArg _ (t.replica.answers_handle event).tickets

theorem tickets_serve {handled : List Event} {result : Except ReplicaError Unit}
    (h : t.serve handled = (next, [], result)) :
    next.answers.map Prod.fst = t.answers.map Prod.fst ++ handled.flatMap Event.tickets := by
  induction handled generalizing t with
  | nil =>
    cases h
    exact (List.append_nil _).symm
  | cons event rest ih =>
    have hfirst := t.tickets_handle event
    obtain ⟨between, hhandle, hrest⟩ | ⟨error, hfails, rfl, -⟩ := serve_cons_cases h
    · rw [hhandle] at hfirst
      rw [ih hrest, hfirst, List.flatMap_cons, List.append_assoc]
    · rw [hfails] at hfirst
      rw [hfirst, List.flatMap_cons, List.flatMap_nil, List.append_nil]

@[simp] theorem answers_prepareStopped (t : Turn) : t.prepareStopped.answers = t.answers := by
  unfold prepareStopped
  split <;> simp

@[simp] theorem answers_prepareRunning (t : Turn) : t.prepareRunning.1.answers = t.answers := by
  unfold prepareRunning
  split
  · rfl
  · cases hconnect : t.replica.peers.connect t.replica.settings.connect with
    | mk peers result => cases result <;> simp

/-- Nobody is answered because the replica takes a role. -/
theorem answers_enter (t : Turn) (role : Role) : (t.enter role).1.answers = t.answers := by
  cases role with
  | stopped => simp [enter]
  | initialized => simp [enter]
  | running =>
    have hrunning := t.answers_prepareRunning
    unfold enter
    cases hprepare : t.prepareRunning with
    | mk prepared result =>
      rw [hprepare] at hrunning
      cases result <;> simp [hrunning]
  | follower => simp [enter]
  | candidate =>
    simp only [enter, prepareCandidate]
    cases t.leaveOffice.replica.quorum.election with
    | error cause => rfl
    | ok election => simp
  | leader => simp [enter]

theorem answers_enterAll (t : Turn) (roles : List Role) : (t.enterAll roles).1.answers = t.answers := by
  induction roles generalizing t with
  | nil => rfl
  | cons role roles ih =>
    have hfirst := t.answers_enter role
    unfold enterAll
    cases hentered : t.enter role with
    | mk entered result =>
      rw [hentered] at hfirst
      cases result with
      | ok => exact (ih entered).trans hfirst
      | error error => exact hfirst

/-- Nobody is answered because the loop ends, be it that the replica stops or that it comes apart. -/
theorem answers_conclude (t : Turn) (result : Except ReplicaError Unit) :
    (t.conclude result).answers = t.answers := by
  unfold conclude
  split
  · exact t.answers_enter .stopped
  · simp [unwind]
  · exact (t.update _).answers_enter .stopped

end Turn

/-! ## Callers -/

namespace Turn

variable {t : Turn} {ticket : Ticket} {answer : Answer}

/-- Nobody is answered under a ticket that no answer bears. -/
theorem answerTo?_eq_none (h : ticket ∉ t.answers.map Prod.fst) : t.answerTo? ticket = none := by
  rw [answerTo?, Option.map_eq_none_iff, List.find?_eq_none]
  rintro ⟨given, answer⟩ hgiven heq
  exact h (List.mem_map.mpr ⟨_, hgiven, of_decide_eq_true heq⟩)

/-- Under a ticket that only one answer bears that one is found. -/
theorem answerTo?_eq_some (hgiven : (ticket, answer) ∈ t.answers)
    (hone : (t.answers.map Prod.fst).count ticket = 1) : t.answerTo? ticket = some answer := by
  obtain ⟨before, after, hanswers⟩ := List.append_of_mem hgiven
  have hbefore : (before.map Prod.fst).count ticket = 0 := by
    rw [hanswers, List.map_append, List.map_cons, List.count_append, List.count_cons_self] at hone
    omega
  have hnone : before.find? (fun given => decide (given.1 = ticket)) = none := by
    rw [List.find?_eq_none]
    intro given hmem heq
    exact List.count_eq_zero.mp hbefore (List.mem_map.mpr ⟨given, hmem, of_decide_eq_true heq⟩)
  rw [answerTo?, hanswers, List.find?_append, hnone, Option.none_or]
  simp

/-- What those hear who wait under a ticket and are given this answer: with data to write the place of it, or
why it has none, and with a request of another replica the reply. -/
structure Hears (t : Turn) (ticket : Ticket) (answer : Answer) : Prop where
  given : t.answerTo? ticket = some answer
  placed : ∀ term index, answer = .receipt term index →
    Simulation.receiptOf (t.answerTo? ticket) = .ok (term, index)
  refused : ∀ error, answer = .refusal error → Simulation.receiptOf (t.answerTo? ticket) = .error error
  replied : ∀ reply, answer.reply? = some reply → ∀ request : Event,
    Service.settled request (some request) (Service.treatment (t.answerTo? ticket)) = .replied reply

/-- Whoever waits under a ticket of their own hears the answer that bears it. -/
theorem hears_of_mem (hgiven : (ticket, answer) ∈ t.answers)
    (hone : (t.answers.map Prod.fst).count ticket = 1) : t.Hears ticket answer := by
  have hfound := answerTo?_eq_some hgiven hone
  refine ⟨hfound, ?placed, ?refused, ?replied⟩
  case placed =>
    rintro term index rfl
    rw [hfound]
    rfl
  case refused =>
    rintro error rfl
    rw [hfound]
    rfl
  case replied =>
    intro reply hreply request
    rw [hfound, Service.treatment, Option.bind_some, hreply, Service.settled, if_pos rfl]

end Turn

namespace Tenure

/-- Those whose event has been handled have been answered, in the order of the events, and nobody else has. -/
theorem Through.tickets {r : Replica} {events : List Event} {last : Turn} {result : Except ReplicaError Unit}
    (h : Through r events last result) : last.answers.map Prod.fst = events.flatMap Event.tickets := by
  obtain ⟨handled, hserve, hsame⟩ := h
  have hquiet : r.booted.1.answers = [] := Turn.answers_enterAll _ _
  rw [Turn.tickets_serve hserve, hquiet, ← Event.tickets_expandAll events, hsame,
    Event.tickets_expandAll]
  rfl

/-- Once the loop has ended, the pipe is empty.  What it had taken has been handled or dropped, and nobody has
been answered since. -/
theorem through_of {r : Replica} {incidents : List Incident}
    (hended : (of r incidents).served.ended ≠ none) :
    let k := of r incidents
    k.served.pipe.queue = [] ∧ k.served.turn.answers = k.last.answers ∧
      ∃ handled dropped result, k.taken = handled ++ dropped ∧ Through r handled k.last result := by
  intro k
  have hstands : k.Stands r := stands_of r incidents
  cases hstands with
  | unbooted boots ended turn shut left taken =>
    refine ⟨left, ?_, [], [], .ok (), taken, [], ?_, rfl⟩
    · rw [turn]
      exact k.last.answers_enter .stopped
    · rw [boots]
      rfl
  | serving boots ended => exact absurd ended hended
  | @concluded handled dropped result boots ended turn through shut left taken =>
    refine ⟨left, ?_, handled, dropped, result, taken, through⟩
    rw [turn, Turn.answers_conclude]

end Tenure

/-- **Every request is answered once, and write-aheads are answered exactly.**

Whatever a serving replica has been through and whatever event comes, those who wait on the event are
answered, each once, and nobody else.  A request for a vote or to append gets one reply, with the name of the
replica and the term that it is then in.  A batch of write-aheads is appended as a whole and each is told its
place, if the replica leads; otherwise each is told who does, and nothing changes.  Whoever waits under a
ticket of their own hears what has been answered under it.

Whatever befalls a served replica, once its loop has ended nothing is left in the pipe.  The events that the
pipe had taken are those that were handled and those that were dropped; the former have been answered in
order, and the latter have not, so that their callers learn that the replica has stopped. -/
theorem requests_answered_once :
    (∀ (life : Life) (k : Nat) (event : Event),
      let r := life.state k
      let t := (r.handle event).1
      r.name = life.name ∧ r.Answers t event ∧ t.answers.map Prod.fst = event.tickets ∧
        ∀ given ∈ t.answers, event.tickets.count given.1 = 1 → t.Hears given.1 given.2) ∧
    ∀ (r : Replica) (incidents : List Incident),
      let k := Tenure.of r incidents
      k.served.ended ≠ none → k.served.pipe.queue = [] ∧
        ∃ handled dropped result, k.taken = handled ++ dropped ∧ Tenure.Through r handled k.last result ∧
          k.served.turn.answers = k.last.answers ∧
          k.last.answers.map Prod.fst = handled.flatMap Event.tickets ∧
          (∀ given ∈ k.last.answers, (handled.flatMap Event.tickets).count given.1 = 1 →
            k.served.turn.Hears given.1 given.2) ∧
          ∀ event ∈ dropped, ∀ ticket ∈ event.tickets, ticket ∉ handled.flatMap Event.tickets →
            let given := k.served.turn.answerTo? ticket
            given = none ∧ Simulation.receiptOf given = .error .stopped ∧
              Service.settled event (some event) (Service.treatment given) =
                .refused Service.stoppedBeforeReplying := by
  refine ⟨fun life k event => ?_, fun r incidents => ?_⟩
  · intro r t
    have hanswers : r.Answers t event := r.answers_handle event
    refine ⟨life.name_state k, hanswers, hanswers.tickets, fun given hgiven hone => ?_⟩
    exact Turn.hears_of_mem hgiven (hanswers.tickets.symm ▸ hone)
  · intro k hended
    obtain ⟨hempty, hsame, handled, dropped, result, htaken, hthrough⟩ := Tenure.through_of hended
    have htickets : k.served.turn.answers.map Prod.fst = handled.flatMap Event.tickets := by
      rw [hsame, hthrough.tickets]
    refine ⟨hempty, handled, dropped, result, htaken, hthrough, hsame, hthrough.tickets, ?heard, ?unheard⟩
    case heard =>
      intro given hgiven hone
      exact Turn.hears_of_mem (hsame ▸ hgiven) (htickets ▸ hone)
    case unheard =>
      intro event hevent ticket hticket hother given
      have hnone : given = none := Turn.answerTo?_eq_none (htickets ▸ hother)
      rw [hnone]
      refine ⟨rfl, rfl, ?_⟩
      show Service.settled event (some event) .drop = _
      exact if_pos rfl

/-- `a` is elected with the vote of `b`, writes, and is stopped with a request and a write-ahead in its
pipe. -/
def stoppedEarly : List Incident := [
  .send .electionTimeout,
  .send (.voteReply ⟨"b", 1, true⟩),
  .send (.writeAhead ⟨[1], some 7⟩),
  .run 3,
  .send (.voteRequest ⟨2, "b", 9, 1⟩ 8),
  .send (.writeAhead ⟨[2], some 9⟩),
  .stop]

/-- A new leader puts a batch of three behind its empty log, and answers the two that are waited for.  The
other leader is stopped, and only the first of those who wait on it hears from it. -/
theorem requests_answered_once_stopped :
    let r := (Life.sample [.electionTimeout, .voteReply ⟨"b", 1, true⟩]).state 2
    let t := (r.handle (.aggregatedWriteAhead [⟨[1], some 4⟩, ⟨[2], none⟩, ⟨[3], some 5⟩])).1
    let k := Tenure.of Tenure.sample stoppedEarly
    let request := Event.voteRequest ⟨2, "b", 9, 1⟩ 8
    (t.answers = [(4, .receipt 1 1), (5, .receipt 1 3)] ∧
      Simulation.receiptOf (t.answerTo? 5) = .ok (1, 3)) ∧
    k.served.ended ≠ none ∧ k.served.pipe.queue = [] ∧ k.served.turn.answers = [(7, .receipt 1 1)] ∧
      Simulation.receiptOf (k.served.turn.answerTo? 7) = .ok (1, 1) ∧
      Simulation.receiptOf (k.served.turn.answerTo? 9) = .error .stopped ∧
      Service.settled request (some request) (Service.treatment (k.served.turn.answerTo? 8)) =
        .refused Service.stoppedBeforeReplying := by
  intro r t k request
  refine ⟨?batch, ?stopped⟩
  case batch =>
    obtain ⟨-, hbooks, -, hheard⟩ := requests_answered_once.1
      (Life.sample [.electionTimeout, .voteReply ⟨"b", 1, true⟩]) 2
      (.aggregatedWriteAhead [⟨[1], some 4⟩, ⟨[2], none⟩, ⟨[3], some 5⟩])
    have hleads : r.role = .leader := by decide +kernel
    have hlead : r.term = 1 ∧ r.log.lastIndex = 0 := by decide +kernel
    cases hbooks with
    | refused idle => exact absurd hleads idle
    | written leads answers =>
      rw [hlead.1, hlead.2] at answers
      have hlast := hheard (5, .receipt 1 3) (by rw [answers]; simp [WriteAhead.answers]) (by decide)
      exact ⟨answers, hlast.placed 1 3 rfl⟩
  case stopped =>
    have hended : k.served.ended ≠ none := by
      have hsome : k.served.ended.isSome = true := by decide +kernel
      intro hnone
      rw [hnone] at hsome
      cases hsome
    have hanswers : k.served.turn.answers = [(7, .receipt 1 1)] := by decide +kernel
    have htaken : k.taken = [.electionTimeout, .voteReply ⟨"b", 1, true⟩, .writeAhead ⟨[1], some 7⟩,
        .voteRequest ⟨2, "b", 9, 1⟩ 8, .writeAhead ⟨[2], some 9⟩] := by decide +kernel
    have hsettled := requests_answered_once.2 Tenure.sample stoppedEarly
    have hk : Tenure.of Tenure.sample stoppedEarly = k := rfl
    clear_value k
    rw [hk] at hsettled
    obtain ⟨hempty, handled, dropped, result, hall, -, hlast, htickets, hheard, hdropped⟩ := hsettled hended
    have hone : handled.flatMap Event.tickets = [7] := by
      rw [← htickets, ← hlast, hanswers]
      rfl
    -- whoever waits under another ticket than that has been dropped
    have hmem : ∀ event ∈ k.taken, ∀ ticket ∈ event.tickets, ticket ≠ 7 → event ∈ dropped := by
      intro event hevent ticket hticket hne
      rw [hall] at hevent
      refine (List.mem_append.mp hevent).resolve_left fun hhandled => hne ?_
      exact List.mem_singleton.mp (hone ▸ List.mem_flatMap.mpr ⟨event, hhandled, hticket⟩)
    have hrequest : request ∈ dropped := hmem _ (by simp [htaken, request]) 8 (by decide) (by decide)
    have hwrite : Event.writeAhead ⟨[2], some 9⟩ ∈ dropped :=
      hmem _ (by simp [htaken]) 9 (by decide) (by decide)
    have hfirst := hheard (7, .receipt 1 1) (by simp [← hlast, hanswers]) (by rw [hone]; decide)
    obtain ⟨-, hstopped, -⟩ := hdropped _ hwrite 9 (by decide) (by rw [hone]; decide)
    obtain ⟨-, -, hrefused⟩ := hdropped _ hrequest 8 (by decide) (by rw [hone]; decide)
    exact ⟨hended, hempty, hanswers, hfirst.placed 1 1 rfl, hstopped, hrefused⟩

end RaftReplica
