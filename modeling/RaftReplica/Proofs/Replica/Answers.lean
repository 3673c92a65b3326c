import RaftReplica.Proofs.Replica.Outcome

/-!
# Who is answered, and what

Whoever waits for a write-ahead is answered in the order of the batch, either with the place of the data
in the leader's log or with who leads instead.  A vote is an answer to a request for it and to nothing
else.

* `WriteAhead.answers` is the list of answers to a batch, and `WriteAhead.getElem?_answers` finds the one
  to a given write-ahead in it.
* `answers_onWriteAheads_of_leader` and `answers_onWriteAheads_of_not_leader`: a leader answers a batch
  with receipts, anybody else with refusals.
* `eq_of_receipt` reads off a receipt who has given it and where the data stands.
* `voteRequest_of_mem_answers`: whoever gets a vote has asked for it.
-/

namespace RaftReplica

/-! ## Batches -/

namespace WriteAhead

/-- The answers to a batch, one to each write-ahead that somebody waits for.  What is answered depends on
the place in the batch, with places counted from `first` on. -/
def answers (answer : Nat → Answer) (first : Nat) (batch : List WriteAhead) :
    List (Ticket × Answer) :=
  (batch.zipIdx first).filterMap fun (write, place) =>
    write.ticket.map fun ticket => (ticket, answer place)

/-- How many answers come before the one to the write-ahead at a place. -/
def answersBefore (batch : List WriteAhead) (place : Nat) : Nat :=
  ((batch.take place).filterMap (·.ticket)).length

variable (answer : Nat → Answer) (first : Nat)

@[simp] theorem answers_nil : answers answer first [] = [] := rfl

theorem answers_cons (write : WriteAhead) (rest : List WriteAhead) :
    answers answer first (write :: rest) =
      (write.ticket.map fun ticket => (ticket, answer first)).toList ++
        answers answer (first + 1) rest := by
  unfold answers
  rw [List.zipIdx_cons]
  cases hticket : write.ticket with
  | none => simp [hticket]
  | some ticket => simp [hticket]

/-- Whatever is answered to a batch depends on the place alone. -/
theorem exists_of_mem_answers {batch : List WriteAhead} {ticket : Ticket} {given : Answer}
    (h : (ticket, given) ∈ answers answer first batch) : ∃ place, given = answer place := by
  obtain ⟨⟨write, place⟩, -, hgiven⟩ := List.mem_filterMap.mp h
  obtain ⟨waiting, -, heq⟩ := Option.map_eq_some_iff.mp hgiven
  obtain ⟨-, rfl⟩ := Prod.mk.inj heq
  exact ⟨place, rfl⟩

/-- The answer to the write-ahead at a place comes after those to the ones before it. -/
theorem getElem?_answers {batch : List WriteAhead} {place : Nat} {write : WriteAhead}
    {ticket : Ticket} (h : batch[place]? = some write) (hticket : write.ticket = some ticket) :
    (answers answer first batch)[answersBefore batch place]? =
      some (ticket, answer (first + place)) := by
  induction batch generalizing first place with
  | nil => cases h
  | cons head rest ih =>
    rw [answers_cons]
    cases place with
    | zero =>
      obtain rfl : head = write := Option.some.inj h
      simp [answersBefore, hticket]
    | succ place =>
      have hrest : rest[place]? = some write := h
      have hplace : first + (place + 1) = first + 1 + place := by omega
      rw [hplace, ← ih (first + 1) hrest]
      cases hhead : head.ticket with
      | none => simp [answersBefore, hhead]
      | some waiting => simp [answersBefore, hhead]

end WriteAhead

namespace Turn

variable (t : Turn)

theorem answers_respond (write : WriteAhead) (answer : Answer) :
    (t.respond write answer).answers =
      t.answers ++ (write.ticket.map fun ticket => (ticket, answer)).toList := by
  unfold respond
  cases hticket : write.ticket with
  | none => simp
  | some ticket => simp [Effect.answer?]

/-- Writing one after the other answers with one index after the other. -/
theorem answers_foldl_writeOne (batch : List WriteAhead) :
    (batch.foldl writeOne t).answers = t.answers ++
      WriteAhead.answers (.receipt t.replica.term) (t.replica.log.lastIndex + 1) batch := by
  induction batch generalizing t with
  | nil => simp
  | cons write rest ih =>
    have hlast : (t.writeOne write).replica.log.lastIndex = t.replica.log.lastIndex + 1 := by
      simp [writeOne]
    have hterm : (t.writeOne write).replica.term = t.replica.term := by
      simp [writeOne]
    have hanswers : (t.writeOne write).answers = t.answers ++
        (write.ticket.map fun ticket =>
          (ticket, Answer.receipt t.replica.term (t.replica.log.lastIndex + 1))).toList := by
      simp [writeOne, answers_respond]
    rw [List.foldl_cons, ih, hlast, hterm, hanswers, WriteAhead.answers_cons, List.append_assoc]

/-- A refusal says who leads, wherever in the batch it is given. -/
theorem answers_foldl_refuseOne (batch : List WriteAhead) (first : Nat) :
    (batch.foldl refuseOne t).answers = t.answers ++
      WriteAhead.answers (fun _ => .refusal (.notLeader t.replica.leader)) first batch := by
  induction batch generalizing t first with
  | nil => simp
  | cons write rest ih =>
    have hleader : (t.refuseOne write).replica.leader = t.replica.leader := by
      simp [refuseOne]
    have hanswers : (t.refuseOne write).answers = t.answers ++
        (write.ticket.map fun ticket =>
          (ticket, Answer.refusal (.notLeader t.replica.leader))).toList := by
      simp [refuseOne, answers_respond]
    rw [List.foldl_cons, ih (t.refuseOne write) (first + 1), hleader, hanswers,
      WriteAhead.answers_cons, List.append_assoc]

theorem answers_onWriteAheads_of_leader (batch : List WriteAhead)
    (hleads : t.replica.role = .leader) :
    (t.onWriteAheads batch).answers = t.answers ++
      WriteAhead.answers (.receipt t.replica.term) (t.replica.log.lastIndex + 1) batch := by
  rw [onWriteAheads, if_pos hleads, answers_replicate, answers_advanceCommitIndex,
    answers_foldl_writeOne]

theorem answers_onWriteAheads_of_not_leader (batch : List WriteAhead)
    (hidle : t.replica.role ≠ .leader) :
    (t.onWriteAheads batch).answers = t.answers ++
      WriteAhead.answers (fun _ => .refusal (.notLeader t.replica.leader)) 0 batch := by
  rw [t.onWriteAheads_of_not_leader batch hidle, answers_foldl_refuseOne]

/-- What is answered to a batch is a receipt or a refusal. -/
theorem receipt_or_refusal_of_mem_answers (batch : List WriteAhead) (hquiet : t.answers = [])
    {ticket : Ticket} {answer : Answer} (h : (ticket, answer) ∈ (t.onWriteAheads batch).answers) :
    (∃ term index, answer = .receipt term index) ∨ ∃ error, answer = .refusal error := by
  by_cases hrole : t.replica.role = .leader
  · rw [t.answers_onWriteAheads_of_leader batch hrole, hquiet, List.nil_append] at h
    obtain ⟨place, hplace⟩ := WriteAhead.exists_of_mem_answers _ _ h
    exact Or.inl ⟨_, place, hplace⟩
  · rw [t.answers_onWriteAheads_of_not_leader batch hrole, hquiet, List.nil_append] at h
    obtain ⟨place, hplace⟩ := WriteAhead.exists_of_mem_answers _ _ h
    exact Or.inr ⟨_, hplace⟩

theorem answers_onElectionTimeout : t.onElectionTimeout.1.answers = t.answers := by
  rcases t.onElectionTimeout_cases with
    h | ⟨-, ⟨cause, -, h⟩ | ⟨election, -, ⟨-, h⟩ | h⟩⟩
  · rw [h]
  · simp [h]
  · simp [h]
  · simp [h, Effect.answer?]

end Turn

namespace Replica

variable {r : Replica} {event : Event} {ticket : Ticket}

/-- An event that carries write-aheads is handled as their batch. -/
theorem handle_of_writes {place : Nat} {write : WriteAhead}
    (h : event.writes[place]? = some write) :
    (r.handle event).1 = (Turn.start r).onWriteAheads event.writes := by
  unfold handle Turn.handle
  cases event with
  | writeAhead write => rfl
  | aggregatedWriteAhead batch => rfl
  | error | heartbeatTimeout | electionTimeout | voteRequest | voteReply | appendRequest
    | appendReply => cases h

/-- **A receipt tells where the data stands.**  Whoever gives one for a write-ahead leads, and names its
term and the place behind its log that the data has in the batch. -/
theorem eq_of_receipt {place term index : Nat} {write : WriteAhead}
    (hwrite : event.writes[place]? = some write) (hticket : write.ticket = some ticket)
    (hreceipt : (r.handle event).1.answers[WriteAhead.answersBefore event.writes place]? =
      some (ticket, .receipt term index)) :
    r.role = .leader ∧ term = r.term ∧ index = r.log.entries.length + 1 + place := by
  have hquiet : (Turn.start r).answers = [] := rfl
  rw [handle_of_writes hwrite] at hreceipt
  by_cases hrole : r.role = .leader
  · rw [Turn.answers_onWriteAheads_of_leader _ _ hrole, hquiet, List.nil_append,
      WriteAhead.getElem?_answers _ _ hwrite hticket] at hreceipt
    cases hreceipt
    exact ⟨hrole, rfl, rfl⟩
  · rw [Turn.answers_onWriteAheads_of_not_leader _ _ hrole, hquiet, List.nil_append,
      WriteAhead.getElem?_answers _ _ hwrite hticket] at hreceipt
    cases hreceipt

/-- **Whoever gets a vote has asked for it.** -/
theorem voteRequest_of_mem_answers {reply : VoteReply}
    (h : (ticket, .vote reply) ∈ (r.handle event).1.answers) :
    ∃ request, event = .voteRequest request ticket := by
  have hquiet : (Turn.start r).answers = [] := rfl
  have hbatch : ∀ batch, (ticket, .vote reply) ∉ ((Turn.start r).onWriteAheads batch).answers := by
    intro batch hmem
    rcases Turn.receipt_or_refusal_of_mem_answers _ batch hquiet hmem with
      ⟨term, index, hreceipt⟩ | ⟨error, hrefusal⟩
    · cases hreceipt
    · cases hrefusal
  cases event with
  | error message => cases h
  | writeAhead write => exact absurd h (hbatch [write])
  | aggregatedWriteAhead batch => exact absurd h (hbatch batch)
  | heartbeatTimeout =>
    simp only [handle, Turn.handle, Turn.onHeartbeatTimeout] at h
    split at h
    · rw [Turn.answers_replicate, hquiet] at h
      cases h
    · cases h
  | electionTimeout =>
    simp only [handle, Turn.handle, Turn.answers_onElectionTimeout, hquiet] at h
    cases h
  | voteRequest request given =>
    obtain ⟨granted, hanswers, -⟩ := r.answers_voteRequest request given
    rw [hanswers, List.mem_singleton] at h
    cases h
    exact ⟨request, rfl⟩
  | voteReply reply =>
    have hnobody := r.answers_ofReply (.vote reply)
    rw [Event.ofReply] at hnobody
    rw [hnobody] at h
    cases h
  | appendRequest request given =>
    obtain ⟨success, index, hanswers, -⟩ := r.answers_appendRequest request given
    rw [hanswers, List.mem_singleton] at h
    cases h
  | appendReply reply =>
    have hnobody := r.answers_ofReply (.append reply)
    rw [Event.ofReply] at hnobody
    rw [hnobody] at h
    cases h

end Replica

end RaftReplica
