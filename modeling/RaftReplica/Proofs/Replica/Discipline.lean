import RaftReplica.Proofs.Replica.Term

/-!
# Earlier, present and later terms

A message is of the term that its sender was in.  What a replica does about that comes before everything
else that it does with the message, whatever it holds and in whatever role the replica is.

* A message of an earlier term leaves no trace.  Whoever waits for an answer is refused in the present term
  (`Replica.refusals`, `Replica.handle_of_stale`).
* A message of a later term makes the replica a follower in that term (`Replica.Joins`,
  `Replica.handle_joins`).
* Of all other events only one that has the replica stand for election changes the term
  (`Replica.term_handle_of_not_message`).
-/

namespace RaftReplica

namespace Event

/-- Whether an event is a message of another replica. -/
def isMessage : Event → Bool
  | voteRequest .. | voteReply _ | appendRequest .. | appendReply _ => true
  | _ => false

/-- Who leads in the term of a message, as far as the message tells. -/
def leader? : Event → Option String
  | appendRequest request _ => some request.leader
  | _ => none

/-- Whether an event is a leader's request. -/
def isAppendRequest : Event → Bool
  | appendRequest .. => true
  | _ => false

end Event

namespace Replica

/-- What comes of a message for which it is too late.  A request is refused in the present term, and
nobody waits for what comes of a reply. -/
def refusals (r : Replica) : Event → List Effect
  | .voteRequest _ ticket => [.answer ticket (.vote ⟨r.name, r.term, false⟩)]
  | .appendRequest _ ticket =>
    [.answer ticket (.append ⟨r.name, r.term, false, r.log.lastIndex, r.commitIndex⟩)]
  | _ => []

/-- What a message of a later term makes of the replica `r` that handles it in the turn `t`. -/
structure Joins (r : Replica) (event : Event) (t : Turn) : Prop where
  term : t.replica.term = event.term
  role : t.replica.role = .follower
  leader : t.replica.leader = event.leader?
  /-- The vote is free, unless it has just been granted. -/
  vote : t.replica.votedFor = none ∨
    ∃ request ticket, event = .voteRequest request ticket ∧
      t.replica.votedFor = some request.candidate ∧
      t.answers = [(ticket, .vote ⟨r.name, request.term, true⟩)]
  kept : event.isAppendRequest = false →
    t.replica.log = r.log ∧ t.replica.commitIndex = r.commitIndex

end Replica

namespace Turn

variable (t : Turn)

/-! ## Later terms -/

@[simp] theorem leader_stepDown (term : Nat) (leader : Option String) :
    (t.stepDown term leader).replica.leader = leader := by
  unfold stepDown
  by_cases hrole : t.replica.role = .follower <;>
    by_cases hterm : t.replica.term < term <;> simp [hrole, hterm]

/-- Stepping down in a later term is all that the term asks for. -/
theorem stepDown_joins (event : Event) (hlater : t.replica.term < event.term) :
    t.replica.Joins event (t.stepDown event.term event.leader?) := by
  refine ⟨?_, t.role_stepDown .., t.leader_stepDown .., Or.inl ?_, fun _ => ?_⟩
  · rw [term_stepDown]
    omega
  · rw [votedFor_stepDown, if_pos hlater]
  · exact ⟨t.log_stepDown .., t.commitIndex_stepDown ..⟩

/-- A vote may be granted in a term that has just been taken over. -/
theorem onVoteRequest_joins {request : VoteRequest} (ticket : Ticket)
    (hlater : t.replica.term < request.term) (hquiet : t.answers = []) :
    t.replica.Joins (.voteRequest request ticket) (t.onVoteRequest request ticket) := by
  have hjoins : t.replica.Joins (.voteRequest request ticket) (t.stepDown request.term none) :=
    t.stepDown_joins (.voteRequest request ticket) hlater
  have hheed : t.heed request.term = t.stepDown request.term none := if_pos hlater
  have hname : (t.stepDown request.term none).replica.name = t.replica.name := t.name_stepDown ..
  have hanswers : (t.stepDown request.term none).answers = [] := (t.answers_stepDown ..).trans hquiet
  have hfree : (t.stepDown request.term none).replica.votedFor = none := by
    rw [votedFor_stepDown, if_pos hlater]
  rw [t.onVoteRequest_of_le ticket (Nat.le_of_lt hlater), hheed]
  generalize t.stepDown request.term none = down at *
  obtain ⟨hterm, hrole, hleader, -, hkept⟩ := hjoins
  unfold decideVote
  split
  · have hgranted : down.replica.voteReply true = ⟨t.replica.name, request.term, true⟩ := by
      rw [Replica.voteReply, hname, hterm]
      rfl
    refine ⟨?_, ?_, ?_, Or.inr ⟨request, ticket, rfl, ?_, ?_⟩, ?_⟩
    · simpa using hterm
    · simpa using hrole
    · simpa using hleader
    · simp
    · rw [answers_emit, answers_interruptTicker, answers_update, hanswers, replica_interruptTicker]
      exact congrArg (fun reply => [(ticket, Answer.vote reply)]) hgranted
    · simpa using hkept
  · exact ⟨hterm, hrole, hleader, Or.inl hfree, hkept⟩

/-- Whoever ships entries of a later term is followed before the entries are looked at. -/
theorem onAppendRequest_joins {request : AppendRequest} (ticket : Ticket)
    (hlater : t.replica.term < request.term) :
    t.replica.Joins (.appendRequest request ticket) (t.onAppendRequest request ticket) := by
  have hchanges : t.replica.changesAllegiance request = true := by
    simp [Replica.changesAllegiance, hlater]
  have hdown : (t.follow request).replica =
      (t.stepDown request.term (some request.leader)).replica := by
    rw [follow, if_pos hchanges, replica_interruptTicker]
  have hleader : (t.follow request).replica.leader = some request.leader := by
    rw [hdown, leader_stepDown]
  obtain ⟨hrole, hterm, hvote, -⟩ := t.replica_follow (Nat.le_of_lt hlater)
  rw [if_pos hlater] at hvote
  rw [t.onAppendRequest_of_le ticket (Nat.le_of_lt hlater)]
  rcases (t.follow request).acceptEntries_cases request with ⟨-, h⟩ | ⟨-, h⟩
  · obtain ⟨commitIndex, lastApplied, haccept⟩ := (t.follow request).exists_replica_accept request
    simp only [h]
    constructor
    · rw [replica_emit, haccept]
      exact hterm
    · rw [replica_emit, haccept]
      exact hrole
    · rw [replica_emit, haccept]
      exact hleader
    · left
      rw [replica_emit, haccept]
      exact hvote
    · intro hother
      cases hother
  · simp only [h]
    refine ⟨hterm, hrole, hleader, Or.inl hvote, ?_⟩
    intro hother
    cases hother

/-! ## Standing for election -/

theorem term_enter_candidate : (t.enter .candidate).1.replica.term = t.replica.term := by
  simp only [enter, prepareCandidate]
  cases hcalled : t.leaveOffice.replica.quorum.election with
  | error cause => rfl
  | ok election => simp

/-- Whoever stands for election goes on to the next term, whether or not anybody can be elected. -/
theorem term_onElectionTimeout
    (hstanding : t.replica.role = .follower ∨ t.replica.role = .candidate)
    (hnext : t.replica.term < wordMax) :
    t.onElectionTimeout.1.replica.term = t.replica.term + 1 := by
  have hsucc : succ? t.replica.term = some (t.replica.term + 1) := if_pos hnext
  have hentering : (t.update fun r =>
      { r with term := t.replica.term + 1, votedFor := some r.name, leader := none }) =
        t.enterNextTerm := rfl
  have hterm := t.enterNextTerm.term_enter_candidate
  rw [onElectionTimeout, if_pos hstanding, hsucc]
  simp only [hentering]
  generalize t.enterNextTerm.enter .candidate = outcome at hterm ⊢
  obtain ⟨entered, result⟩ := outcome
  cases result with
  | error error => exact hterm
  | ok =>
    dsimp only
    split
    · exact entered.term_becomeLeader.trans hterm
    · exact hterm

end Turn

namespace Replica

variable (r : Replica) {event : Event}

/-- Messages are always handled to the end. -/
theorem handle_message_ok (hmessage : event.isMessage = true) : (r.handle event).2 = .ok () := by
  cases event with
  | voteRequest request ticket => rfl
  | voteReply reply => rfl
  | appendRequest request ticket => rfl
  | appendReply reply => rfl
  | _ => cases hmessage

/-- **A message of an earlier term leaves no trace** but for the refusal of a request. -/
theorem handle_of_stale (hmessage : event.isMessage = true) (hstale : event.term < r.term) :
    (r.handle event).1 = ⟨r, r.refusals event⟩ := by
  have hstart : (Turn.start r).replica = r := rfl
  simp only [handle, Turn.handle]
  cases event with
  | voteRequest request ticket => exact (Turn.start r).onVoteRequest_of_lt ticket hstale
  | appendRequest request ticket => exact (Turn.start r).onAppendRequest_of_lt ticket hstale
  | voteReply reply =>
    have hearlier : reply.term < r.term := hstale
    simp only [Turn.onVoteReply, hstart]
    rw [if_neg (by omega), if_neg (by omega)]
    rfl
  | appendReply reply =>
    have hearlier : reply.term < r.term := hstale
    simp only [Turn.onAppendReply, hstart]
    rw [if_neg (by omega), if_neg (by omega)]
    rfl
  | _ => cases hmessage

/-- **A message of a later term makes a follower in that term.** -/
theorem handle_joins (hmessage : event.isMessage = true) (hlater : r.term < event.term) :
    r.Joins event (r.handle event).1 := by
  have hquiet : (Turn.start r).answers = [] := rfl
  simp only [handle, Turn.handle]
  cases event with
  | voteRequest request ticket => exact (Turn.start r).onVoteRequest_joins ticket hlater hquiet
  | appendRequest request ticket => exact (Turn.start r).onAppendRequest_joins ticket hlater
  | voteReply reply =>
    have hdown : (Turn.start r).onVoteReply reply = (Turn.start r).stepDown reply.term none :=
      if_pos hlater
    show r.Joins (.voteReply reply) ((Turn.start r).onVoteReply reply)
    rw [hdown]
    exact (Turn.start r).stepDown_joins (.voteReply reply) hlater
  | appendReply reply =>
    have hdown : (Turn.start r).onAppendReply reply = (Turn.start r).stepDown reply.term none :=
      if_pos hlater
    show r.Joins (.appendReply reply) ((Turn.start r).onAppendReply reply)
    rw [hdown]
    exact (Turn.start r).stepDown_joins (.appendReply reply) hlater
  | _ => cases hmessage

/-- Nobody stands for election after the largest term. -/
theorem handle_of_last (hstanding : r.Standing event) (hlast : wordMax ≤ r.term) :
    r.handle event = (Turn.start r, .error .termExhausted) := by
  obtain ⟨rfl, hrole⟩ := hstanding
  have hnone : succ? (Turn.start r).replica.term = none := if_neg (Nat.not_lt.mpr hlast)
  have hrole' : (Turn.start r).replica.role = .follower ∨ (Turn.start r).replica.role = .candidate :=
    hrole
  simp only [handle, Turn.handle, Turn.onElectionTimeout]
  rw [if_pos hrole', hnone]

/-- **Besides messages only standing for election changes the term**, to the next one. -/
theorem term_handle_of_not_message (hother : event.isMessage = false) :
    (r.handle event).1.replica.term =
      if r.Standing event ∧ r.term < wordMax then r.term + 1 else r.term := by
  by_cases htimeout : event = .electionTimeout
  · subst htimeout
    split
    · rename_i h
      exact (Turn.start r).term_onElectionTimeout h.1.2 h.2
    · rename_i h
      by_cases hrole : r.role = .follower ∨ r.role = .candidate
      · have hlast : wordMax ≤ r.term := Nat.not_lt.mp fun hnext => h ⟨⟨rfl, hrole⟩, hnext⟩
        rw [r.handle_of_last ⟨rfl, hrole⟩ hlast]
        rfl
      · have hrests : (Turn.start r).onElectionTimeout = (Turn.start r, .ok ()) := if_neg hrole
        rw [handle, Turn.handle, hrests]
        rfl
  · have hnone : event.term = 0 := by cases event <;> first | rfl | cases hother
    rw [if_neg fun h => htimeout h.1.1, r.term_handle htimeout, hnone]
    exact Nat.max_zero _

end Replica

namespace Life

/-- **What a replica does about terms.**  At any time in its life, and whatever the next event is:

* A message is handled to the end.  If it is of an earlier term, the replica stays what it is in every
  part, and nothing is done but that whoever waits for an answer is refused in the present term.  If it is
  of a later term, the replica ends as a follower in that term, with its vote free or just granted and its
  log and commit index untouched, unless a leader ships entries in that term, whom it then follows.  If it
  is of the present term, the term stays.
* Any other event leaves the term alone, but for an election timeout of a follower or candidate, which
  leads to the next term; where there is none, the event is not handled.

So terms never fall. -/
theorem term_discipline (life : Life) (k : Nat) (event : Event) :
    let r := life.state k
    let t := (r.handle event).1
    (event.isMessage = true →
      (r.handle event).2 = .ok () ∧
        (event.term < r.term → t.replica = r ∧ t.effects = r.refusals event) ∧
        (r.term < event.term → r.Joins event t) ∧
        (event.term = r.term → t.replica.term = r.term)) ∧
      (event.isMessage = false →
        t.replica.term = if r.Standing event ∧ r.term < wordMax then r.term + 1 else r.term) ∧
      (r.Standing event → wordMax ≤ r.term → r.handle event = (Turn.start r, .error .termExhausted)) ∧
      ∀ j ≤ k, (life.state j).term ≤ r.term := by
  intro r t
  refine ⟨?_, r.term_handle_of_not_message, r.handle_of_last, fun j hjk => (life.becomes hjk).term_le⟩
  intro hmessage
  have hother : event ≠ .electionTimeout := by
    rintro rfl
    cases hmessage
  refine ⟨r.handle_message_ok hmessage, ?_, r.handle_joins hmessage, ?_⟩
  · intro hstale
    have hturn : t = ⟨r, r.refusals event⟩ := r.handle_of_stale hmessage hstale
    exact ⟨congrArg Turn.replica hturn, congrArg Turn.effects hturn⟩
  · intro hpresent
    have hterm : t.replica.term = max r.term event.term := r.term_handle hother
    omega

end Life

end RaftReplica
