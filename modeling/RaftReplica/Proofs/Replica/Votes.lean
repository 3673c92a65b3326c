import Mathlib.Data.Prod.Lex
import RaftReplica.Proofs.Replica.Answers
import RaftReplica.Proofs.Replica.Life

/-!
# One vote a term

Whoever asks a replica for its vote may lie about its name, its term and its log, and may ask as often as it
likes.  The replica still gives one vote a term.  It keeps in mind whom it has voted for as long as the term
lasts, itself included, and only members of its quorum with a log at least as up to date get its vote at
all.

* `Log.coveredBy_iff` is the order of logs in which a candidate's must not come before the voter's.
* `Life.Stands` says that a replica stands for election in a term, and `Life.votedFor_of_stands` that it has
  then voted for itself.
* `Life.of_vote_granted` says what a granted vote tells of the request and of the voter.
-/

namespace RaftReplica

/-- A log is covered by those that come after it, with the last term counting before the last index. -/
theorem Log.coveredBy_iff (log : Log) (lastTerm lastIndex : Nat) :
    log.coveredBy lastTerm lastIndex = true ↔
      toLex (log.lastTerm, log.lastIndex) ≤ toLex (lastTerm, lastIndex) := by
  rw [Prod.Lex.toLex_le_toLex]
  constructor
  · exact coveredBy_cases
  · rintro (hlater | ⟨hsame, hindex⟩)
    · have hne : lastTerm ≠ log.lastTerm := Nat.ne_of_gt hlater
      rw [coveredBy, if_pos hne]
      exact decide_eq_true hlater
    · have hsame' : ¬ lastTerm ≠ log.lastTerm := fun hne => hne hsame.symm
      rw [coveredBy, if_neg hsame']
      exact decide_eq_true hindex

/-- Whoever enters a term on an election timeout votes for itself, even if there is nobody to elect. -/
theorem Replica.votedFor_of_electionTimeout (r : Replica)
    (hlater : r.term < (r.handle .electionTimeout).1.replica.term) :
    (r.handle .electionTimeout).1.replica.votedFor = some r.name := by
  simp only [handle, Turn.handle] at hlater ⊢
  rcases (Turn.start r).onElectionTimeout_cases with
    h | ⟨-, ⟨cause, -, h⟩ | ⟨election, -, ⟨-, h⟩ | h⟩⟩
  · rw [h] at hlater
    exact absurd hlater (Nat.lt_irrefl _)
  · rw [h]
    rfl
  · obtain ⟨commitIndex, lastApplied, hleader⟩ :=
      ((Turn.start r).stand election).exists_replica_becomeLeader
    rw [h, hleader, Turn.replica_stand]
    rfl
  · rw [h, Turn.replica_emit, Turn.replica_stand]
    rfl

namespace Life

variable (life : Life)

/-- With the event of that number the replica enters a term of its own accord, to be elected in it. -/
structure Stands (k term : Nat) : Prop where
  event : life.event k = .electionTimeout
  later : (life.state k).term < term
  term : (life.state (k + 1)).term = term

variable {life} {k term : Nat}

/-- Whoever stands for election has voted for itself. -/
theorem votedFor_of_stands (h : life.Stands k term) :
    (life.state (k + 1)).votedFor = some life.name := by
  have hlater : (life.state k).term < (life.state (k + 1)).term := by
    rw [h.term]
    exact h.later
  rw [← life.name_state k]
  simp only [state, h.event] at hlater ⊢
  exact (life.state k).votedFor_of_electionTimeout hlater

/-- **What a granted vote tells.**  There has been a request for it, from a member whose log is at least as
up to date as the voter's, and this is whom the voter has voted for in the term of its answer. -/
theorem of_vote_granted {ticket : Ticket} {reply : VoteReply}
    (h : (ticket, .vote reply) ∈ (life.turn k).answers) (hgranted : reply.granted = true) :
    ∃ request, life.event k = .voteRequest request ticket ∧
      (life.state (k + 1)).term = reply.term ∧
      (life.state (k + 1)).votedFor = some request.candidate ∧
      (life.state k).quorum.contains request.candidate = true ∧
      toLex ((life.state k).log.lastTerm, (life.state k).log.lastIndex) ≤
        toLex (request.lastLogTerm, request.lastLogIndex) := by
  obtain ⟨request, hevent⟩ := Replica.voteRequest_of_mem_answers h
  obtain ⟨granted, hanswers, hvoted⟩ := (life.state k).answers_voteRequest request ticket
  rw [turn, hevent, hanswers, List.mem_singleton] at h
  obtain ⟨-, hreply⟩ := Prod.mk.inj h
  obtain rfl := Answer.vote.inj hreply
  obtain ⟨-, hvote, hmember, hcovered⟩ := hvoted hgranted
  refine ⟨request, hevent, ?_, ?_, hmember, ((life.state k).log.coveredBy_iff _ _).mp hcovered⟩
  · simp only [state, hevent]
    rfl
  · simp only [state, hevent]
    exact hvote

/-- **One vote a term.**  For every term there is one candidate whom all votes go to that the replica grants
in that term, and if the replica itself stands for election in the term, it is this candidate.  Each vote
that is granted has been asked for in the name of the candidate, which is a member of the quorum, with a
last term and a last index that do not come before the voter's own. -/
theorem one_vote_per_term (life : Life) (term : Nat) :
    ∃ candidate, (∀ j, life.Stands j term → candidate = life.name) ∧
      ∀ k ticket reply, (ticket, .vote reply) ∈ (life.turn k).answers → reply.granted = true →
        reply.term = term →
          ∃ request, life.event k = .voteRequest request ticket ∧ request.candidate = candidate ∧
            (life.state k).quorum.contains request.candidate = true ∧
            toLex ((life.state k).log.lastTerm, (life.state k).log.lastIndex) ≤
              toLex (request.lastLogTerm, request.lastLogIndex) := by
  by_cases hvoted : ∃ i candidate, (life.state i).term = term ∧
    (life.state i).votedFor = some candidate
  · obtain ⟨i, candidate, hterm, hvote⟩ := hvoted
    refine ⟨candidate, ?_, ?_⟩
    · intro j hstands
      exact life.vote_unique (hterm.trans hstands.term.symm) hvote (votedFor_of_stands hstands)
    · intro k ticket reply hanswer hgranted hreply
      obtain ⟨request, hevent, hterm', hvote', hmember, hcovered⟩ := of_vote_granted hanswer hgranted
      have hsame : (life.state (k + 1)).term = (life.state i).term := by
        rw [hterm', hreply, hterm]
      exact ⟨request, hevent, life.vote_unique hsame hvote' hvote, hmember, hcovered⟩
  · -- without a vote in the term nobody is granted one, and the replica itself does not stand
    refine ⟨life.name, fun _ _ => rfl, ?_⟩
    intro k ticket reply hanswer hgranted hreply
    obtain ⟨request, -, hterm', hvote', -, -⟩ := of_vote_granted hanswer hgranted
    exact absurd ⟨k + 1, request.candidate, hterm'.trans hreply, hvote'⟩ hvoted

/-- `a` votes for `b` in the first term and stands for election in the second, in which `b` and then
somebody in the name of `a` ask for its vote. -/
def courted : Life := sample [
  .voteRequest ⟨1, "b", 0, 0⟩ 0,
  .electionTimeout,
  .voteRequest ⟨2, "b", 5, 1⟩ 0,
  .voteRequest ⟨2, "a", 5, 1⟩ 0]

/-- In the second term, in which it stands for election, `a` grants its vote to nobody but itself. -/
theorem one_vote_per_term_courted :
    courted.Stands 1 2 ∧ (0, .vote ⟨"a", 2, true⟩) ∈ (courted.turn 3).answers ∧
      ∃ request, courted.event 3 = .voteRequest request 0 ∧ request.candidate = "a" ∧
        (courted.state 3).quorum.contains request.candidate = true ∧
        toLex ((courted.state 3).log.lastTerm, (courted.state 3).log.lastIndex) ≤
          toLex (request.lastLogTerm, request.lastLogIndex) := by
  have hstands : courted.Stands 1 2 := ⟨rfl, by decide +kernel, by decide +kernel⟩
  have hanswer : (0, .vote ⟨"a", 2, true⟩) ∈ (courted.turn 3).answers := by decide +kernel
  obtain ⟨candidate, hown, hgrants⟩ := one_vote_per_term courted 2
  obtain ⟨request, hevent, hcandidate, hmember, hcovered⟩ := hgrants 3 0 _ hanswer rfl rfl
  exact ⟨hstands, hanswer, request, hevent, hcandidate.trans (hown 1 hstands), hmember, hcovered⟩

end Life

end RaftReplica
