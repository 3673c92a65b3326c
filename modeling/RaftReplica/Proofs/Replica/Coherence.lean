import RaftReplica.Proofs.Replica.Life
import RaftReplica.Proofs.Replica.News

/-!
# Roles and what belongs to them

Whoever serves has what belongs to its role and nothing that belongs to another.  A candidate has an
election, a leader a view of its peers, and each role its own timer.  What a replica has published is what
it is.

A turn passes through states of which none of this is true: the term is the new one before the role is,
and both before they are published.  So the parts of a turn that take a role are dealt with as a whole.

* `Coherent` is a replica at rest.  It stays coherent in the same office (`SameOffice`).
* `Turn.Tidy` is a turn that could end here: the replica is coherent, and the news so far are in order and
  end with what the replica is.  `Turn.Tidy.handle` says that every event keeps it, unless it fails.
* `Life.news` is all that has been published.
-/

namespace RaftReplica

namespace Replica

/-- A replica has what belongs to its role, and has published what it is. -/
structure Coherent (r : Replica) : Prop where
  serves : r.role = .follower ∨ r.role = .candidate ∨ r.role = .leader
  progress : r.progress.isSome = true ↔ r.role = .leader
  election : r.election.isSome = true ↔ r.role = .candidate
  heartbeatTicker : r.heartbeatTicker = true ↔ r.role = .leader
  electionTicker : r.electionTicker = true ↔ r.role ≠ .leader
  /-- A candidate follows nobody and has voted for itself. -/
  candidate : r.role = .candidate → r.leader = none ∧ r.votedFor = some r.name
  leader : r.role = .leader → r.leader = some r.name ∧ r.votedFor = some r.name
  published : r.published = r.snapshot

/-- A replica at two times in the same role, term and vote, with the same timers. -/
structure SameOffice (r r' : Replica) : Prop where
  name : r'.name = r.name
  role : r'.role = r.role
  term : r'.term = r.term
  votedFor : r'.votedFor = r.votedFor
  leader : r'.leader = r.leader
  progress : r'.progress.isSome = r.progress.isSome
  election : r'.election.isSome = r.election.isSome
  heartbeatTicker : r'.heartbeatTicker = r.heartbeatTicker
  electionTicker : r'.electionTicker = r.electionTicker
  published : r'.published = r.published

theorem SameOffice.refl (r : Replica) : r.SameOffice r :=
  ⟨rfl, rfl, rfl, rfl, rfl, rfl, rfl, rfl, rfl, rfl⟩

/-- To write and to commit is part of every office. -/
theorem SameOffice.write (r : Replica) (log : Log) (commitIndex lastApplied : Nat) :
    r.SameOffice { r with log, commitIndex, lastApplied } :=
  ⟨rfl, rfl, rfl, rfl, rfl, rfl, rfl, rfl, rfl, rfl⟩

variable {r r' : Replica}

theorem SameOffice.snapshot (h : r.SameOffice r') : r'.snapshot = r.snapshot := by
  rw [Replica.snapshot, h.role, h.term, h.leader, Replica.snapshot]

theorem Coherent.of_same (h : r.Coherent) (hsame : r.SameOffice r') : r'.Coherent := by
  constructor
  · rw [hsame.role]
    exact h.serves
  · rw [hsame.progress, hsame.role]
    exact h.progress
  · rw [hsame.election, hsame.role]
    exact h.election
  · rw [hsame.heartbeatTicker, hsame.role]
    exact h.heartbeatTicker
  · rw [hsame.electionTicker, hsame.role]
    exact h.electionTicker
  · rw [hsame.role, hsame.leader, hsame.votedFor, hsame.name]
    exact h.candidate
  · rw [hsame.role, hsame.leader, hsame.votedFor, hsame.name]
    exact h.leader
  · rw [hsame.published, hsame.snapshot]
    exact h.published

/-- A vote that may still be given is given by a follower, or once more to oneself. -/
theorem Coherent.vote (h : r.Coherent) {candidate : String}
    (hfree : r.votedFor = none ∨ r.votedFor = some candidate) :
    ({ r with votedFor := some candidate } : Replica).Coherent := by
  have hself : r.votedFor = some r.name → some candidate = some r.name := by
    intro hvote
    rcases hfree with hnone | hsome
    · rw [hnone] at hvote
      cases hvote
    · rw [← hsome, hvote]
  exact ⟨h.serves, h.progress, h.election, h.heartbeatTicker, h.electionTicker,
    fun hrole => ⟨(h.candidate hrole).1, hself (h.candidate hrole).2⟩,
    fun hrole => ⟨(h.leader hrole).1, hself (h.leader hrole).2⟩, h.published⟩

end Replica

namespace Turn

open Replica (Coherent SameOffice)

variable {t : Turn}

/-! ## Taking a role -/

/-- Whoever steps down has the election timer alone, whatever it was before. -/
theorem exists_replica_stepDown (h : t.replica.Coherent) (term : Nat) (leader : Option String) :
    ∃ health,
      (t.stepDown term leader).replica =
        { t.replica with
          role := .follower
          term := max t.replica.term term
          votedFor := if t.replica.term < term then none else t.replica.votedFor
          leader
          election := none
          progress := none
          heartbeatTicker := false
          electionTicker := true
          published := ⟨.follower, max t.replica.term term, leader⟩
          health } := by
  have hmax : max t.replica.term term =
      if t.replica.term < term then term else t.replica.term := by
    split <;> omega
  unfold stepDown
  by_cases hrole : t.replica.role = .follower
  · refine ⟨t.replica.health, ?_⟩
    have hprogress : t.replica.progress = none := by simpa [hrole] using h.progress
    have helection : t.replica.election = none := by simpa [hrole] using h.election
    have hheartbeat : t.replica.heartbeatTicker = false := by simpa [hrole] using h.heartbeatTicker
    have hticker : t.replica.electionTicker = true := by simpa [hrole] using h.electionTicker
    by_cases hterm : t.replica.term < term <;>
      simp [hrole, hterm, hmax, hprogress, helection, hheartbeat, hticker, Replica.snapshot]
  · refine ⟨{ t.replica.health with ready := true }, ?_⟩
    by_cases hterm : t.replica.term < term <;> simp [hrole, hterm, hmax]

theorem coherent_stepDown (h : t.replica.Coherent) (term : Nat) (leader : Option String) :
    (t.stepDown term leader).replica.Coherent := by
  obtain ⟨health, hdown⟩ := exists_replica_stepDown h term leader
  rw [hdown]
  constructor <;> simp [Replica.snapshot]

theorem coherent_stand (h : t.replica.Coherent) (hidle : t.replica.role ≠ .leader)
    (election : Election) : (t.stand election).replica.Coherent := by
  have hheartbeat : t.replica.heartbeatTicker = false := by simpa [hidle] using h.heartbeatTicker
  have hticker : t.replica.electionTicker = true := by simpa [hidle] using h.electionTicker
  rw [replica_stand]
  constructor <;> simp [Replica.snapshot, hheartbeat, hticker]

/-- Whoever comes to lead is a coherent leader if it has voted for itself. -/
theorem coherent_becomeLeader (hvote : t.replica.votedFor = some t.replica.name) :
    t.becomeLeader.replica.Coherent := by
  obtain ⟨commitIndex, lastApplied, hleader⟩ := t.exists_replica_becomeLeader
  rw [hleader]
  constructor <;> simp [Replica.snapshot, hvote]

/-! ## Tidy turns -/

/-- A turn that could end here, for those who have heard some news before it. -/
structure Tidy (history : List Snapshot) (t : Turn) : Prop where
  coherent : t.replica.Coherent
  ordered : (history ++ t.published).IsChain Snapshot.Precedes
  told : (history ++ t.published).getLast? = some t.replica.snapshot

namespace Tidy

variable {history : List Snapshot} {t' : Turn}

/-- A coherent replica has told what it is if it has published the change, of a term not earlier. -/
theorem tell (h : t.Tidy history) (hcoherent : t'.replica.Coherent)
    (hterm : t.replica.term ≤ t'.replica.term)
    (hnews : t'.published = t.published ++ t.replica.snapshot.change t'.replica.snapshot) :
    t'.Tidy history := by
  refine ⟨hcoherent, ?_, ?_⟩
  · rw [hnews, ← List.append_assoc]
    exact Snapshot.isChain_append_change h.ordered h.told hterm
  · rw [hnews, ← List.append_assoc]
    exact Snapshot.getLast?_append_change h.told

/-- Nothing need be told while the office stays the same. -/
theorem keep (h : t.Tidy history) (hsame : t.replica.SameOffice t'.replica)
    (hquiet : t'.published = t.published) : t'.Tidy history := by
  refine h.tell (h.coherent.of_same hsame) (Nat.le_of_eq hsame.term.symm) ?_
  rw [hsame.snapshot, Snapshot.change_self, hquiet, List.append_nil]

/-- The next turn begins where this one ends, with its news for history. -/
theorem next (h : t.Tidy history) : (start t.replica).Tidy (history ++ t.published) := by
  refine ⟨h.coherent, ?_, ?_⟩
  · rw [published_start, List.append_nil]
    exact h.ordered
  · rw [published_start, List.append_nil]
    exact h.told

theorem emit (h : t.Tidy history) {effect : Effect} (hquiet : effect.publish? = none) :
    (t.emit effect).Tidy history :=
  h.keep (.refl _) (by simp [hquiet])

theorem replicate (h : t.Tidy history) : t.replicate.Tidy history :=
  h.keep (.refl _) (published_replicate t)

theorem interruptTicker (h : t.Tidy history) (tick : Tick) :
    (t.interruptTicker tick).Tidy history := by
  refine h.keep ?_ (published_interruptTicker t tick)
  rw [replica_interruptTicker]
  exact .refl _

theorem advanceCommitIndex (h : t.Tidy history) : t.advanceCommitIndex.Tidy history := by
  obtain ⟨commitIndex, lastApplied, hadvance⟩ := t.exists_replica_advanceCommitIndex
  refine h.keep ?_ (published_advanceCommitIndex t)
  rw [hadvance]
  exact .write ..

theorem stepDown (h : t.Tidy history) (term : Nat) (leader : Option String) :
    (t.stepDown term leader).Tidy history := by
  obtain ⟨health, hdown⟩ := exists_replica_stepDown h.coherent term leader
  refine h.tell (coherent_stepDown h.coherent term leader) ?_ ?_
  · rw [term_stepDown]
    exact Nat.le_max_left _ _
  · rw [published_stepDown, h.coherent.published, hdown]
    rfl

theorem stand (h : t.Tidy history) (hidle : t.replica.role ≠ .leader) (election : Election) :
    (t.stand election).Tidy history := by
  refine h.tell (coherent_stand h.coherent hidle election) ?_ ?_
  · rw [replica_stand]
    exact Nat.le_succ _
  · rw [published_stand, h.coherent.published, replica_stand]
    rfl

theorem becomeLeader (h : t.Tidy history) (hstands : t.replica.role = .candidate) :
    t.becomeLeader.Tidy history := by
  obtain ⟨commitIndex, lastApplied, hleader⟩ := t.exists_replica_becomeLeader
  refine h.tell (coherent_becomeLeader (h.coherent.candidate hstands).2) ?_ ?_
  · rw [hleader]
  · rw [published_becomeLeader, h.coherent.published, hleader]
    rfl

/-! ## Handling an event -/

theorem onWriteAheads (h : t.Tidy history) (batch : List WriteAhead) :
    (t.onWriteAheads batch).Tidy history := by
  refine h.keep ?_ (published_onWriteAheads t batch)
  by_cases hrole : t.replica.role = .leader
  · obtain ⟨commitIndex, lastApplied, hwrites⟩ := t.exists_replica_onWriteAheads batch hrole
    rw [hwrites]
    exact .write ..
  · rw [t.onWriteAheads_of_not_leader batch hrole, replica_foldl_refuseOne]
    exact .refl _

theorem onHeartbeatTimeout (h : t.Tidy history) : t.onHeartbeatTimeout.Tidy history := by
  unfold Turn.onHeartbeatTimeout
  split
  · exact h.replicate
  · exact h

theorem onElectionTimeout (h : t.Tidy history) (hok : t.onElectionTimeout.2 = .ok ()) :
    t.onElectionTimeout.1.Tidy history := by
  rcases t.onElectionTimeout_cases with
    hrest | ⟨hidle, ⟨cause, hcause, -⟩ | ⟨election, -, ⟨-, hwins⟩ | hstands⟩⟩
  · rw [hrest]
    exact h
  · -- a replica that cannot call an election is left in a term that it has not told of
    exact absurd hok (onElectionTimeout_fails
      (h.coherent.serves.imp_right fun hserves => hserves.resolve_right hidle) hcause)
  · rw [hwins]
    exact (h.stand hidle election).becomeLeader (by rw [replica_stand])
  · rw [hstands]
    exact (h.stand hidle election).emit rfl

theorem heed (h : t.Tidy history) (term : Nat) : (t.heed term).Tidy history := by
  unfold Turn.heed
  split
  · exact h.stepDown term none
  · exact h

theorem decideVote (h : t.Tidy history) (request : VoteRequest) :
    (t.decideVote request).1.Tidy history := by
  unfold Turn.decideVote
  split
  · rename_i hgrants
    simp only [Replica.grants, Bool.and_eq_true, Bool.or_eq_true, decide_eq_true_eq] at hgrants
    have hvotes : (t.update fun r => { r with votedFor := some request.candidate }).Tidy history :=
      ⟨h.coherent.vote hgrants.1.1, h.ordered, h.told⟩
    exact hvotes.interruptTicker .election
  · exact h

theorem onVoteRequest (h : t.Tidy history) (request : VoteRequest) (ticket : Ticket) :
    (t.onVoteRequest request ticket).Tidy history := by
  rcases Nat.lt_or_ge request.term t.replica.term with hstale | hle
  · rw [t.onVoteRequest_of_lt ticket hstale]
    exact h.emit rfl
  · rw [t.onVoteRequest_of_le ticket hle]
    exact ((h.heed request.term).decideVote request).emit rfl

theorem countVote (h : t.Tidy history) (hstands : t.replica.role = .candidate) (voter : String) :
    (t.countVote voter).Tidy history := by
  unfold Turn.countVote
  cases hvotes : t.replica.election with
  | none => exact h
  | some before =>
    cases hcounted : before.vote voter with
    | error cause =>
      simp only [hcounted]
      exact h
    | ok result =>
      obtain ⟨passed, after⟩ := result
      have hcounts : (t.update fun r => { r with election := some after }).Tidy history :=
        h.keep ⟨rfl, rfl, rfl, rfl, rfl, rfl, by simp [hvotes], rfl, rfl, rfl⟩ rfl
      cases passed with
      | false => simpa [hcounted] using hcounts
      | true => simpa [hcounted] using hcounts.becomeLeader hstands

theorem onVoteReply (h : t.Tidy history) (reply : VoteReply) :
    (t.onVoteReply reply).Tidy history := by
  unfold Turn.onVoteReply
  split
  · exact h.stepDown reply.term none
  · split
    · rename_i hcounts
      exact h.countVote hcounts.1 reply.remote
    · exact h

theorem follow (h : t.Tidy history) (request : AppendRequest) :
    (t.follow request).Tidy history := by
  unfold Turn.follow
  split
  · exact (h.stepDown request.term (some request.leader)).interruptTicker .election
  · exact h.interruptTicker .election

theorem acceptEntries (h : t.Tidy history) (request : AppendRequest) :
    (t.acceptEntries request).1.Tidy history := by
  rcases t.acceptEntries_cases request with ⟨-, hagrees⟩ | ⟨-, hdisagrees⟩
  · obtain ⟨commitIndex, lastApplied, haccept⟩ := t.exists_replica_accept request
    rw [hagrees]
    refine h.keep ?_ (published_accept t request)
    rw [haccept]
    exact .write ..
  · rw [hdisagrees]
    exact h

theorem onAppendRequest (h : t.Tidy history) (request : AppendRequest) (ticket : Ticket) :
    (t.onAppendRequest request ticket).Tidy history := by
  rcases Nat.lt_or_ge request.term t.replica.term with hstale | hle
  · rw [t.onAppendRequest_of_lt ticket hstale]
    exact h.emit rfl
  · rw [t.onAppendRequest_of_le ticket hle]
    exact ((h.follow request).acceptEntries request).emit rfl

theorem noteReply (h : t.Tidy history) {progress : Progress}
    (hview : t.replica.progress = some progress) (reply : AppendReply) :
    (t.noteReply progress reply).Tidy history := by
  have hnotes : ∀ after : Progress,
      (t.update fun r => { r with progress := some after }).Tidy history := by
    intro after
    exact h.keep ⟨rfl, rfl, rfl, rfl, rfl, by simp [hview], rfl, rfl, rfl, rfl⟩ rfl
  unfold Turn.noteReply
  dsimp only
  split
  · split
    · exact (hnotes _).advanceCommitIndex
    · exact hnotes _
  · exact h

theorem onAppendReply (h : t.Tidy history) (reply : AppendReply) :
    (t.onAppendReply reply).Tidy history := by
  unfold Turn.onAppendReply
  split
  · exact h.stepDown reply.term none
  · split
    · cases hview : t.replica.progress with
      | none => exact h
      | some progress => exact h.noteReply hview reply
    · exact h

/-- **Every event that is handled leaves the replica coherent and the news in order.** -/
theorem handle (h : t.Tidy history) {event : Event} (hok : (t.handle event).2 = .ok ()) :
    (t.handle event).1.Tidy history := by
  cases event with
  | error message => exact h
  | writeAhead write => exact h.onWriteAheads [write]
  | aggregatedWriteAhead batch => exact h.onWriteAheads batch
  | heartbeatTimeout => exact h.onHeartbeatTimeout
  | electionTimeout => exact h.onElectionTimeout hok
  | voteRequest request ticket => exact h.onVoteRequest request ticket
  | voteReply reply => exact h.onVoteReply reply
  | appendRequest request ticket => exact h.onAppendRequest request ticket
  | appendReply reply => exact h.onAppendReply reply

end Tidy

end Turn

/-! ## A whole life -/

/-- Bootstrapping tells of every stage, and ends with a coherent follower. -/
theorem Replica.Created.tidy {r : Replica} {t : Turn} {name : String} {roster : Roster}
    (h : r.Created name roster) (hstart : r.bootstrap = (t, .ok ())) :
    t.Tidy [Snapshot.initial] := by
  have hnews : t.published =
      [⟨.initialized, 0, none⟩, ⟨.running, 0, none⟩, ⟨.follower, 0, none⟩] := by
    rw [bootstrap_eq h.bootstrapped hstart]
    simp [bootstrapTurn, Snapshot.change, setTicker_eq, h.term, h.leader, h.published,
      Snapshot.initial]
  have hcoherent : t.replica.Coherent := by
    rw [bootstrap_eq h.bootstrapped hstart]
    constructor <;> simp [bootstrapTurn, setTicker_eq, snapshot]
  have hsnapshot : t.replica.snapshot = ⟨.follower, 0, none⟩ := by
    rw [bootstrap_eq h.bootstrapped hstart]
    simp [bootstrapTurn, setTicker_eq, h.term, h.leader, snapshot]
  refine ⟨hcoherent, ?_, ?_⟩
  · rw [hnews]
    decide
  · rw [hnews, hsnapshot]
    rfl

namespace Life

/-- All that has been published before the event of that number. -/
def news (life : Life) : Nat → List Snapshot
  | 0 => life.start.published
  | k + 1 => life.news k ++ (life.turn k).published

/-- The news before an event are in order if nothing has failed so far. -/
theorem tidy (life : Life) {k : Nat}
    (hok : ∀ j < k, ((life.state j).handle (life.event j)).2 = .ok ()) :
    (Turn.start (life.state k)).Tidy (Snapshot.initial :: life.news k) := by
  induction k with
  | zero =>
    obtain ⟨r, hcreated, hstart⟩ := life.exists_created
    exact (hcreated.tidy hstart).next
  | succ k ih =>
    have hbefore := ih fun j hj => hok j (Nat.lt_succ_of_lt hj)
    exact (hbefore.handle (hok k (Nat.lt_succ_self k))).next

/-- **Roles and what belongs to them stay together.**  As long as every event is handled, the replica
serves with what belongs to its role and nothing else.  Each snapshot that it publishes differs from the
one before and is of no earlier term, and the last one is what the replica is. -/
theorem roles_stay_coherent (life : Life) (k : Nat)
    (hok : ∀ j < k, ((life.state j).handle (life.event j)).2 = .ok ()) :
    (life.state k).Coherent ∧
      (Snapshot.initial :: life.news k).IsChain Snapshot.Precedes ∧
        (Snapshot.initial :: life.news k).getLast? = some (life.state k).snapshot := by
  obtain ⟨hcoherent, hordered, htold⟩ := life.tidy hok
  rw [Turn.published_start, List.append_nil] at hordered htold
  exact ⟨hcoherent, hordered, htold⟩

/-- `a` comes to lead, gives way to a later term, hears who leads in it, and stands for election once
more. -/
def eventful : Life := sample [
  .electionTimeout,
  .voteReply ⟨"b", 1, true⟩,
  .voteRequest ⟨3, "b", 5, 1⟩ 0,
  .appendRequest ⟨3, "b", 0, 0, 0, []⟩ 1,
  .electionTimeout]

/-- In the end `a` is a candidate of the fourth term, and has told of eight stages. -/
theorem roles_stay_coherent_eventful :
    (eventful.news 5).length = 8 ∧ (eventful.state 5).Coherent ∧
      (Snapshot.initial :: eventful.news 5).IsChain Snapshot.Precedes ∧
        (Snapshot.initial :: eventful.news 5).getLast? = some ⟨.candidate, 4, none⟩ := by
  have hhandled : ∀ j < 5, ((eventful.state j).handle (eventful.event j)).2.isOk = true := by
    decide +kernel
  have hok : ∀ j < 5, ((eventful.state j).handle (eventful.event j)).2 = .ok () := by
    intro j hj
    have hhandled' := hhandled j hj
    cases hresult : ((eventful.state j).handle (eventful.event j)).2 with
    | ok => rfl
    | error cause =>
      rw [hresult] at hhandled'
      cases hhandled'
  have hsnapshot : (eventful.state 5).snapshot = ⟨.candidate, 4, none⟩ := by decide +kernel
  obtain ⟨hcoherent, hordered, htold⟩ := roles_stay_coherent eventful 5 hok
  rw [hsnapshot] at htold
  exact ⟨by decide +kernel, hcoherent, hordered, htold⟩

end Life

end RaftReplica
