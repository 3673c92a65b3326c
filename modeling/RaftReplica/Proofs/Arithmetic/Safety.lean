import RaftReplica.Proofs.Arithmetic.Handlers
import RaftReplica.Proofs.Replica.Coherence
import RaftReplica.Proofs.Replica.Term

/-!
# No fault in a life

A replica counts terms, log entries and ballots in words, and relies on having what belongs to its role and
on a log that reaches up to what is committed.  None of this ever fails while it serves, whatever it is
sent, but for one thing: after the largest term there is none to stand for election in.

* `Replica.Prepared` is what a replica must satisfy before an event, and `Prepared.checkedHandle_eq` says
  that it then handles the event without a fault.
* `Handles.countable` says that a candidate's election can be counted after every event.
* `Life.prepared` says that a replica that serves is prepared at any time.
-/

namespace RaftReplica

namespace Replica

/-- Handles an event from the present state, as a computation on words. -/
def checkedHandle (r : Replica) (event : Event) : Checked Outcome := (Turn.start r).checkedHandle event

/-- What has to be in order before an event: the replica is steady, and a candidate has an election that can
be counted. -/
structure Prepared (r : Replica) : Prop extends Steady r where
  stands : r.role = .candidate → ∃ votes, r.election = some votes ∧ votes.Countable

variable {r r' : Replica} {event : Event}

/-- Whoever leads has room for what it is about to write if its log is short enough afterwards. -/
theorem lastIndex_add_le {batch : List WriteAhead} (hleads : r.role = .leader)
    (hlog : ((Turn.start r).onWriteAheads batch).replica.log.lastIndex < wordMax) :
    r.log.lastIndex + batch.length ≤ wordMax := by
  obtain ⟨commitIndex, lastApplied, h⟩ := (Turn.start r).exists_replica_onWriteAheads batch hleads
  rw [h] at hlog
  simp only [Log.lastIndex_appendAll, List.length_map] at hlog
  exact Nat.le_of_lt hlog

/-- A handler without a fault leaves nothing to fail. -/
private theorem handled {computed : Checked Turn} {t : Turn} (h : computed = .ok t) :
    (do return (← computed, .ok ()) : Checked Outcome) = .ok (t, .ok ()) := by
  rw [h]
  rfl

/-- **Whoever is prepared handles an event without a fault**, as long as the log is shorter than the largest
word, before and after, and there is a next term to stand for election in. -/
theorem Prepared.checkedHandle_eq (h : r.Prepared) (hlog : r.log.lastIndex < wordMax)
    (hlog' : (r.handle event).1.replica.log.lastIndex < wordMax)
    (hterm : r.Standing event → r.term < wordMax) :
    r.checkedHandle event = .ok (r.handle event) := by
  obtain ⟨hsteady, hstands⟩ := h
  have happlied := hsteady.applied
  let t := Turn.start r
  cases event with
  | error message => rfl
  | writeAhead write =>
    exact handled (Turn.checkedOnWriteAheads_eq (t := t) hsteady fun hrole =>
      lastIndex_add_le hrole hlog')
  | aggregatedWriteAhead batch =>
    exact handled (Turn.checkedOnWriteAheads_eq (t := t) hsteady fun hrole =>
      lastIndex_add_le hrole hlog')
  | heartbeatTimeout => exact handled (Turn.checkedOnHeartbeatTimeout_eq (t := t) hsteady)
  | electionTimeout =>
    by_cases hrole : r.role = .follower ∨ r.role = .candidate
    · exact Turn.checkedOnElectionTimeout_eq (t := t) (hterm ⟨rfl, hrole⟩) happlied hlog
    · exact Turn.checkedOnElectionTimeout_of_leader (t := t) hrole
  | voteRequest request ticket => rfl
  | voteReply reply => exact handled (Turn.checkedOnVoteReply_eq (t := t) reply hstands happlied hlog)
  | appendRequest request ticket =>
    exact handled (Turn.checkedOnAppendRequest_eq (t := t) request ticket happlied (Nat.le_of_lt hlog'))
  | appendReply reply => exact handled (Turn.checkedOnAppendReply_eq (t := t) reply hsteady hlog)

/-- **The votes of a candidate can always be counted**: none are counted but those of members. -/
theorem Handles.countable (h : r.Handles event r')
    (hbefore : r.role = .candidate → ∀ votes, r.election = some votes → votes.Countable)
    (hstands : r'.role = .candidate) {votes : Election} (hvotes : r'.election = some votes) :
    votes.Countable := by
  cases h.change with
  | rest role _ _ _ election => exact hbefore (role ▸ hstands) votes (election ▸ hvotes)
  | write leads role =>
    rw [role, leads] at hstands
    cases hstands
  | follow _ role =>
    rw [role] at hstands
    cases hstands
  | grant _ _ _ role =>
    rcases role with role | ⟨role, -, election, -⟩
    · rw [role] at hstands
      cases hstands
    · exact hbefore (role ▸ hstands) votes (election ▸ hvotes)
  | stand called _ _ _ _ votes' =>
    obtain rfl := Option.some.inj (votes'.symm.trans hvotes)
    exact (Election.countable_called called).castOwnVote _
  | standInVain _ _ _ _ _ election =>
    rw [election] at hvotes
    cases hvotes
  | count stands _ _ votes' counted _ _ _ _ votes'' =>
    obtain rfl := Option.some.inj (votes''.symm.trans hvotes)
    exact (hbefore stands _ votes').vote counted
  | win _ _ _ _ _ role =>
    rw [role] at hstands
    cases hstands
  | winAlone _ _ role =>
    rw [role] at hstands
    cases hstands
  | accept _ _ role =>
    rw [role] at hstands
    cases hstands
  | refuse _ role =>
    rw [role] at hstands
    cases hstands
  | note leads _ _ role =>
    rw [role, leads] at hstands
    cases hstands

end Replica

namespace Life

variable (life : Life) {k : Nat}

theorem countable (k : Nat) (hstands : (life.state k).role = .candidate) {votes : Election}
    (hvotes : (life.state k).election = some votes) : votes.Countable := by
  induction k generalizing votes with
  | zero =>
    rw [life.fresh.role] at hstands
    cases hstands
  | succ k ih => exact (life.handles k).countable (fun hstands' _ => ih hstands') hstands hvotes

/-- As long as no event has failed, a replica is prepared for the next one. -/
theorem prepared (hok : ∀ j < k, ((life.state j).handle (life.event j)).2 = .ok ()) :
    (life.state k).Prepared := by
  refine ⟨life.steady k, ?_⟩
  intro hstands
  have hcoherent := (life.tidy hok).coherent
  obtain ⟨votes, hvotes⟩ := Option.isSome_iff_exists.mp (hcoherent.election.mpr hstands)
  exact ⟨votes, hvotes, life.countable k hstands hvotes⟩

/-- **A replica that serves handles events without a fault.**  Whatever its roster, and whatever it has
been sent, so long as no event has failed, no message was of a term that is no word, and its log is shorter
than the largest word: no number in the log, the books, the election or the handlers leaves its word, no
place lies outside of its list, and nothing is missing that belongs to the role or that is committed.  The
only exception is an election timeout in the largest term, when a follower or a candidate would go on to
the next one. -/
theorem handling_has_no_fault (life : Life) (k : Nat)
    (hok : ∀ j < k, ((life.state j).handle (life.event j)).2 = .ok ())
    (hmessages : ∀ j < k, (life.event j).term ≤ wordMax)
    (hlog : (life.state k).log.lastIndex < wordMax)
    (hlog' : (life.state (k + 1)).log.lastIndex < wordMax) :
    (life.state k).checkedHandle (life.event k) =
      if (life.state k).Standing (life.event k) ∧ (life.state k).term = wordMax then .error .overflow
      else .ok ((life.state k).handle (life.event k)) := by
  have hword := life.term_le hmessages
  split
  · rename_i hlast
    obtain ⟨⟨htimeout, hrole⟩, hterm⟩ := hlast
    rw [Replica.checkedHandle, htimeout]
    exact Turn.checkedOnElectionTimeout_overflow hterm hrole
  · rename_i hnext
    refine (life.prepared hok).checkedHandle_eq hlog hlog' fun hstanding => ?_
    exact Nat.lt_of_le_of_ne hword fun hterm => hnext ⟨hstanding, hterm⟩

/-- `a` is sent two entries by `b`, is elected in place of it, and writes a third.  It hears that `b` has all of
them, and sends its next heartbeat. -/
def industrious : Life := sample [
  .appendRequest ⟨1, "b", 0, 0, 0, [⟨1, 1, [7]⟩, ⟨2, 1, [8]⟩]⟩ 0,
  .electionTimeout,
  .voteReply ⟨"b", 2, true⟩,
  .writeAhead ⟨[9], some 1⟩,
  .appendReply ⟨"b", 2, true, 3, 0⟩,
  .heartbeatTimeout]

/-- `a` is asked for its vote in the largest term and hears from nobody afterwards. -/
def exhausted : Life := sample [.voteRequest ⟨wordMax, "b", 0, 0⟩ 0, .electionTimeout]

/-- Merging, standing for election, counting votes, appending, noting matches, committing and replicating have
no fault, and neither has voting in the largest term.  The timeout after that is an overflow. -/
theorem handling_has_no_fault_exhausted :
    (∀ k < 6, (industrious.state k).checkedHandle (industrious.event k) =
      .ok ((industrious.state k).handle (industrious.event k))) ∧
    (industrious.state 6).role = .leader ∧ (industrious.state 6).commitIndex = 3 ∧
    (exhausted.state 0).checkedHandle (exhausted.event 0) =
        .ok ((exhausted.state 0).handle (exhausted.event 0)) ∧
      (exhausted.state 1).checkedHandle (exhausted.event 1) = .error .overflow := by
  refine ⟨?industrious, by decide +kernel, by decide +kernel, ?exhausted⟩
  case industrious =>
    intro k hk
    have hsome : ∀ j < 6, ((industrious.state j).handle (industrious.event j)).2.toOption.isSome = true := by
      decide +kernel
    have hok : ∀ j < 6, ((industrious.state j).handle (industrious.event j)).2 = .ok () := by
      intro j hj
      have hthere := hsome j hj
      cases hresult : ((industrious.state j).handle (industrious.event j)).2 with
      | ok => rfl
      | error error =>
        rw [hresult] at hthere
        cases hthere
    have hmessage : ∀ j < 6, (industrious.event j).term ≤ wordMax := by decide +kernel
    have hshort : ∀ j < 7, (industrious.state j).log.lastIndex < wordMax := by decide +kernel
    have hterm : ∀ j < 6, (industrious.state j).term ≠ wordMax := by decide +kernel
    have hhandled := handling_has_no_fault industrious k (fun j hj => hok j (by omega))
      (fun j hj => hmessage j (by omega)) (hshort k (by omega)) (hshort (k + 1) (by omega))
    rwa [if_neg fun hlast => hterm k hk hlast.2] at hhandled
  case exhausted =>
    have hshort : ∀ j < 3, (exhausted.state j).log.lastIndex < wordMax := by decide +kernel
    have hmessage : ∀ j < 1, (exhausted.event j).term ≤ wordMax := by decide +kernel
    have hok : ∀ j < 1, ((exhausted.state j).handle (exhausted.event j)).2 = .ok () := by
      intro j hj
      obtain rfl : j = 0 := by omega
      rfl
    have hfirst := handling_has_no_fault exhausted 0 (by simp) (by simp)
      (hshort 0 (by omega)) (hshort 1 (by omega))
    have hsecond := handling_has_no_fault exhausted 1 hok hmessage
      (hshort 1 (by omega)) (hshort 2 (by omega))
    have hlast : (exhausted.state 1).Standing (exhausted.event 1) ∧ (exhausted.state 1).term = wordMax := by
      decide +kernel
    rw [if_pos hlast] at hsecond
    rw [if_neg (by decide +kernel)] at hfirst
    exact ⟨hfirst, hsecond⟩

end Life

end RaftReplica
