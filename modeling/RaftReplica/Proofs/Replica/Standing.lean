import RaftReplica.Proofs.Peer.Connection
import RaftReplica.Proofs.Replica.Life

/-!
# How a replica stands to its surroundings

Bootstrapping connects a replica to its peers, and fails if one of them cannot be connected.  From then on
no event touches the connections, the settings or the pipe, and nothing is called off before the replica
stops.  So whatever a serving replica asks to be sent goes out.

* `SameStanding` is what no event changes besides name, quorum and peers, and `sameStanding_handle` says
  so of every event.
* `bootstrap_standing` says how a replica stands once it is bootstrapped, and `Life.peers_state` and
  `Life.cancelled_state` that it always stands so.
-/

namespace RaftReplica

namespace Replica

/-- The two have the same settings and stand in the same way to their surroundings. -/
structure SameStanding (r r' : Replica) : Prop where
  settings : r'.settings = r.settings
  bootstrapped : r'.bootstrapped = r.bootstrapped
  listening : r'.listening = r.listening
  cancelled : r'.cancelled = r.cancelled

namespace SameStanding

theorem refl (r : Replica) : r.SameStanding r := ⟨rfl, rfl, rfl, rfl⟩

theorem trans {r s s' : Replica} (h : r.SameStanding s) (h' : s.SameStanding s') : r.SameStanding s' :=
  ⟨h'.settings.trans h.settings, h'.bootstrapped.trans h.bootstrapped, h'.listening.trans h.listening,
    h'.cancelled.trans h.cancelled⟩

end SameStanding

end Replica

/-! ## Events -/

namespace Turn

open Replica (SameStanding)

variable (t : Turn)

theorem sameStanding_stepDown (term : Nat) (leader : Option String) :
    t.replica.SameStanding (t.stepDown term leader).replica := by
  unfold stepDown
  by_cases hrole : t.replica.role = .follower <;>
    by_cases hterm : t.replica.term < term <;> constructor <;> simp [hrole, hterm]

theorem sameStanding_becomeLeader : t.replica.SameStanding t.becomeLeader.replica := by
  obtain ⟨commitIndex, lastApplied, h⟩ := t.exists_replica_becomeLeader
  rw [h]
  exact ⟨rfl, rfl, rfl, rfl⟩

theorem sameStanding_onWriteAheads (batch : List WriteAhead) :
    t.replica.SameStanding (t.onWriteAheads batch).replica := by
  by_cases hrole : t.replica.role = .leader
  · obtain ⟨commitIndex, lastApplied, h⟩ := t.exists_replica_onWriteAheads batch hrole
    rw [h]
    exact ⟨rfl, rfl, rfl, rfl⟩
  · rw [t.onWriteAheads_of_not_leader batch hrole, replica_foldl_refuseOne]
    exact .refl _

theorem sameStanding_onElectionTimeout : t.replica.SameStanding t.onElectionTimeout.1.replica := by
  rcases t.onElectionTimeout_cases with h | ⟨-, ⟨cause, -, h⟩ | ⟨election, -, ⟨-, h⟩ | h⟩⟩
  · rw [h]
    exact .refl _
  · rw [h]
    exact ⟨rfl, rfl, rfl, rfl⟩
  · have hstands : t.replica.SameStanding (t.stand election).replica := by
      rw [replica_stand]
      exact ⟨rfl, rfl, rfl, rfl⟩
    rw [h]
    exact hstands.trans (t.stand election).sameStanding_becomeLeader
  · rw [h, replica_emit, replica_stand]
    exact ⟨rfl, rfl, rfl, rfl⟩

theorem sameStanding_onVoteRequest (request : VoteRequest) (ticket : Ticket) :
    t.replica.SameStanding (t.onVoteRequest request ticket).replica := by
  rcases Nat.lt_or_ge request.term t.replica.term with hstale | hle
  · rw [t.onVoteRequest_of_lt ticket hstale]
    exact .refl _
  · have hheeds : t.replica.SameStanding (t.heed request.term).replica := by
      unfold heed
      split
      · exact t.sameStanding_stepDown _ _
      · exact .refl _
    rw [t.onVoteRequest_of_le ticket hle]
    refine hheeds.trans ?_
    simp only [replica_emit]
    unfold decideVote
    split
    · constructor <;> simp
    · exact .refl _

theorem sameStanding_onVoteReply (reply : VoteReply) :
    t.replica.SameStanding (t.onVoteReply reply).replica := by
  unfold onVoteReply
  split
  · exact t.sameStanding_stepDown _ _
  · split
    · unfold countVote
      split
      · exact .refl _
      · split
        · exact .refl _
        · dsimp only
          split
          · exact SameStanding.trans ⟨rfl, rfl, rfl, rfl⟩ (sameStanding_becomeLeader _)
          · exact ⟨rfl, rfl, rfl, rfl⟩
    · exact .refl _

theorem sameStanding_onAppendRequest (request : AppendRequest) (ticket : Ticket) :
    t.replica.SameStanding (t.onAppendRequest request ticket).replica := by
  rcases Nat.lt_or_ge request.term t.replica.term with hstale | hle
  · rw [t.onAppendRequest_of_lt ticket hstale]
    exact .refl _
  · have hfollows : t.replica.SameStanding (t.follow request).replica := by
      unfold follow
      rw [replica_interruptTicker]
      split
      · exact t.sameStanding_stepDown _ _
      · exact .refl _
    rw [t.onAppendRequest_of_le ticket hle]
    refine hfollows.trans ?_
    simp only [replica_emit]
    rcases (t.follow request).acceptEntries_cases request with ⟨-, h⟩ | ⟨-, h⟩
    · obtain ⟨commitIndex, lastApplied, haccept⟩ := (t.follow request).exists_replica_accept request
      rw [h, haccept]
      exact ⟨rfl, rfl, rfl, rfl⟩
    · rw [h]
      exact .refl _

theorem sameStanding_onAppendReply (reply : AppendReply) :
    t.replica.SameStanding (t.onAppendReply reply).replica := by
  unfold onAppendReply
  split
  · exact t.sameStanding_stepDown _ _
  · split
    · split
      · rename_i progress _
        unfold noteReply
        dsimp only
        split
        · split
          · obtain ⟨commitIndex, lastApplied, h⟩ := exists_replica_advanceCommitIndex (t.update fun r =>
              { r with
                progress := some (progress.succeed reply.remote
                  (min reply.index t.replica.log.lastIndex)) })
            rw [h]
            exact ⟨rfl, rfl, rfl, rfl⟩
          · exact ⟨rfl, rfl, rfl, rfl⟩
        · exact .refl _
      · exact .refl _
    · exact .refl _

end Turn

namespace Replica

/-- **No event touches settings, pipe or connections**, or calls anything off. -/
theorem sameStanding_handle (r : Replica) (event : Event) :
    r.SameStanding (r.handle event).1.replica := by
  unfold handle Turn.handle
  cases event with
  | error message => exact .refl _
  | writeAhead write => exact (Turn.start r).sameStanding_onWriteAheads [write]
  | aggregatedWriteAhead batch => exact (Turn.start r).sameStanding_onWriteAheads batch
  | heartbeatTimeout =>
    simp only [Turn.onHeartbeatTimeout]
    split <;> exact .refl _
  | electionTimeout => exact (Turn.start r).sameStanding_onElectionTimeout
  | voteRequest request ticket => exact (Turn.start r).sameStanding_onVoteRequest request ticket
  | voteReply reply => exact (Turn.start r).sameStanding_onVoteReply reply
  | appendRequest request ticket => exact (Turn.start r).sameStanding_onAppendRequest request ticket
  | appendReply reply => exact (Turn.start r).sameStanding_onAppendReply reply

end Replica

/-! ## Connections -/

namespace Replica

variable {r : Replica} {t : Turn}

/-- Bootstrapping succeeds only if every peer has been connected. -/
theorem connect_of_bootstrap (hnew : r.bootstrapped = false) (h : r.bootstrap = (t, .ok ())) :
    (r.peers.connect r.settings.connect).2 = .ok () := by
  simp only [bootstrap, Turn.bootstrap, Turn.enterAll, Turn.enter, Turn.prepareRunning,
    Turn.replica_settle, Turn.replica_leaveOffice, Turn.replica_start, hnew] at h
  cases hconnect : (r.peers.connect r.settings.connect).2 with
  | error cause => simp [hconnect] at h
  | ok => rfl

/-- Bootstrapping connects a replica that has never been started to its peers, and calls nothing off. -/
theorem bootstrap_standing (h : r.bootstrap = (t, .ok ())) (hnew : r.bootstrapped = false) :
    t.replica.cancelled = r.cancelled ∧
      t.replica.peers = r.peers.map fun seat => { seat with connected := true } := by
  rw [bootstrap_eq hnew h, Roster.connect_ok (connect_of_bootstrap hnew h)]
  simp [bootstrapTurn, setTicker_eq]

theorem create_standing {name : String} {roster : Roster} {options : Options}
    (h : create name roster options = .ok r) :
    r.bootstrapped = false ∧ r.cancelled = false ∧
      r.peers = roster.filter fun seat => seat.peer.name != name := by
  unfold create at h
  split at h
  · cases h
  · cases h
    exact ⟨rfl, rfl, rfl⟩

end Replica

/-! ## A whole life -/

namespace Life

variable (life : Life)

/-- A replica stands to its surroundings as it did when it came to serve. -/
theorem sameStanding (k : Nat) : life.start.replica.SameStanding (life.state k) := by
  induction k with
  | zero => exact .refl _
  | succ k ih => exact ih.trans ((life.state k).sameStanding_handle (life.event k))

theorem standing_start : life.start.replica.cancelled = false ∧ life.start.replica.peers =
    (life.roster.filter fun seat => seat.peer.name != life.name).map
      fun seat => { seat with connected := true } := by
  obtain ⟨r, hcreate, hstart⟩ := Replica.exists_create_of_boot? life.boots
  obtain ⟨hnew, hcancelled, hpeers⟩ := Replica.create_standing hcreate
  obtain ⟨hcancelled', hpeers'⟩ := Replica.bootstrap_standing hstart hnew
  exact ⟨hcancelled'.trans hcancelled, by rw [hpeers', ← hpeers]⟩

/-- A replica that serves is connected to everybody in its roster but itself, in the roster's order. -/
theorem peers_state (k : Nat) : (life.state k).peers =
    (life.roster.filter fun seat => seat.peer.name != life.name).map
      fun seat => { seat with connected := true } := by
  rw [(life.becomes (Nat.zero_le k)).sameMember.peers]
  exact life.standing_start.2

/-- A replica that serves has called nothing off. -/
theorem cancelled_state (k : Nat) : (life.state k).cancelled = false :=
  (life.sameStanding k).cancelled.trans life.standing_start.1

theorem connected_state {k : Nat} {seat : Seat} (h : seat ∈ (life.state k).peers) :
    seat.connected = true := by
  rw [life.peers_state, List.mem_map] at h
  obtain ⟨-, -, rfl⟩ := h
  rfl

end Life

end RaftReplica
