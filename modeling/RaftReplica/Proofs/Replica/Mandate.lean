import RaftReplica.Proofs.Quorum.Majority
import RaftReplica.Proofs.Replica.Life

/-!
# The mandate of a leader

A candidate counts votes in an election that begins with its candidacy and ends with it, and leads only
once a majority of its quorum has voted for it in its term.  Replies of earlier terms, second votes of
one host and votes of strangers reach it all the same, but none of them counts.

* `Replica.Backed` says what the votes of a replica in office are worth, and `Handles.backed` that every
  event keeps that up.  What a vote stands for is left open: for a member of a cluster it is that the
  voter has voted, for a replica by itself that it has handled a reply which says so.
* `Life.ballots` are the hosts whose votes have reached a candidate in a term, and `Life.backers` the
  members of the quorum among them, with the replica itself.
-/

namespace RaftReplica

/-- The caller of an election votes for itself and for nobody else. -/
theorem Election.Among.castOwnVote {names : List String} {P : String → Prop} {e : Election}
    {name : String} (h : e.Among names P) (hname : P name) :
    (Turn.castOwnVote e name).Among names P := by
  unfold Turn.castOwnVote
  split
  · rename_i hvote
    exact h.vote hvote hname
  · exact h

namespace Replica

/-! ## One event -/

/-- What the votes of a replica in office are worth: whoever a candidate counts is one of the hosts and
has a property, and a leader has a majority of hosts that have it. -/
structure Backed (r : Replica) (hosts : List String) (P : String → Prop) : Prop where
  candidate : r.role = .candidate → ∀ votes, r.election = some votes → votes.Among hosts P
  leader : r.role = .leader → Most hosts P

variable {r r' : Replica} {event : Event} {hosts : List String} {P Q : String → Prop}

theorem Backed.of_follower (h : r.role = .follower) : r.Backed hosts P := by
  constructor <;>
    · intro hrole
      rw [h] at hrole
      cases hrole

theorem Backed.of_candidate (hstands : r.role = .candidate)
    (h : ∀ votes, r.election = some votes → votes.Among hosts P) : r.Backed hosts P := by
  refine ⟨fun _ => h, ?_⟩
  intro hleads
  rw [hstands] at hleads
  cases hleads

theorem Backed.of_leader (hleads : r.role = .leader) (h : Most hosts P) : r.Backed hosts P := by
  refine ⟨?_, fun _ => h⟩
  intro hstands
  rw [hleads] at hstands
  cases hstands

/-- Whoever keeps its role and its election keeps its votes. -/
theorem Backed.mono (h : r.Backed hosts P) (hrole : r'.role = r.role)
    (helection : r'.election = r.election) (hPQ : ∀ voter, P voter → Q voter) :
    r'.Backed hosts Q := by
  constructor
  · intro hstands votes hvotes
    rw [hrole] at hstands
    rw [helection] at hvotes
    exact (h.candidate hstands votes hvotes).mono hPQ
  · intro hleads
    rw [hrole] at hleads
    exact (h.leader hleads).mono fun voter _ => hPQ voter

/-- An election that has just been called counts at most the vote of its caller. -/
theorem among_of_called (hhosts : ∀ host, host ∈ r.quorum.hosts ↔ host ∈ hosts) {votes : Election}
    (hcalled : r.quorum.election = .ok votes) (hown : P r.name) :
    (Turn.castOwnVote votes r.name).Among hosts P := by
  obtain ⟨hmembers, hnobody⟩ := Quorum.election_ok hcalled
  refine Election.Among.castOwnVote ⟨?_, ?_⟩ hown
  · rw [hmembers]
    exact hhosts
  · intro voter hvoter
    exact absurd hvoter (hnobody voter)

/-- **Votes are worth after an event what they were worth before it.**  What they stood for has to outlast
the event as long as the term does, and what the replica's own vote and a vote that it counts now stand
for has to hold. -/
theorem Handles.backed (h : r.Handles event r') (hbefore : r.Backed hosts P)
    (hnodup : hosts.Nodup) (hhosts : ∀ host, host ∈ r.quorum.hosts ↔ host ∈ hosts)
    (hlasts : r'.term = r.term → ∀ voter, P voter → Q voter) (hown : r'.InOffice → Q r.name)
    (hcounts : ∀ reply, event = .voteReply reply → r.role = .candidate → r'.term = r.term →
      reply.term = r.term → reply.granted = true → Q reply.remote) : r'.Backed hosts Q := by
  cases h.change with
  | rest role term _ _ election => exact hbefore.mono role election (hlasts term)
  | write leads role term | note leads _ _ role term =>
    exact .of_leader (role.trans leads)
      ((hbefore.leader leads).mono fun voter _ => hlasts term voter)
  | grant _ _ _ role =>
    rcases role with hrole | ⟨hrole, hterm, helection, -⟩
    · exact .of_follower hrole
    · exact hbefore.mono hrole helection (hlasts hterm)
  | @stand votes _ called role _ _ _ votes' =>
    refine .of_candidate role ?_
    intro counted hcounted
    rw [votes'] at hcounted
    cases hcounted
    exact among_of_called hhosts called (hown (Or.inl role))
  | standInVain role idle _ _ _ election =>
    constructor
    · intro _ votes hvotes
      rw [election] at hvotes
      cases hvotes
    · intro hleads
      exact absurd (role ▸ hleads) idle
  | count stands present granted votes counted role term _ _ votes' =>
    refine .of_candidate (role.trans stands) ?_
    intro after hafter
    rw [votes'] at hafter
    cases hafter
    have hamong := (hbefore.candidate stands _ votes).mono (hlasts term)
    exact hamong.vote counted (hcounts _ rfl stands term present granted)
  | win stands present granted votes counted role term =>
    have hamong := (hbefore.candidate stands _ votes).mono (hlasts term)
    have hpassed := (Election.vote_ok counted).1
    exact .of_leader role
      ((hamong.vote counted (hcounts _ rfl stands term present granted)).most hnodup hpassed.symm)
  | winAlone called passed role =>
    exact .of_leader role
      ((among_of_called hhosts called (hown (Or.inr role))).most hnodup passed)
  | follow _ role | accept _ _ role | refuse _ role => exact .of_follower role

end Replica

/-! ## A whole life -/

namespace Life

variable (life : Life)

/-- The host whose vote the event of that number brings to the candidate of a term, if it brings one. -/
def ballot? (term k : Nat) : Option String :=
  match life.event k with
  | .voteReply reply =>
    if (life.state k).role = .candidate ∧ (life.state k).term = term ∧ reply.term = term ∧
        reply.granted = true then some reply.remote
    else none
  | _ => none

/-- The hosts whose votes have reached the candidate of a term before the event of that number. -/
def ballots (term k : Nat) : List String := (List.range k).filterMap (life.ballot? term)

/-- The members of the quorum that back the replica in its term: itself, if it is one of them, and those
whose votes have reached it as a candidate. -/
def backers (k : Nat) : List String :=
  (life.state k).quorum.names.filter fun host =>
    host = life.name ∨ host ∈ life.ballots (life.state k).term k

theorem ballots_succ (term k : Nat) :
    life.ballots term (k + 1) = life.ballots term k ++ (life.ballot? term k).toList := by
  rw [ballots, List.range_succ, List.filterMap_append]
  cases h : life.ballot? term k <;> simp [h, ballots]

theorem quorum_state (k : Nat) : (life.state k).quorum = (life.state 0).quorum :=
  (life.becomes (Nat.zero_le k)).sameMember.quorum

/-- What a candidate counts and a leader has counted are its own vote and votes that have reached it. -/
theorem backed (k : Nat) :
    (life.state k).Backed (life.state k).quorum.names fun voter =>
      voter = life.name ∨ voter ∈ life.ballots (life.state k).term k := by
  induction k with
  | zero => exact .of_follower life.fresh.role
  | succ k ih =>
    rw [life.quorum_state k] at ih
    rw [life.quorum_state (k + 1)]
    refine (life.handles k).backed ih (Quorum.nodup_names _) ?_ ?_ ?_ ?_
    · intro host
      rw [life.quorum_state k, Quorum.mem_names]
    · intro hterm voter
      rw [hterm, ballots_succ, List.mem_append]
      exact Or.imp_right Or.inl
    · intro _
      exact Or.inl (life.name_state k)
    · intro reply hevent hstands hterm hpresent hgranted
      have hballot : life.ballot? (life.state (k + 1)).term k = some reply.remote := by
        simp [ballot?, hevent, hstands, hterm, hpresent, hgranted]
      right
      rw [ballots_succ, hballot]
      exact List.mem_append_right _ (List.mem_singleton_self _)

/-- **Nobody leads without a majority.**  Whenever a replica leads, more than half of its quorum back it in
its term, each of whom is the replica itself or has had a vote for that term handled by it while it was a
candidate in that term. -/
theorem leadership_needs_majority (life : Life) {k : Nat}
    (hleads : (life.state k).role = .leader) :
    (life.backers k).Nodup ∧ (life.state k).quorum.size / 2 + 1 ≤ (life.backers k).length := by
  refine ⟨(Quorum.nodup_names _).filter _, ?_⟩
  have hmost := ((life.backed k).leader hleads).length_filter
  rw [Quorum.size_eq_length, backers]
  omega

/-- `a` stands for election twice.  In its second term it is sent the vote that `b` has given it in the
first, the vote of a stranger, one in its own name and a refusal, and then the vote of `b`. -/
def contested : Life := sample [
  .electionTimeout,
  .electionTimeout,
  .voteReply ⟨"b", 1, true⟩,
  .voteReply ⟨"x", 2, true⟩,
  .voteReply ⟨"a", 2, true⟩,
  .voteReply ⟨"b", 2, false⟩,
  .voteReply ⟨"b", 2, true⟩]

/-- The replica stays a candidate until the vote of `b` for its second term, and then leads with both
members of its quorum behind it. -/
theorem leadership_needs_majority_contested :
    (contested.state 6).role = .candidate ∧ (contested.state 7).role = .leader ∧
      contested.backers 7 = ["a", "b"] ∧
        (contested.state 7).quorum.size / 2 + 1 ≤ (contested.backers 7).length := by
  have hleads : (contested.state 7).role = .leader := by decide +kernel
  refine ⟨?_, hleads, ?_, (leadership_needs_majority contested hleads).2⟩
  · decide +kernel
  · decide +kernel

end Life

end RaftReplica
