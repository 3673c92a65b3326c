import Mathlib.Data.List.Dedup
import RaftReplica.Proofs.Replica.Bookkeeping

/-!
# Who holds what a leader commits

An election counts the members of the quorum, which are the hosts that have a name.  A commit index is taken
from the records of the peers instead, and there is a record for a peer without a name as well.  Where
everybody has a name the two counts agree: a leader commits what more than half of its quorum hold.  Where
somebody has none, a leader may commit what only half of its quorum hold.  That is still enough for every
majority of votes to include somebody who holds it.

* `Replica.holders` are the members of the quorum that hold an index by the leader's records.
* `Most.length_named` turns a majority of hosts into a count of those that have a name.
* `Booked.most_of_majorityIndex?` is the majority of all hosts behind the index that a leader may commit.
-/

namespace RaftReplica

/-! ## Hosts without a name -/

/-- At most one host of a list without repetitions is lost with those that have no name. -/
theorem length_le_length_named {hosts : List String} (hnodup : hosts.Nodup) :
    hosts.length ≤ (hosts.filter (· != "")).length + 1 := by
  rw [← hnodup.erase_eq_filter, List.length_erase]
  split <;> omega

/-- If more than half of all hosts have a property, then half of those with a name have it at least, and
more than half if everybody has a name. -/
theorem Most.length_named {hosts : List String} {P : String → Prop} [DecidablePred P]
    (hnodup : hosts.Nodup) (h : Most hosts P) :
    let named := hosts.filter (· != "")
    let having := named.filter fun host => P host
    named.length ≤ 2 * having.length ∧ ("" ∉ hosts → named.length < 2 * having.length) := by
  have hcount := h.length_filter
  have hcomm : (hosts.filter (· != "")).filter (fun host => P host) =
      (hosts.filter fun host => P host).filter (· != "") := by
    rw [List.filter_filter, List.filter_filter]
    exact List.filter_congr fun host _ => Bool.and_comm _ _
  simp only [hcomm]
  by_cases hempty : "" ∈ hosts
  · have hlost := length_le_length_named (hnodup.filter fun host => P host)
    have hnamed : (hosts.filter (· != "")).length = hosts.length - 1 := by
      rw [← hnodup.erase_eq_filter, List.length_erase_of_mem hempty]
    exact ⟨by omega, fun h => absurd hempty h⟩
  · have hall : ∀ part : List String, part ⊆ hosts → part.filter (· != "") = part := by
      intro part hpart
      rw [List.filter_eq_self]
      intro host hhost
      rw [bne_iff_ne]
      rintro rfl
      exact hempty (hpart hhost)
    rw [hall _ (List.filter_subset_self hosts), hall _ (List.Subset.refl _)]
    exact ⟨by omega, fun _ => hcount⟩

namespace Replica

/-! ## The records of a leader -/

/-- Whether a host holds the log up to an index by the records of a replica: the replica itself does, and so
does a peer that is known to match so far. -/
def holds (r : Replica) (index : Nat) (host : String) : Bool :=
  host = r.name ||
    ((r.progress.bind fun progress => progress.get? host).any fun p => index ≤ p.matched)

/-- The members of the quorum that hold the log up to an index by the records of the replica. -/
def holders (r : Replica) (index : Nat) : List String := r.quorum.names.filter (r.holds index)

variable {r : Replica} {progress : Progress} {index : Nat}

theorem holds_self (r : Replica) (index : Nat) : r.holds index r.name = true := by
  simp [holds]

theorem holds_of_matched (hprogress : r.progress = some progress) {host : String} {p : PeerProgress}
    (hp : progress.get? host = some p) (hindex : index ≤ p.matched) : r.holds index host = true := by
  simp [holds, hprogress, hp, hindex]

/-- What a leader may commit is held by most of itself and its peers, with or without a name. -/
theorem Booked.most_of_majorityIndex? (h : r.Booked progress) (hprogress : r.progress = some progress)
    (hself : r.name ∉ r.peers.names) (hmajority : r.majorityIndex? = some index) :
    Most (r.name :: r.peers.names.dedup) fun host => r.holds index host = true := by
  rw [majorityIndex?, hprogress, Option.map_some, Option.some_inj] at hmajority
  refine Progress.most_of_clusterCommitIndex ?_ List.mem_cons_self ?_ hmajority
    (r.holds_self index) fun host p => holds_of_matched hprogress
  · rw [List.nodup_cons, List.mem_dedup]
    exact ⟨hself, List.nodup_dedup _⟩
  · intro host
    rw [h.known, List.mem_cons, List.mem_dedup]
    constructor
    · intro hhost
      exact ⟨Or.inr hhost, fun heq => hself (heq ▸ hhost)⟩
    · rintro ⟨rfl | hhost, hne⟩
      · exact absurd rfl hne
      · exact hhost

/-- What a leader may commit is held by half of its quorum at least, and by more than half if the leader and
all its peers have a name. -/
theorem Booked.length_holders (h : r.Booked progress) (hprogress : r.progress = some progress)
    (hself : r.name ∉ r.peers.names)
    (hhosts : ∀ host, host ∈ r.quorum.hosts ↔ (host ∈ r.peers.names ∨ host = r.name) ∧ host ≠ "")
    (hmajority : r.majorityIndex? = some index) :
    r.quorum.size ≤ 2 * (r.holders index).length ∧
      (r.name ≠ "" → "" ∉ r.peers.names → r.quorum.size < 2 * (r.holders index).length) := by
  let all := r.name :: r.peers.names.dedup
  have hnodup : all.Nodup := by
    rw [List.nodup_cons, List.mem_dedup]
    exact ⟨hself, List.nodup_dedup _⟩
  have hquorum : r.quorum.names.Perm (all.filter (· != "")) := by
    rw [List.perm_ext_iff_of_nodup r.quorum.nodup_names (hnodup.filter _)]
    intro host
    rw [Quorum.mem_names, hhosts, List.mem_filter, List.mem_cons, List.mem_dedup, bne_iff_ne, or_comm]
  have hholders : (r.holders index).length =
      ((all.filter (· != "")).filter fun host => r.holds index host = true).length := by
    rw [holders, (hquorum.filter _).length_eq]
    simp
  obtain ⟨hhalf, hmore⟩ := (h.most_of_majorityIndex? hprogress hself hmajority).length_named hnodup
  rw [Quorum.size_eq_length, hquorum.length_eq, hholders]
  refine ⟨hhalf, fun hname hpeers => hmore ?_⟩
  rw [List.mem_cons, List.mem_dedup]
  rintro (hempty | hempty)
  · exact hname hempty.symm
  · exact hpeers hempty

end Replica

/-! ## A whole life -/

namespace Life

/-- **What a leader commits is held by its quorum.**  Whenever a replica raises its commit index as a leader,
half of its quorum at least hold the new index by its records: the replica itself, whose log reaches up to
there, and members that are known to match so far.  If the replica and everybody in its roster have names,
a majority of the quorum do. -/
theorem commit_held_by_quorum (life : Life) {k : Nat}
    (hleads : (life.state (k + 1)).role = .leader)
    (hraises : (life.state k).commitIndex < (life.state (k + 1)).commitIndex) :
    let r := life.state (k + 1)
    r.commitIndex ≤ r.log.lastIndex ∧ (r.holders r.commitIndex).Nodup ∧
      r.quorum.size - r.quorum.size / 2 ≤ (r.holders r.commitIndex).length ∧
      (life.name ≠ "" → "" ∉ life.roster.names →
        r.quorum.size / 2 + 1 ≤ (r.holders r.commitIndex).length) := by
  obtain ⟨progress, hprogress, hbooked⟩ := life.booked hleads
  have hname := life.name_state (k + 1)
  have hself : (life.state (k + 1)).name ∉ (life.state (k + 1)).peers.names := by
    rw [life.mem_peers, hname]
    exact fun h => h.2 rfl
  have hcommits := (life.state k).commits_handle (life.event k)
  have hmajority : (life.state (k + 1)).majorityIndex? = some (life.state (k + 1)).commitIndex :=
    (hcommits.majority_of_rises hraises hleads).1
  have hpresent := (hcommits.majority_of_rises hraises hleads).2
  obtain ⟨hhalf, hmore⟩ := hbooked.length_holders hprogress hself
    (by rw [hname]; exact fun host => life.mem_hosts (k + 1)) hmajority
  refine ⟨Log.le_length_of_termAt? hpresent, (Quorum.nodup_names _).filter _, by omega, ?_⟩
  intro hnamed hroster
  have hlt := hmore (hname ▸ hnamed) fun hpeer => hroster ((life.mem_peers (k + 1)).mp hpeer).1
  omega

/-- Two peers, one of them without a name. -/
def namelessRoster : Roster := Roster.ofPeers [⟨2, "b", "b:1", none⟩, ⟨3, "", "c:1", none⟩]

theorem boots_nameless :
    (Replica.boot? "a" namelessRoster Options.default true).isSome = true := by
  decide +kernel

/-- With the vote of `b` its peer `a` leads, and writes an entry, which the peer without a name then holds as
well. -/
def nameless : Life where
  name := "a"
  roster := namelessRoster
  options := Options.default
  listening := true
  start := (Replica.boot? "a" namelessRoster Options.default true).get boots_nameless
  boots := (Option.some_get boots_nameless).symm
  event k := [Event.electionTimeout, .voteReply ⟨"b", 1, true⟩, .writeAhead ⟨[1], none⟩,
    .appendReply ⟨"", 1, true, 1, 0⟩].getD k .heartbeatTimeout

-- The matches of two peers are sorted by a recursion that does not evaluate.  So the states are taken one
-- turn at a time, with `majorityIndex?_of_two` for the sorting.

/-- The turn in which `a` comes to lead, as far as it changes the replica. -/
def namelessLeads : Turn := (Turn.start (nameless.state 1)).prepareLeader.settle .leader

/-- The turn in which `a` writes, again as far as it changes the replica. -/
def namelessWrites : Turn := (Turn.start namelessLeads.replica).writeOne ⟨[1], none⟩

/-- The turn in which `a` hears of the peer without a name, before anything is committed. -/
def namelessHears : Turn := (Turn.start namelessWrites.replica).update fun r =>
  { r with progress := r.progress.map fun progress => progress.succeed "" (min 1 r.log.lastIndex) }

theorem nameless_state_two : nameless.state 2 = namelessLeads.replica := by
  have hmajority : namelessLeads.replica.majorityIndex? = some (max 0 0) :=
    Replica.majorityIndex?_of_two (by decide +kernel)
  calc nameless.state 2
      = ((Turn.start (nameless.state 1)).onVoteReply ⟨"b", 1, true⟩).replica := rfl
    _ = (Turn.start (nameless.state 1)).becomeLeader.replica := by
        rw [Turn.onVoteReply_of_passes] <;> decide +kernel
    _ = namelessLeads.replica :=
        Turn.replica_becomeLeader_of_le _ hmajority (by decide +kernel)

theorem nameless_state_three : nameless.state 3 = namelessWrites.replica := by
  have hleads : (Turn.start namelessLeads.replica).replica.role = .leader := by decide +kernel
  have hidle : namelessWrites.advanceCommitIndex = namelessWrites :=
    Turn.advanceCommitIndex_of_le _ _ (Replica.majorityIndex?_of_two (a := 0) (b := 0)
      (by decide +kernel)) (by decide +kernel)
  calc nameless.state 3
      = ((Turn.start (nameless.state 2)).onWriteAheads [⟨[1], none⟩]).replica := rfl
    _ = ((Turn.start namelessLeads.replica).onWriteAheads [⟨[1], none⟩]).replica := by
        rw [nameless_state_two]
    _ = namelessWrites.advanceCommitIndex.replica := by
        rw [Turn.onWriteAheads, if_pos hleads, Turn.replica_replicate, List.foldl_cons,
          List.foldl_nil, namelessWrites]
    _ = namelessWrites.replica := by rw [hidle]

theorem nameless_state_four : nameless.state 4 = (namelessHears.commitTo 1).replica := by
  have hcommits : namelessHears.advanceCommitIndex = namelessHears.commitTo 1 :=
    Turn.advanceCommitIndex_of_lt _ _ (Replica.majorityIndex?_of_two (a := 1) (b := 0)
      (by decide +kernel)) (by decide +kernel) (by decide +kernel)
  calc nameless.state 4
      = ((Turn.start (nameless.state 3)).onAppendReply ⟨"", 1, true, 1, 0⟩).replica := rfl
    _ = ((Turn.start namelessWrites.replica).onAppendReply ⟨"", 1, true, 1, 0⟩).replica := by
        rw [nameless_state_three]
    _ = namelessHears.advanceCommitIndex.replica := by
        rw [Turn.onAppendReply_of_success]
        · rfl
        all_goals decide +kernel
    _ = (namelessHears.commitTo 1).replica := by rw [hcommits]

/-- The entry is committed although only one of the two members of the quorum holds it. -/
theorem commit_held_by_half :
    (nameless.state 4).role = .leader ∧ (nameless.state 3).commitIndex = 0 ∧
      (nameless.state 4).commitIndex = 1 ∧ (nameless.state 4).holders 1 = ["a"] ∧
        ¬ (nameless.state 4).quorum.size / 2 + 1 ≤ ((nameless.state 4).holders 1).length := by
  rw [nameless_state_three, nameless_state_four]
  decide +kernel

/-- `a` commits an entry that `b` holds as well, and everybody has a name. -/
def shared : Life := sample [
  .electionTimeout,
  .voteReply ⟨"b", 1, true⟩,
  .writeAhead ⟨[1], none⟩,
  .appendReply ⟨"b", 1, true, 1, 0⟩]

/-- Both members of the quorum hold the entry once it is committed. -/
theorem commit_held_by_quorum_shared :
    (shared.state 4).role = .leader ∧ (shared.state 3).commitIndex < (shared.state 4).commitIndex ∧
      "" ∉ shared.roster.names ∧ (shared.state 4).quorum.size = 2 ∧
        (shared.state 4).quorum.size / 2 + 1 ≤
          ((shared.state 4).holders (shared.state 4).commitIndex).length := by
  have hleads : (shared.state 4).role = .leader := by decide +kernel
  have hraises : (shared.state 3).commitIndex < (shared.state 4).commitIndex := by decide +kernel
  have hname : shared.name ≠ "" := by decide +kernel
  have hroster : "" ∉ shared.roster.names := by decide +kernel
  obtain ⟨-, -, -, hnamed⟩ := commit_held_by_quorum shared hleads hraises
  simp only [Nat.reduceAdd] at hnamed
  exact ⟨hleads, hraises, hroster, by decide +kernel, hnamed hname hroster⟩

end Life

end RaftReplica
