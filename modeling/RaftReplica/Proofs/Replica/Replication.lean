import RaftReplica.Proofs.Replica.Bookkeeping
import RaftReplica.Proofs.Replica.Standing

/-!
# One round of replication

A leader that replicates sorts its peers into groups first, and sends each group one request.  A plain loop
over the peers would make a request for each of them from its own record.  The two send the same: every
peer gets one request, nobody gets two, and what a peer gets does not depend on who shares its group, nor
on the order in which records and groups come out of their tables.

* `Serves` says what is right to send to a peer with a given record, and `Serves.unique` that it is one
  request.
* `plainCalls` is the plain loop, and `Booked.map_plainCalls` says that it leaves out no peer.
* `Replicates` holds of the broadcasts of one round, for all orders of records and groups.
* `Booked.calls_groupBroadcasts` says that such broadcasts are the calls of the plain loop, and
  `Life.replication_serves_each_peer` what this makes of a leader.
-/

namespace RaftReplica

/-! ## What the log has to send -/

namespace Log

variable (log : Log) {next : Nat}

theorem length_entriesFrom (hpos : 1 ≤ next) (max : Nat) :
    (log.entriesFrom next max).length = min max (log.lastIndex + 1 - next) := by
  rw [entriesFrom, if_neg (Nat.ne_of_gt hpos), List.length_take, List.length_drop]
  simp only [lastIndex]
  omega

/-- The entries from an index on are those at this index and the following. -/
theorem getElem?_entriesFrom (hpos : 1 ≤ next) {max j : Nat} (hj : j < max) :
    (log.entriesFrom next max)[j]? = log.get? (next + j) := by
  rw [entriesFrom, if_neg (Nat.ne_of_gt hpos), List.getElem?_take_of_lt hj, List.getElem?_drop, get?,
    if_neg (by omega), Nat.sub_add_comm hpos]

end Log

namespace Replica

variable (r : Replica) {progress : Progress}

/-! ## One peer -/

/-- The request is right for a peer with that record: it is from this leader in its term, it ships the
leader's entries from the next one that the peer needs on, as many as there are and go into a request, and
it names the entry before them. -/
structure Serves (p : PeerProgress) (request : AppendRequest) : Prop where
  pos : 1 ≤ p.next
  term : request.term = r.term
  leader : request.leader = r.name
  prevLogIndex : request.prevLogIndex = p.next - 1
  prevLogTerm : r.log.termAt? (p.next - 1) = some request.prevLogTerm
  leaderCommit : request.leaderCommit = r.commitIndex
  length : request.entries.length = min maxEntriesPerAppend (r.log.lastIndex + 1 - p.next)
  entries : ∀ j, j < request.entries.length → request.entries[j]? = r.log.get? (p.next + j)

variable {r}

/-- There is only one request that is right for a peer. -/
theorem Serves.unique {p : PeerProgress} {request other : AppendRequest} (h : r.Serves p request)
    (h' : r.Serves p other) : request = other := by
  have hlength : request.entries.length = other.entries.length := h.length.trans h'.length.symm
  have hentries : request.entries = other.entries := by
    refine List.ext_getElem? fun j => ?_
    rcases Nat.lt_or_ge j request.entries.length with hj | hj
    · rw [h.entries j hj, h'.entries j (hlength ▸ hj)]
    · rw [List.getElem?_eq_none hj, List.getElem?_eq_none (hlength ▸ hj)]
  have hprev : request.prevLogTerm = other.prevLogTerm :=
    Option.some.inj (h.prevLogTerm.symm.trans h'.prevLogTerm)
  cases request
  cases other
  simp only [AppendRequest.mk.injEq]
  exact ⟨h.term.trans h'.term.symm, h.leader.trans h'.leader.symm,
    h.prevLogIndex.trans h'.prevLogIndex.symm, hprev, h.leaderCommit.trans h'.leaderCommit.symm, hentries⟩

/-- With a record that fits the log there is such a request, and the leader makes it. -/
theorem exists_serves {p : PeerProgress} (h : p.Fits r.log.lastIndex) :
    ∃ request, r.appendRequest? p.next = some request ∧ r.Serves p request := by
  have hpos := h.pos
  have hnext := h.next_le
  have hprev : p.next - 1 ≤ r.log.lastIndex := by omega
  obtain ⟨term, hterm⟩ := Log.exists_termAt?_of_le hprev
  have hlength := r.log.length_entriesFrom hpos maxEntriesPerAppend
  refine ⟨_, by rw [appendRequest?, hterm, Option.map_some], hpos, rfl, rfl, rfl, hterm, rfl, hlength, ?_⟩
  intro j hj
  rw [hlength] at hj
  exact r.log.getElem?_entriesFrom hpos (Nat.lt_of_lt_of_le hj (Nat.min_le_left _ _))

/-! ## The plain loop -/

variable (r progress)

/-- The request for a peer, made from its own record. -/
def plainRequest? (seat : Seat) : Option AppendRequest :=
  (progress.get? seat.peer.name).bind fun p => r.appendRequest? p.next

/-- What a loop over the peers sends that takes one after the other. -/
def plainCalls : List (Seat × AppendRequest) :=
  r.peers.filterMap fun seat => (r.plainRequest? progress seat).map fun request => (seat, request)

variable {r progress}

theorem Booked.exists_record (h : r.Booked progress) {seat : Seat} (hseat : seat ∈ r.peers) :
    ∃ p, progress.get? seat.peer.name = some p := by
  have hknown : progress.contains seat.peer.name = true := by
    rw [h.known]
    exact List.mem_map_of_mem hseat
  rw [Progress.contains, Std.TreeMap.contains_eq_isSome_getElem?] at hknown
  exact Option.isSome_iff_exists.mp hknown

/-- The plain loop leaves out no peer and serves none twice. -/
theorem Booked.map_plainCalls (h : r.Booked progress) : (r.plainCalls progress).map (·.1) = r.peers := by
  rw [plainCalls, List.map_filterMap]
  refine Eq.trans (List.filterMap_congr fun seat hseat => ?_) List.filterMap_some
  obtain ⟨p, hp⟩ := h.exists_record hseat
  obtain ⟨request, hrequest, -⟩ := exists_serves (h.fits _ p hp)
  simp [plainRequest?, hp, hrequest]

/-- The plain loop sends every peer what is right for it. -/
theorem Booked.serves_of_mem_plainCalls (h : r.Booked progress) {call : Seat × AppendRequest}
    (hcall : call ∈ r.plainCalls progress) :
    ∃ p, progress.get? call.1.peer.name = some p ∧ r.Serves p call.2 := by
  obtain ⟨seat, hseat, hmade⟩ := List.mem_filterMap.mp hcall
  obtain ⟨p, hp⟩ := h.exists_record hseat
  obtain ⟨request, hrequest, hserves⟩ := exists_serves (h.fits _ p hp)
  simp only [plainRequest?, hp, Option.bind_some, hrequest, Option.map_some, Option.some.injEq] at hmade
  subst hmade
  exact ⟨p, hp, hserves⟩

/-! ## Groups -/

variable (r) in
/-- The broadcasts are those of one round: the records are read and the groups served in some order. -/
def Replicates (broadcasts : List Effect) : Prop :=
  ∃ progress records groups, r.progress = some progress ∧ records.Perm progress.records ∧
    groups.Perm (Progress.groupsOf records) ∧ broadcasts = r.groupBroadcasts groups

/-- The model reads and serves in one such order. -/
theorem replicates_replicationBroadcasts (h : r.progress = some progress) :
    r.Replicates r.replicationBroadcasts :=
  ⟨progress, progress.records, progress.groups, h, .refl _, List.mergeSort_perm _ _,
    by rw [replicationBroadcasts, h]⟩

variable (progress) in
/-- The entry that a peer waits for. -/
def awaited (seat : Seat) : Nat := ((progress.get? seat.peer.name).map (·.next)).getD 0

/-- The calls to a group are those of the plain loop to the peers that wait for its index. -/
theorem Booked.calls_groupBroadcast? (h : r.Booked progress) {groups : List (Nat × List String)}
    (hgrouped : Progress.Grouped progress.records groups) {group : Nat × List String}
    (hgroup : group ∈ groups) :
    (r.groupBroadcast? group.1 group.2).toList.flatMap Effect.calls =
      (r.peers.filter fun seat => awaited progress seat = group.1).filterMap fun seat =>
        (r.plainRequest? progress seat).map fun request => (seat, Request.append request) := by
  have hsame : (r.peers.filter fun seat => group.2.contains seat.peer.name) =
      r.peers.filter fun seat => awaited progress seat = group.1 := by
    refine List.filter_congr fun seat hseat => ?_
    obtain ⟨p, hp⟩ := h.exists_record hseat
    rw [Bool.eq_iff_iff, List.contains_iff_mem, hgrouped.mem_iff hgroup, decide_eq_true_iff]
    simp [awaited, hp, Progress.mem_records]
  have hshared : ∀ seat ∈ r.peers.filter (fun seat => awaited progress seat = group.1),
      r.plainRequest? progress seat = r.appendRequest? group.1 := by
    intro seat hseat
    obtain ⟨hseat, hawaits⟩ := List.mem_filter.mp hseat
    obtain ⟨p, hp⟩ := h.exists_record hseat
    simp only [awaited, hp, Option.map_some, Option.getD_some, decide_eq_true_eq] at hawaits
    rw [plainRequest?, hp, Option.bind_some, hawaits]
  rw [groupBroadcast?, hsame]
  have hcongr := List.filterMap_congr fun seat hseat =>
    congrArg (Option.map fun request => (seat, Request.append request)) (hshared seat hseat)
  rw [hcongr]
  cases r.appendRequest? group.1 with
  | none => simp
  | some request => simp [Effect.calls]

/-- **Groups make no difference.**  The calls of a round are those of the plain loop, in whatever order
records and groups are taken. -/
theorem Booked.calls_groupBroadcasts (h : r.Booked progress) {groups : List (Nat × List String)}
    (hgrouped : Progress.Grouped progress.records groups) :
    ((r.groupBroadcasts groups).flatMap Effect.calls).Perm
      ((r.plainCalls progress).map fun call => (call.1, Request.append call.2)) := by
  have hcovers : ∀ seat ∈ r.peers, awaited progress seat ∈ groups.map (·.1) := by
    intro seat hseat
    obtain ⟨p, hp⟩ := h.exists_record hseat
    obtain ⟨names, hgroup, -⟩ :=
      (hgrouped.waits p.next seat.peer.name).mpr ⟨p, Progress.mem_records.mpr hp, rfl⟩
    simp only [awaited, hp, Option.map_some, Option.getD_some]
    exact List.mem_map_of_mem hgroup
  let call (seat : Seat) := (r.plainRequest? progress seat).map fun request => (seat, Request.append request)
  calc (r.groupBroadcasts groups).flatMap Effect.calls
      = groups.flatMap fun group => (r.groupBroadcast? group.1 group.2).toList.flatMap Effect.calls := by
        rw [groupBroadcasts, List.filterMap_eq_flatMap_toList, List.flatMap_assoc]
    _ = groups.flatMap fun group =>
          (r.peers.filter fun seat => awaited progress seat = group.1).filterMap call :=
        List.flatMap_congr fun group hgroup => h.calls_groupBroadcast? hgrouped hgroup
    _ = ((groups.map (·.1)).flatMap fun next =>
          r.peers.filter fun seat => awaited progress seat = next).filterMap call := by
        rw [List.flatMap_map, List.filterMap_flatMap]
    _ |>.Perm (r.peers.filterMap call) :=
        (perm_flatMap_fibers (awaited progress) hgrouped.distinct hcovers).filterMap call
    _ = (r.plainCalls progress).map fun call => (call.1, Request.append call.2) := by
        rw [plainCalls, List.map_filterMap]
        refine List.filterMap_congr fun seat _ => ?_
        rw [Option.map_map]
        rfl

end Replica

/-! ## A whole life -/

@[simp] theorem Turn.sent_start (r : Replica) : (Turn.start r).sent = [] := by
  simp [sent]

namespace Life

/-- What a serving replica asks to be sent goes out. -/
theorem sent_emitAll (life : Life) {k : Nat} {t : Turn} (ht : t.replica = life.state k)
    {effects : List Effect} (hpeers : ∀ call ∈ effects.flatMap Effect.calls, call.1 ∈ t.replica.peers) :
    (t.emitAll effects).sent = t.sent ++ effects.flatMap Effect.calls := by
  have hcancelled : t.replica.cancelled = false := by rw [ht, life.cancelled_state]
  have hconnected : (effects.flatMap Effect.calls).filter (fun call => call.1.connected) =
      effects.flatMap Effect.calls := by
    rw [List.filter_eq_self]
    intro call hcall
    exact life.connected_state (ht ▸ hpeers call hcall)
  simp only [Turn.sent, Turn.replica_emitAll, hcancelled, Turn.effects_emitAll, List.flatMap_append,
    List.filter_append, hconnected, Bool.false_eq_true, if_false]

/-- The plain loop goes over the roster, in its order and with everybody in it as often as they are listed,
but for the replica itself. -/
theorem map_peer_plainCalls (life : Life) {k : Nat} {progress : Progress}
    (hbooked : (life.state k).Booked progress) :
    ((life.state k).plainCalls progress).map (·.1.peer) =
      life.roster.peers.filter (fun peer => peer.name != life.name) := by
  calc ((life.state k).plainCalls progress).map (·.1.peer)
      = (((life.state k).plainCalls progress).map (·.1)).map (·.peer) := by
        rw [List.map_map]
        rfl
    _ = (life.roster.filter fun seat => seat.peer.name != life.name).map (·.peer) := by
        rw [hbooked.map_plainCalls, life.peers_state, List.map_map]
        rfl
    _ = life.roster.peers.filter (fun peer => peer.name != life.name) := by
        rw [Roster.peers, List.filter_map]
        rfl

/-- **Every peer is served once, and with what is right for it.**  Let a leader replicate at any time, with
the records of its peers read and the groups served in whatever order.  Then what goes out, beyond what the
turn has sent already, is what a plain loop over the peers would send.  That is one request for each entry
of its roster that is not its own, and the request is made from the record of that peer alone.  `replicate`
takes one such order. -/
theorem replication_serves_each_peer (life : Life) {k : Nat} (hleads : (life.state k).role = .leader) :
    let r := life.state k
    ∃ progress, r.progress = some progress ∧
      (r.plainCalls progress).map (·.1.peer) =
        life.roster.peers.filter (fun peer => peer.name != life.name) ∧
      (∀ call ∈ r.plainCalls progress, ∃ p, progress.get? call.1.peer.name = some p ∧
        r.Serves p call.2 ∧ ∀ request, r.Serves p request → request = call.2) ∧
      r.Replicates r.replicationBroadcasts ∧
      (∀ t : Turn, t.replica = r → t.replicate.sent.Perm
        (t.sent ++ (r.plainCalls progress).map fun call => (call.1, Request.append call.2))) ∧
      ∀ broadcasts, r.Replicates broadcasts → ∀ t : Turn, t.replica = r →
        (t.emitAll broadcasts).sent.Perm
          (t.sent ++ (r.plainCalls progress).map fun call => (call.1, Request.append call.2)) := by
  obtain ⟨progress, hprogress, hbooked⟩ := life.booked hleads
  have hreplicates := Replica.replicates_replicationBroadcasts hprogress
  have hserves : ∀ broadcasts, (life.state k).Replicates broadcasts → ∀ t : Turn, t.replica = life.state k →
      (t.emitAll broadcasts).sent.Perm (t.sent ++
        ((life.state k).plainCalls progress).map fun call => (call.1, Request.append call.2)) := by
    rintro broadcasts ⟨progress', records, groups, hprogress', hrecords, hgroups, rfl⟩ t ht
    obtain rfl : progress = progress' := Option.some.inj (hprogress.symm.trans hprogress')
    have hgrouped := (Progress.grouped_groupsOf records).perm hrecords.symm hgroups
    have hcalls := hbooked.calls_groupBroadcasts hgrouped
    rw [life.sent_emitAll ht]
    · exact hcalls.append_left _
    · intro call hcall
      obtain ⟨plain, hplain, rfl⟩ := List.mem_map.mp (hcalls.mem_iff.mp hcall)
      rw [ht, ← hbooked.map_plainCalls]
      exact List.mem_map_of_mem hplain
  refine ⟨progress, hprogress, life.map_peer_plainCalls hbooked, ?_, hreplicates, ?_, hserves⟩
  · intro call hcall
    obtain ⟨p, hp, hright⟩ := hbooked.serves_of_mem_plainCalls hcall
    exact ⟨p, hp, hright, fun request hrequest => hrequest.unique hright⟩
  · intro t ht
    rw [Turn.replicate, ht]
    exact hserves _ hreplicates t ht

/-- The peers `b` and `c`, with `b` in a second place and an entry of the replica's own. -/
def scatteredRoster : Roster := Roster.ofPeers
  [⟨2, "b", "b:1", none⟩, ⟨3, "c", "c:1", none⟩, ⟨1, "a", "a:1", none⟩, ⟨4, "b", "b:2", none⟩]

theorem boots_scattered :
    (Replica.boot? "a" scatteredRoster Options.default true).isSome = true := by
  decide +kernel

/-- `a` has two entries from `b`, comes to lead with the vote of `c`, and hears from `c` that it holds
nothing. -/
def scattered : Life where
  name := "a"
  roster := scatteredRoster
  options := Options.default
  listening := true
  start := (Replica.boot? "a" scatteredRoster Options.default true).get boots_scattered
  boots := (Option.some_get boots_scattered).symm
  event k := [Event.appendRequest ⟨1, "b", 0, 0, 0, [⟨1, 1, [7]⟩, ⟨2, 1, [8]⟩]⟩ 0,
    .electionTimeout, .voteReply ⟨"c", 2, true⟩,
    .appendReply ⟨"c", 2, false, 0, 0⟩].getD k .heartbeatTimeout

-- As the matches of two peers are sorted, the states are taken one turn at a time.

/-- The turn in which `a` comes to lead, as far as it changes the replica. -/
def scatteredLeads : Turn := (Turn.start (scattered.state 2)).prepareLeader.settle .leader

/-- The turn in which `a` hears from `c`. -/
def scatteredHears : Turn := (Turn.start scatteredLeads.replica).update fun r =>
  { r with progress := r.progress.map fun progress => progress.fail "c" (min 0 r.log.lastIndex) }

theorem scattered_state_three : scattered.state 3 = scatteredLeads.replica := by
  have hmajority : scatteredLeads.replica.majorityIndex? = some (max 0 0) :=
    Replica.majorityIndex?_of_two (by decide +kernel)
  calc scattered.state 3
      = ((Turn.start (scattered.state 2)).onVoteReply ⟨"c", 2, true⟩).replica := rfl
    _ = (Turn.start (scattered.state 2)).becomeLeader.replica := by
        rw [Turn.onVoteReply_of_passes] <;> decide +kernel
    _ = scatteredLeads.replica :=
        Turn.replica_becomeLeader_of_le _ hmajority (by decide +kernel)

theorem scattered_state_four : scattered.state 4 = scatteredHears.replica := by
  calc scattered.state 4
      = ((Turn.start (scattered.state 3)).onAppendReply ⟨"c", 2, false, 0, 0⟩).replica := rfl
    _ = ((Turn.start scatteredLeads.replica).onAppendReply ⟨"c", 2, false, 0, 0⟩).replica := by
        rw [scattered_state_three]
    _ = scatteredHears.replica := by
        rw [Turn.onAppendReply_of_failure]
        · rfl
        all_goals decide +kernel

/-- What a plain loop makes of this. -/
def scatteredCalls : List (Seat × Request) := [
  (⟨⟨2, "b", "b:1", none⟩, true⟩, .append ⟨2, "a", 2, 1, 0, []⟩),
  (⟨⟨3, "c", "c:1", none⟩, true⟩, .append ⟨2, "a", 0, 0, 0, [⟨1, 1, [7]⟩, ⟨2, 1, [8]⟩]⟩),
  (⟨⟨4, "b", "b:2", none⟩, true⟩, .append ⟨2, "a", 2, 1, 0, []⟩)]

/-- The two peers wait for different entries.  In whatever order they are served, `b` gets an empty request
behind the log in both of its places, and `c` gets the whole log. -/
theorem replication_serves_each_peer_scattered :
    (scattered.state 4).role = .leader ∧
      (Turn.start (scattered.state 4)).replicate.sent.Perm scatteredCalls ∧
      ∀ broadcasts, (scattered.state 4).Replicates broadcasts →
        ((Turn.start (scattered.state 4)).emitAll broadcasts).sent.Perm scatteredCalls := by
  have hleads : (scattered.state 4).role = .leader := by
    rw [scattered_state_four]
    decide +kernel
  have hplain : ((scattered.state 4).progress.map fun progress =>
      ((scattered.state 4).plainCalls progress).map fun call => (call.1, Request.append call.2)) =
        some scatteredCalls := by
    rw [scattered_state_four]
    decide +kernel
  obtain ⟨progress, hprogress, -, -, -, hreplicated, hserved⟩ := replication_serves_each_peer scattered hleads
  rw [hprogress, Option.map_some, Option.some_inj] at hplain
  refine ⟨hleads, ?_, fun broadcasts hbroadcasts => ?_⟩
  · have hsent := hreplicated (Turn.start (scattered.state 4)) (Turn.replica_start _)
    rwa [hplain, Turn.sent_start, List.nil_append] at hsent
  · have hsent := hserved broadcasts hbroadcasts (Turn.start (scattered.state 4)) (Turn.replica_start _)
    rwa [hplain, Turn.sent_start, List.nil_append] at hsent

end Life

end RaftReplica
