import RaftReplica.Proofs.Quorum.Majority
import RaftReplica.Proofs.Replica.Turn

/-!
# Where a replica begins

A replica that has been created and bootstrapped serves as a follower, in term zero and with an empty
log.  This is where the members of a cluster and a replica on its own begin.

* `Fresh` is a replica that has not heard of anything.
* `bootstrap_ok` says what bootstrapping leaves of a replica that has never been started.
* `Created` is a replica before that, with its peers and its quorum, and `Created.fresh` what becomes of it.
* `boot?` creates and bootstraps a replica, and `boot?_ok` says that it is fresh then.
-/

namespace RaftReplica

namespace Replica

/-- A replica that serves as a follower and has not heard of anything. -/
structure Fresh (r : Replica) : Prop where
  role : r.role = .follower
  term : r.term = 0
  votedFor : r.votedFor = none
  log : r.log = Log.empty
  commitIndex : r.commitIndex = 0
  lastApplied : r.lastApplied = 0

theorem names_connect (roster : Roster) (options : ConnectOptions) :
    (roster.connect options).1.names = roster.names := by
  simp only [Roster.connect, Roster.names, List.map_map]
  refine List.map_congr_left fun seat _ => ?_
  simp only [Function.comp, Seat.connect]
  split <;> rfl

/-- The turn in which a replica is bootstrapped, with its peers as they are once connected. -/
def bootstrapTurn (r : Replica) (peers : Roster) : Turn :=
  let initialized := (Turn.start r).leaveOffice.settle .initialized
  let connected := (initialized.update fun r => { r with peers }).startTicker .election
  let running := (connected.update fun r =>
    { r with bootstrapped := true, health := { r.health with healthy := true } }).settle .running
  running.prepareFollower.settle .follower

/-- A replica that has never been started can be bootstrapped in one way only. -/
theorem bootstrap_eq {r : Replica} {t : Turn} (hnew : r.bootstrapped = false)
    (h : r.bootstrap = (t, .ok ())) :
    t = r.bootstrapTurn (r.peers.connect r.settings.connect).1 := by
  simp only [bootstrap, Turn.bootstrap, Turn.enterAll, Turn.enter, Turn.prepareRunning,
    Turn.replica_settle, Turn.replica_leaveOffice, Turn.replica_start, hnew] at h
  cases hconnect : (r.peers.connect r.settings.connect).2 with
  | error cause => simp [hconnect] at h
  | ok =>
    simp only [hconnect, Bool.false_eq_true, if_false, Prod.mk.injEq, and_true] at h
    exact h.symm

/-- What bootstrapping leaves of a replica that has never been started. -/
theorem bootstrap_ok {r : Replica} {t : Turn} (hnew : r.bootstrapped = false)
    (h : r.bootstrap = (t, .ok ())) :
    t.replica.role = .follower ∧ t.replica.name = r.name ∧ t.replica.quorum = r.quorum ∧
      t.replica.peers.names = r.peers.names ∧ t.replica.term = r.term ∧
      t.replica.votedFor = r.votedFor ∧ t.replica.log = r.log ∧
      t.replica.commitIndex = r.commitIndex ∧ t.replica.lastApplied = r.lastApplied ∧
      t.committed = [] := by
  rw [bootstrap_eq hnew h]
  simp [bootstrapTurn, names_connect, setTicker_eq]

/-- A replica that has been created and not yet started. -/
structure Created (r : Replica) (name : String) (roster : Roster) : Prop where
  named : r.name = name
  role : r.role = .stopped
  bootstrapped : r.bootstrapped = false
  /-- An entry of its own in the roster is left out. -/
  peers : ∀ other, other ∈ r.peers.names ↔ other ∈ roster.names ∧ other ≠ name
  quorum : ∀ host, host ∈ r.quorum.hosts ↔ (host ∈ r.peers.names ∨ host = name) ∧ host ≠ ""
  term : r.term = 0
  votedFor : r.votedFor = none
  leader : r.leader = none
  log : r.log = Log.empty
  commitIndex : r.commitIndex = 0
  lastApplied : r.lastApplied = 0
  published : r.published = Snapshot.initial

theorem create_ok {name : String} {roster : Roster} {options : Options} {r : Replica}
    (h : create name roster options = .ok r) : r.Created name roster := by
  unfold create at h
  split at h
  · cases h
  · cases h
    refine ⟨rfl, rfl, rfl, ?_, ?_, rfl, rfl, rfl, rfl, rfl, rfl, rfl⟩
    · intro other
      simp only [Roster.names, List.mem_map, List.mem_filter, bne_iff_ne]
      constructor
      · rintro ⟨seat, ⟨hseat, hne⟩, rfl⟩
        exact ⟨⟨seat, hseat, rfl⟩, hne⟩
      · rintro ⟨⟨seat, hseat, rfl⟩, hne⟩
        exact ⟨seat, ⟨hseat, hne⟩, rfl⟩
    · intro host
      rw [Quorum.form, Quorum.mem_hostSet, List.mem_append, List.mem_singleton]

/-- Bootstrapping makes a created replica fresh, and puts nothing on its commit stream. -/
theorem Created.fresh {r : Replica} {t : Turn} {name : String} {roster : Roster}
    (h : r.Created name roster) (hstart : r.bootstrap = (t, .ok ())) :
    t.replica.name = name ∧ t.replica.Fresh ∧ t.committed = [] := by
  obtain ⟨hrole, hname, -, -, hterm, hvote, hlog, hindex, happlied, hstream⟩ :=
    bootstrap_ok h.bootstrapped hstart
  exact ⟨hname.trans h.named, ⟨hrole, hterm.trans h.term, hvote.trans h.votedFor, hlog.trans h.log,
    hindex.trans h.commitIndex, happlied.trans h.lastApplied⟩, hstream⟩

/-- Creates a replica, with or without a pipe that events reach it through, and bootstraps it. -/
def boot? (name : String) (roster : Roster) (options : Options) (listening : Bool) : Option Turn :=
  match Replica.create name roster options with
  | .error _ => none
  | .ok r =>
    match { r with listening }.bootstrap with
    | (t, .ok ()) => some t
    | (_, .error _) => none

/-- Whatever has been created and bootstrapped has been created first. -/
theorem exists_create_of_boot? {name : String} {roster : Roster} {options : Options}
    {listening : Bool} {t : Turn} (h : boot? name roster options listening = some t) :
    ∃ r : Replica, create name roster options = .ok r ∧
      { r with listening }.bootstrap = (t, .ok ()) := by
  unfold boot? at h
  cases hcreate : Replica.create name roster options with
  | error cause =>
    rw [hcreate] at h
    cases h
  | ok r =>
    cases hstart : { r with listening }.bootstrap with
    | mk started result =>
      cases result with
      | error cause =>
        simp only [hcreate, hstart] at h
        cases h
      | ok =>
        simp only [hcreate, hstart, Option.some.injEq] at h
        subst h
        exact ⟨r, rfl, hstart⟩

theorem exists_created_of_boot? {name : String} {roster : Roster} {options : Options}
    {listening : Bool} {t : Turn} (h : boot? name roster options listening = some t) :
    ∃ r : Replica, r.Created name roster ∧ r.bootstrap = (t, .ok ()) := by
  obtain ⟨r, hcreate, hstart⟩ := exists_create_of_boot? h
  obtain ⟨named, role, bootstrapped, peers, quorum, term, votedFor, leader, log, commitIndex,
    lastApplied, published⟩ := create_ok hcreate
  exact ⟨{ r with listening }, ⟨named, role, bootstrapped, peers, quorum, term, votedFor, leader, log,
    commitIndex, lastApplied, published⟩, hstart⟩

/-- A replica that has been created and bootstrapped bears its name and is fresh, and has put nothing
on its commit stream. -/
theorem boot?_ok {name : String} {roster : Roster} {options : Options} {listening : Bool} {t : Turn}
    (h : boot? name roster options listening = some t) :
    t.replica.name = name ∧ t.replica.Fresh ∧ t.committed = [] := by
  obtain ⟨r, hcreated, hstart⟩ := exists_created_of_boot? h
  exact hcreated.fresh hstart

end Replica

end RaftReplica
