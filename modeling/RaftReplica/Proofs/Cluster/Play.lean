import RaftReplica.Proofs.Cluster.Messages

/-!
# Whoever drives a cluster makes a run

A cluster comes out of `Cluster.create`, and whoever drives it lets replicas act, delivers, loses and
doubles parcels, and cuts replicas off.  All of this makes runs, so that what holds of every run holds of
every cluster that is driven in such a way.

* `begins_create`: a cluster begins as it is created.
* `step_make`: every move is a step.
* `Run.play` is the run that some moves make.
-/

namespace RaftReplica

/-- What whoever drives a cluster may do. -/
inductive Move where
  | act (name : String) (event : Event) (own : event.isOwn = true)
  | deliver (source target : String)
  | drop (source target : String)
  | duplicate (source target : String)
  | isolate (name : String)
  | heal (name : String)

namespace Cluster

/-! ## Moves -/

/-- The cluster after a move. -/
def make (c : Cluster) : Move → Cluster
  | .act name event _ => (c.act name event).1
  | .deliver source target => c.deliver source target
  | .drop source target => c.drop source target
  | .duplicate source target => c.duplicate source target
  | .isolate name => c.isolate name
  | .heal name => c.heal name

/-- Every move is a step. -/
theorem step_make (c : Cluster) (move : Move) : c.Step (c.make move) := by
  cases move with
  | act name event own => exact .act name own
  | deliver source target =>
    simp only [make, deliver]
    cases h : c.oldest? source target with
    | none => exact .refl c
    | some parcel =>
      exact .hand (List.mem_of_find?_eq_some h) List.eraseP_sublist.subset
  | drop source target => exact .network _ List.eraseP_sublist.subset
  | duplicate source target =>
    refine .network _ (List.append_subset.mpr ⟨List.Subset.refl _, ?_⟩)
    intro parcel hparcel
    exact List.mem_of_find?_eq_some (Option.mem_toList.mp hparcel)
  | isolate name => exact .network _ List.filter_sublist.subset
  | heal name => exact .network _ (List.Subset.refl _)

/-! ## Creation -/

/-- What is made one by one of the elements of a list is made of each of them. -/
private theorem forall₂_of_mapM {α β ε : Type} {f : α → Except ε β} {l : List α} {l' : List β}
    (h : l.mapM f = .ok l') : List.Forall₂ (fun a b => f a = .ok b) l l' := by
  induction l generalizing l' with
  | nil =>
    cases h
    exact .nil
  | cons a rest ih =>
    rw [List.mapM_cons] at h
    cases ha : f a with
    | error e =>
      rw [ha] at h
      cases h
    | ok b =>
      cases hrest : rest.mapM f with
      | error e =>
        rw [ha, hrest] at h
        cases h
      | ok rest' =>
        rw [ha, hrest] at h
        cases h
        exact .cons ha (ih hrest)

/-- Creates and starts the replica of one name. -/
def startMember (roster : Roster) (options : Options) (name : String) :
    Except ReplicaError (String × Member) := do
  let replica ← Replica.create name roster options
  match replica.bootstrap with
  | (t, .ok ()) => return (name, Member.mk t.replica t.committed)
  | (_, .error error) => .error error

theorem startMember_ok {roster : Roster} {options : Options} {name : String}
    {entry : String × Member} (h : startMember roster options name = .ok entry) :
    ∃ r t, Replica.create name roster options = .ok r ∧ r.bootstrap = (t, .ok ()) ∧
      entry = (name, ⟨t.replica, t.committed⟩) := by
  unfold startMember at h
  cases hcreate : Replica.create name roster options with
  | error cause =>
    rw [hcreate] at h
    cases h
  | ok r =>
    cases hstart : r.bootstrap with
    | mk t result =>
      simp only [hcreate, bind, Except.bind, hstart] at h
      cases result with
      | error cause => cases h
      | ok =>
        cases h
        exact ⟨r, t, rfl, hstart, rfl⟩

/-- A cluster is created of one started replica for each name. -/
theorem create_ok {roster : Roster} {options : Options} {c : Cluster}
    (h : create roster options = .ok c) :
    ∃ members, c = ⟨Std.TreeMap.ofList members compare, [], []⟩ ∧
      List.Forall₂ (fun name entry => startMember roster options name = .ok entry)
        roster.names members := by
  have hcreate : create roster options = (do
      let members ← roster.names.mapM (startMember roster options)
      return ⟨Std.TreeMap.ofList members compare, [], []⟩) := rfl
  rw [hcreate] at h
  cases hmembers : roster.names.mapM (startMember roster options) with
  | error cause =>
    rw [hmembers] at h
    cases h
  | ok members =>
    rw [hmembers] at h
    cases h
    exact ⟨members, rfl, forall₂_of_mapM hmembers⟩

/-- **A cluster begins as it is created.** -/
theorem begins_create {roster : Roster} {options : Options} {c : Cluster}
    (hdistinct : roster.names.Nodup) (hnamed : "" ∉ roster.names)
    (h : create roster options = .ok c) : c.Begins roster.names := by
  obtain ⟨members, rfl, hall⟩ := create_ok h
  have hnames : members.map (·.1) = roster.names := by
    rw [eq_comm, ← List.forall₂_eq_eq_eq, List.forall₂_map_right_iff]
    refine hall.imp ?_
    intro name entry hentry
    obtain ⟨r, t, -, -, rfl⟩ := startMember_ok hentry
    rfl
  have hkeys : members.Pairwise fun a b => ¬ compare a.1 b.1 = .eq := by
    rw [← hnames, List.Nodup, List.pairwise_map] at hdistinct
    exact hdistinct.imp fun hne heq => hne (Std.LawfulEqCmp.eq_of_compare heq)
  refine ⟨hdistinct, hnamed, ?_, ?_, rfl⟩
  · intro name hname
    obtain ⟨i, hi, rfl⟩ := List.getElem_of_mem hname
    have hi' : i < members.length := hall.length_eq ▸ hi
    obtain ⟨r, t, hr, ht, hentry⟩ := startMember_ok (hall.get hi hi')
    refine ⟨roster, options, r, t, fun _ _ => Iff.rfl, hr, ht, ?_⟩
    exact Std.TreeMap.getElem?_ofList_of_mem Std.ReflCmp.compare_self hkeys
      (hentry ▸ List.getElem_mem hi')
  · intro name hname
    exact Std.TreeMap.getElem?_ofList_of_contains_eq_false (by simpa [hnames] using hname)

end Cluster

/-! ## Playing -/

namespace Run

variable {names : List String}

/-- The run that some moves make, one after the other.  Once all are made it pauses for good. -/
def play {c : Cluster} (begins : c.Begins names) (moves : List Move) : Run names where
  state k := (moves.take k).foldl Cluster.make c
  begins := begins
  step k := by
    rw [List.take_add_one, List.foldl_append]
    cases moves[k]? with
    | none => exact .refl _
    | some move => exact Cluster.step_make _ move

/-- As long as moves are left the run goes on by the next of them. -/
theorem state_play_succ {c : Cluster} (begins : c.Begins names) {moves : List Move} {k : Nat}
    {move : Move} (h : moves[k]? = some move) :
    (play begins moves).state (k + 1) = ((play begins moves).state k).make move := by
  simp only [play]
  rw [List.take_add_one, List.foldl_append, h]
  rfl

/-- A member of which something can be computed at a time is there. -/
theorem exists_at_of_any (run : Run names) (k : Nat) (name : String) (P : Replica → Prop)
    [DecidablePred P] (h : ((run.state k).replica? name).any (fun r => decide (P r)) = true) :
    ∃ r, run.At k name r ∧ P r := by
  cases hr : (run.state k).replica? name with
  | none =>
    rw [hr] at h
    cases h
  | some r =>
    rw [hr] at h
    exact ⟨r, hr, of_decide_eq_true h⟩

/-- Two peers. -/
def sampleRoster : Roster := Roster.ofPeers [⟨1, "a", "a:1", none⟩, ⟨2, "b", "b:1", none⟩]

/-- Their cluster as it begins. -/
def sampleCluster : Cluster :=
  (Cluster.create sampleRoster Options.default).toOption.getD ⟨∅, [], []⟩

theorem begins_sampleCluster : sampleCluster.Begins sampleRoster.names := by
  have hok : (Cluster.create sampleRoster Options.default).toOption.isSome = true := by
    decide +kernel
  have hcreate : Cluster.create sampleRoster Options.default = .ok sampleCluster := by
    unfold sampleCluster
    cases hcreate : Cluster.create sampleRoster Options.default with
    | error cause =>
      rw [hcreate] at hok
      cases hok
    | ok c => rfl
  exact Cluster.begins_create (by decide) (by decide) hcreate

/-- `a` is elected and commits an entry together with `b`, which learns of that, stands for election
in the next term and is elected by `a`. -/
def sampleMoves : List Move :=
  [.act "a" .electionTimeout rfl, .deliver "a" "b", .deliver "b" "a",
    .act "a" (.writeAhead ⟨[1], none⟩) rfl,
    .deliver "a" "b", .deliver "a" "b", .deliver "b" "a", .deliver "b" "a",
    .act "a" .heartbeatTimeout rfl, .deliver "a" "b",
    .act "b" .electionTimeout rfl, .deliver "b" "a", .deliver "b" "a", .deliver "a" "b"]

/-- The run that these moves make. -/
def sample : Run sampleRoster.names := play begins_sampleCluster sampleMoves

/-- Three write-aheads, of which somebody waits for the first and for the third. -/
def sampleBatch : List WriteAhead := [⟨[7], some 0⟩, ⟨[8], none⟩, ⟨[9], some 1⟩]

/-- `a` is elected, writes the batch and commits it together with `b`, which learns of that. -/
def batchMoves : List Move :=
  [.act "a" .electionTimeout rfl, .deliver "a" "b", .deliver "b" "a",
    .act "a" (.aggregatedWriteAhead sampleBatch) rfl,
    .deliver "a" "b", .deliver "a" "b", .deliver "b" "a", .deliver "b" "a",
    .act "a" .heartbeatTimeout rfl, .deliver "a" "b"]

/-- The run that these moves make. -/
def batchRun : Run sampleRoster.names := play begins_sampleCluster batchMoves

end Run

end RaftReplica
