import RaftReplica.Proofs.Peer.Connection
import RaftReplica.Proofs.Replica.Coherence
import RaftReplica.Proofs.Replica.Standing
import RaftReplica.Proofs.Replica.Tenure

/-!
# How a replica ends

A replica ends in one of three ways: it cannot be bootstrapped, an event cannot be handled, or its loop comes
to an end because the replica is told to stop or because its pipe has ended.  In each of them it lets go of
all that runs and tells so, and it keeps what it knows.  Only if it comes apart, for want of a term to stand
for election in, does it not get that far.

* `Replica.Ends` says with which events, in which turn and with which result the loop of a replica has ended.
* `Turn.Awake` is a turn before that: the replica has not stopped, and nobody has been told that it has.
  `awake_of_ends` says that every ending comes upon such a turn.
* `replica_shutDown` and `effects_shutDown` are what stopping comes to then, and `shutDown_of_stopped` that it
  comes to nothing a second time.  `replica_unwind` and `effects_unwind` are what coming apart comes to.
* `Served.outlook` is how a loop will stand once it has had the time for its queue, and `Tenure.Ending` is what
  brings it to its end.
* `Served.AtRest` is a served replica that has ended and `Served.Unwound` one that has come apart, and
  `Tenure.ended_at_rest` is the result for every roster, all events and all endings.
-/

namespace RaftReplica

/-! ## Stopping -/

namespace Turn

variable {t : Turn}

/-- A turn in which the replica has not stopped, and has not told that it has. -/
structure Awake (t : Turn) : Prop where
  role : t.replica.role ≠ .stopped
  told : t.replica.published.role ≠ .stopped

theorem replica_shutDown (h : t.replica.role ≠ .stopped) :
    t.shutDown.replica =
      { t.replica with
        role := .stopped
        heartbeatTicker := false
        electionTicker := false
        cancelled := true
        peers := t.replica.peers.disconnected
        listening := false
        leader := none
        published := ⟨.stopped, t.replica.term, none⟩
        health := { t.replica.health with ready := false } } := by
  simp [shutDown, enter, prepareStopped, h, Replica.setTicker_eq, Roster.close_fst]

theorem effects_stopTicker (t : Turn) (tick : Tick) :
    (t.stopTicker tick).effects = t.effects ++ ([tick].filter t.replica.hasTicker).map .stopTicker := by
  unfold stopTicker
  split
  · rename_i hthere
    rw [List.filter_cons_of_pos hthere]
    rfl
  · rename_i hnone
    rw [List.filter_cons_of_neg hnone]
    exact (List.append_nil _).symm

theorem replica_unwind (t : Turn) :
    t.unwind.replica = { t.replica with heartbeatTicker := false, electionTicker := false } := by
  simp [unwind, Replica.setTicker_eq]

/-- Whoever comes apart has the timers stopped that are there, and has nothing else done. -/
theorem effects_unwind (t : Turn) : t.unwind.effects =
    t.effects ++ ([Tick.heartbeat, Tick.election].filter t.replica.hasTicker).map .stopTicker := by
  have hother : (t.stopTicker .heartbeat).replica.hasTicker .election = t.replica.hasTicker .election := by
    rw [replica_stopTicker]
    rfl
  rw [unwind, effects_stopTicker, effects_stopTicker, List.append_assoc, ← List.map_append,
    show [Tick.heartbeat, Tick.election] = [Tick.heartbeat] ++ [Tick.election] from rfl, List.filter_append]
  congr 3
  simp only [List.filter_cons, hother, List.filter_nil]

/-- Taking another role than the one that was told of is told. -/
theorem effects_settle {role : Role} (h : t.replica.published.role ≠ role) :
    (t.settle role).effects = t.effects ++ [.publish ⟨role, t.replica.term, t.replica.leader⟩] := by
  have hnews : t.replica.published ≠ ⟨role, t.replica.term, t.replica.leader⟩ :=
    fun heq => h (congrArg Snapshot.role heq)
  unfold settle publish
  rw [if_neg (by exact hnews)]
  rfl

/-- Whoever stops has the timers stopped that are there and tells that it has stopped, and has nothing else
done. -/
theorem effects_shutDown (h : t.Awake) :
    t.shutDown.effects = t.effects ++
      (([Tick.heartbeat, Tick.election].filter t.replica.hasTicker).map .stopTicker ++
        [.publish ⟨.stopped, t.replica.term, none⟩]) := by
  have hprepared : t.prepareStopped.effects = t.unwind.effects := by
    rw [prepareStopped, if_neg h.role]
    rfl
  have htold : t.prepareStopped.replica.published.role ≠ .stopped := by
    simpa [prepareStopped, h.role, Replica.setTicker_eq] using h.told
  have hterm : t.prepareStopped.replica.term = t.replica.term ∧ t.prepareStopped.replica.leader = none := by
    simp [prepareStopped, h.role, Replica.setTicker_eq]
  show (t.prepareStopped.settle .stopped).effects = _
  rw [effects_settle htold, hprepared, effects_unwind, hterm.1, hterm.2, List.append_assoc]

/-- Whoever has stopped and told so need not stop. -/
theorem shutDown_of_stopped (hrole : t.replica.role = .stopped)
    (htold : t.replica.published = ⟨.stopped, t.replica.term, t.replica.leader⟩) : t.shutDown = t := by
  have hkept : t.update (fun r => { r with role := .stopped }) = t := by
    show { t with replica := { t.replica with role := .stopped } } = t
    rw [← hrole]
  have htold' : t.replica.published = t.replica.snapshot := by
    rw [Replica.snapshot, hrole]
    exact htold
  show t.prepareStopped.settle .stopped = t
  rw [prepareStopped, if_pos hrole, settle, hkept, publish, if_pos htold']

/-- Whether the replica is healthy once its loop has ended with this result. -/
def healthyAfter (t : Turn) : Except ReplicaError Unit → Bool
  | .ok () => t.replica.health.healthy
  | .error _ => false

section Conclude

variable {result : Except ReplicaError Unit}

/-- A replica stops with any error but the one over which it comes apart. -/
theorem conclude_error {error : ReplicaError} (hreturns : error ≠ .termExhausted) :
    t.conclude (.error error) =
      (t.update fun r => { r with health := { r.health with healthy := false } }).shutDown := by
  cases error with
  | termExhausted => exact absurd rfl hreturns
  | notListening | invalidOptions | unknownRole | peers | election | aborted => rfl

/-- Whatever the result, if the replica stops it does so in a turn that differs in its health at most. -/
theorem conclude_cases (hreturns : result ≠ .error .termExhausted) :
    t.conclude result = (t.update fun r =>
      { r with health := { r.health with healthy := t.healthyAfter result } }).shutDown := by
  cases result with
  | ok => rfl
  | error error => exact conclude_error fun hlost => hreturns (congrArg Except.error hlost)

theorem replica_conclude (h : t.Awake) (hreturns : result ≠ .error .termExhausted) :
    (t.conclude result).replica =
      { t.replica with
        role := .stopped
        heartbeatTicker := false
        electionTicker := false
        cancelled := true
        peers := t.replica.peers.disconnected
        listening := false
        leader := none
        published := ⟨.stopped, t.replica.term, none⟩
        health := { t.replica.health with healthy := t.healthyAfter result, ready := false } } := by
  rw [conclude_cases hreturns]
  exact replica_shutDown h.role

theorem effects_conclude (h : t.Awake) (hreturns : result ≠ .error .termExhausted) :
    (t.conclude result).effects = t.effects ++
      (([Tick.heartbeat, Tick.election].filter t.replica.hasTicker).map .stopTicker ++
        [.publish ⟨.stopped, t.replica.term, none⟩]) := by
  rw [conclude_cases hreturns]
  exact effects_shutDown ⟨h.role, h.told⟩

end Conclude

/-! ## Before the end -/

variable {next : Turn} {history : List Snapshot}

/-- Whoever serves has not stopped. -/
theorem Tidy.awake (h : t.Tidy history) : t.Awake := by
  have hserves : t.replica.role ≠ .stopped := by
    rcases h.coherent.serves with hrole | hrole | hrole <;> rw [hrole] <;> nofun
  refine ⟨hserves, ?_⟩
  rw [h.coherent.published]
  exact hserves

theorem Tidy.serve {handled : List Event} (h : t.Tidy history)
    (hserve : t.serve handled = (next, [], .ok ())) : next.Tidy history := by
  induction handled generalizing t with
  | nil =>
    cases hserve
    exact h
  | cons event rest ih =>
    obtain ⟨between, hhandle, hrest⟩ | ⟨error, -, -, hresult⟩ := serve_cons_cases hserve
    · have hok : (t.handle event).2 = .ok () := by rw [hhandle]
      have hbetween := h.handle hok
      rw [hhandle] at hbetween
      exact ih hbetween hrest
    · cases hresult

theorem Awake.onElectionTimeout (h : t.Awake) : t.onElectionTimeout.1.Awake := by
  rcases t.onElectionTimeout_cases with hrest | ⟨-, ⟨cause, -, hvain⟩ | ⟨election, -, ⟨-, hwins⟩ | hstands⟩⟩
  · rw [hrest]
    exact h
  · -- the new term has not been told of, nor has anything else
    rw [hvain]
    exact ⟨h.role, h.told⟩
  · obtain ⟨commitIndex, lastApplied, hleader⟩ := (t.stand election).exists_replica_becomeLeader
    rw [hwins]
    constructor <;> rw [hleader] <;> nofun
  · rw [hstands]
    constructor <;> rw [replica_emit, replica_stand] <;> nofun

/-- A replica comes apart when it would stand for election after the largest term, before it has done
anything about it. -/
theorem of_handle_termExhausted {event : Event} (h : t.handle event = (next, .error .termExhausted)) :
    next = t ∧ (t.replica.role = .follower ∨ t.replica.role = .candidate) ∧ wordMax ≤ t.replica.term := by
  cases event with
  | electionTimeout =>
    have hresult : t.onElectionTimeout = (next, .error .termExhausted) := h
    unfold onElectionTimeout at hresult
    split at hresult
    · rename_i hrole
      cases hterm : succ? t.replica.term with
      | none =>
        rw [hterm] at hresult
        refine ⟨(congrArg Prod.fst hresult).symm, hrole, ?_⟩
        unfold succ? at hterm
        split at hterm
        · cases hterm
        · rename_i hlast
          exact Nat.not_lt.mp hlast
      | some term =>
        rw [hterm] at hresult
        simp only [enter, prepareCandidate] at hresult
        cases hcalled : t.replica.quorum.election <;> simp [hcalled] at hresult
        split at hresult <;> cases hresult
    · cases hresult
  | error | writeAhead | aggregatedWriteAhead | heartbeatTimeout | voteRequest | voteReply | appendRequest
    | appendReply => cases h

/-- An event that cannot be handled does not stop the replica either. -/
theorem Tidy.awake_of_failed (h : t.Tidy history) {event : Event} {error : ReplicaError}
    (hfails : t.handle event = (next, .error error)) : next.Awake := by
  cases event with
  | error message =>
    cases hfails
    exact h.awake
  | electionTimeout =>
    have hawake := h.awake.onElectionTimeout
    have hnext : t.onElectionTimeout = (next, .error error) := hfails
    rwa [hnext] at hawake
  | writeAhead | aggregatedWriteAhead | heartbeatTimeout | voteRequest | voteReply | appendRequest
    | appendReply => cases hfails

theorem sameMember_serve {handled left : List Event} {result : Except ReplicaError Unit}
    (h : t.serve handled = (next, left, result)) : t.replica.SameMember next.replica := by
  induction handled generalizing t with
  | nil =>
    cases h
    exact .refl _
  | cons event rest ih =>
    have hsame : t.replica.SameMember (t.handle event).1.replica := by
      rw [t.handle_eq event]
      exact (t.replica.handles_handle event).same
    obtain ⟨between, hhandle, hrest⟩ | ⟨error, hfails, -, -⟩ := serve_cons_cases h
    · rw [hhandle] at hsame
      exact hsame.trans (ih hrest)
    · rwa [hfails] at hsame

theorem steady_serve {handled left : List Event} {result : Except ReplicaError Unit}
    (hsteady : t.replica.Steady) (h : t.serve handled = (next, left, result)) : next.replica.Steady := by
  induction handled generalizing t with
  | nil =>
    cases h
    exact hsteady
  | cons event rest ih =>
    have hfirst := steady_handle hsteady event
    obtain ⟨between, hhandle, hrest⟩ | ⟨error, hfails, -, -⟩ := serve_cons_cases h
    · rw [hhandle] at hfirst
      exact ih hfirst hrest
    · rwa [hfails] at hfirst

end Turn

namespace Replica

variable {r : Replica} {t : Turn}

theorem Created.steady {name : String} {roster : Roster} (h : r.Created name roster)
    (hstart : r.bootstrap = (t, .ok ())) : t.replica.Steady := by
  obtain ⟨-, hfresh, -⟩ := h.fresh hstart
  refine ⟨hfresh.lastApplied.trans hfresh.commitIndex.symm, fun hleads => ?_⟩
  rw [hfresh.role] at hleads
  cases hleads

/-- What is left of a replica that has never been started and cannot be bootstrapped: it has got as far as to
connect those peers that can be, but there are others. -/
theorem bootstrap_failed {error : ReplicaError} (hnew : r.bootstrapped = false)
    (h : r.bootstrap = (t, .error error)) :
    (∃ cause, error = .peers cause) ∧ t = ((Turn.start r).leaveOffice.settle .initialized).update fun s =>
      { s with peers := (r.peers.connect r.settings.connect).1 } := by
  simp only [bootstrap, Turn.bootstrap, Turn.enterAll, Turn.enter, Turn.prepareRunning,
    Turn.replica_settle, Turn.replica_leaveOffice, Turn.replica_start, hnew] at h
  cases hconnect : (r.peers.connect r.settings.connect).2 with
  | error cause =>
    simp only [hconnect, Bool.false_eq_true, if_false, Prod.mk.injEq, Except.error.injEq] at h
    exact ⟨⟨cause, h.2.symm⟩, h.1.symm⟩
  | ok => simp [hconnect] at h

/-- How the loop of a replica has ended, after which events and in which turn.  Write-aheads may have been
handled as batches. -/
inductive Ends (r : Replica) : List Event → Turn → Except ReplicaError Unit → Prop
  /-- The replica could not be bootstrapped, so that there never was a loop. -/
  | unbooted {last : Turn} {error : ReplicaError} (boots : r.booted = (last, .error error)) :
      r.Ends [] last (.error error)
  /-- All events have been handled so far. -/
  | served {events : List Event} {last : Turn} (boots : r.booted.2 = .ok ())
      (through : Tenure.Through r events last (.ok ())) : r.Ends events last (.ok ())
  /-- The last event could not be handled. -/
  | failed {events handled : List Event} {before last : Turn} {event : Event} {error : ReplicaError}
      (boots : r.booted.2 = .ok ()) (serve : r.booted.1.serve handled = (before, [], .ok ()))
      (fails : before.handle event = (last, .error error))
      (same : Event.expandAll events = Event.expandAll (handled ++ [event])) : r.Ends events last (.error error)

section Created

variable {name : String} {roster : Roster} {options : Options} {events : List Event} {last : Turn}
  {result : Except ReplicaError Unit} (hcreate : create name roster options = .ok r)
include hcreate

theorem created_listening : { r with listening := true }.Created name roster := by
  obtain ⟨named, role, bootstrapped, peers, quorum, term, votedFor, leader, log, commitIndex,
    lastApplied, published⟩ := create_ok hcreate
  exact ⟨named, role, bootstrapped, peers, quorum, term, votedFor, leader, log, commitIndex, lastApplied,
    published⟩

/-- Every ending comes upon a replica that has not stopped, with the peers of its roster but for itself. -/
theorem awake_of_ends (h : r.Ends events last result) :
    last.Awake ∧ last.replica.peers.disconnected = r.peers.disconnected := by
  have hcreated := created_listening hcreate
  have hstart : r.booted.2 = .ok () → r.booted.1.Tidy [Snapshot.initial] ∧
      r.booted.1.replica.peers.disconnected = r.peers.disconnected := by
    intro hboots
    have hbooted : r.booted = (r.booted.1, .ok ()) := Prod.ext rfl hboots
    refine ⟨hcreated.tidy hbooted, ?_⟩
    rw [(bootstrap_standing hbooted hcreated.bootstrapped).2]
    simp [Roster.disconnected]
  cases h with
  | unbooted boots =>
    rw [(bootstrap_failed hcreated.bootstrapped boots).2]
    refine ⟨⟨?_, ?_⟩, r.peers.disconnected_connect r.settings.connect⟩ <;>
      rw [Turn.replica_update, Turn.replica_settle] <;> intro hrole <;> cases hrole
  | served boots through =>
    obtain ⟨htidy, hpeers⟩ := hstart boots
    obtain ⟨handled, hserve, -⟩ := through
    rw [(Turn.sameMember_serve hserve).peers]
    exact ⟨(htidy.serve hserve).awake, hpeers⟩
  | @failed events handled before last event error boots serve fails =>
    obtain ⟨htidy, hpeers⟩ := hstart boots
    have hall : r.booted.1.serve (handled ++ [event]) = (last, [], .error error) := by
      rw [Turn.serve_append serve, Turn.serve_cons_of_error fails]
    rw [(Turn.sameMember_serve hall).peers]
    exact ⟨(htidy.serve serve).awake_of_failed fails, hpeers⟩

/-- A replica comes apart as a follower or a candidate, in the largest term. -/
theorem Ends.exhausted (h : r.Ends events last (.error .termExhausted)) :
    (last.replica.role = .follower ∨ last.replica.role = .candidate) ∧ wordMax ≤ last.replica.term := by
  cases h with
  | unbooted boots =>
    obtain ⟨⟨cause, hcause⟩, -⟩ := bootstrap_failed (created_listening hcreate).bootstrapped boots
    cases hcause
  | failed boots serve fails =>
    obtain ⟨rfl, hrole, hterm⟩ := Turn.of_handle_termExhausted fails
    exact ⟨hrole, hterm⟩

/-- A replica that cannot be bootstrapped has never been healthy, and stops like any other. -/
theorem conclude_of_unbooted {error : ReplicaError} (boots : r.booted = (last, .error error)) :
    last.conclude (.error error) = last.shutDown := by
  obtain ⟨⟨cause, rfl⟩, hlast⟩ := bootstrap_failed (created_listening hcreate).bootstrapped boots
  have hhealth : last.replica.health.healthy = false := by
    rw [hlast, Turn.replica_update, Turn.replica_settle]
    unfold create at hcreate
    split at hcreate <;> cases hcreate
    rfl
  have hsame : last.update (fun r => { r with health := { r.health with healthy := false } }) = last := by
    show { last with replica :=
      { last.replica with health := { last.replica.health with healthy := false } } } = last
    rw [← hhealth]
  exact congrArg Turn.shutDown hsame

end Created

end Replica

namespace Served

/-- How the loop stands once it has had the time for all that is queued. -/
def outlook (s : Served) : Option (Except ReplicaError Unit) :=
  match (s.turn.serve s.pipe.queue).2.2 with
  | .ok () => if s.pipe.isOver then some (.ok ()) else none
  | .error error => some (.error error)

/-- With enough rounds for its queue a loop comes to where it waits or ends, and leaves nothing queued. -/
theorem ended_advance {s : Served} (hended : s.ended = none) (hsteady : s.replica.Steady) {rounds : Nat}
    (hrounds : s.pipe.queue.length < rounds) :
    (s.advance rounds).ended = s.outlook ∧ (s.advance rounds).pipe.queue = [] := by
  have hserves := Loop.serves_run s.replica.settings.aggregate rounds s.pipe (.refl s.turn) hsteady hrounds
  have hstatus : (s.drive rounds).2 = Loop.ending s.pipe (s.turn.serve s.pipe.queue).2.2 := hserves.result
  have hleft : (s.drive rounds).1.pipe = { s.pipe with queue := (s.turn.serve s.pipe.queue).2.1 } :=
    hserves.left
  unfold advance outlook
  rw [hended]
  generalize s.drive rounds = outcome at hstatus hleft ⊢
  obtain ⟨⟨last, pipe⟩, status⟩ := outcome
  obtain rfl : status = Loop.ending s.pipe (s.turn.serve s.pipe.queue).2.2 := hstatus
  rcases hserve : s.turn.serve s.pipe.queue with ⟨next, left, result⟩
  rw [hserve] at hleft
  cases result with
  | error error => exact ⟨rfl, rfl⟩
  | ok =>
    have hnone : left = [] := Turn.left_of_serve hserve
    have hqueue : pipe.queue = [] := by
      rw [show pipe = _ from hleft]
      exact hnone
    unfold Loop.ending
    cases hover : s.pipe.isOver with
    | true => exact ⟨rfl, rfl⟩
    | false => exact ⟨rfl, hqueue⟩

end Served

namespace Tenure

variable {name : String} {roster : Roster} {options : Options} {r : Replica} {incidents : List Incident}
  {result : Except ReplicaError Unit}

/-- What brings the loop of a replica to its end that comes out of bootstrap as `boot`. -/
structure Ending (boot : Outcome) (k : Tenure) : Prop where
  /-- As long as the loop goes on, the turn that it was in last is the present one. -/
  present : k.served.ended = none → k.last = k.served.turn
  unbooted : ∀ error, boot.2 = .error error → k.served.ended = some (.error error)
  told : k.served.ended = none → (k.befall .stop).served.ended = some (.ok ())
  /-- The loop ends for an event that cannot be handled, and when nothing more can come out of its pipe. -/
  run : k.served.ended = none → ∀ rounds, k.served.pipe.queue.length < rounds →
    (k.befall (.run rounds)).served.ended = k.served.outlook
  /-- A loop with the time for all that it can do does as much. -/
  work : k.served.ended = none →
    (k.befall .work).served.ended = k.served.outlook ∧ (k.befall .work).served.pipe.queue = []

theorem ending_of (hcreate : Replica.create name roster options = .ok r) (incidents : List Incident) :
    (of r incidents).Ending r.booted := by
  have hstands := stands_of r incidents
  generalize of r incidents = k at hstands
  have hsteady : k.served.ended = none → k.served.turn.replica.Steady := by
    intro hended
    obtain ⟨hboots, hturn, handled, ⟨earlier, hserve, -⟩, -⟩ := hstands.serves hended
    rw [hturn]
    exact Turn.steady_serve ((Replica.created_listening hcreate).steady (Prod.ext rfl hboots)) hserve
  refine ⟨fun hended => (hstands.serves hended).2.1.symm, fun error hboot => ?boots, fun hended => ?told,
    fun hended rounds hrounds => ?run, fun hended => ?work⟩
  case boots =>
    cases hstands with
    | unbooted boots ended =>
      rw [boots] at hboot
      rw [ended, ← hboot]
    | serving boots | concluded boots =>
      rw [boots] at hboot
      cases hboot
  case told =>
    rw [befall, Served.shutDown, hended]
    rfl
  case run => exact (Served.ended_advance hended (hsteady hended) hrounds).1
  case work => exact Served.ended_advance hended (hsteady hended) (Nat.lt_succ_self _)

/-- A tenure that is over has had its ending, and the pipe is gone. -/
theorem ends_of (hcreate : Replica.create name roster options = .ok r)
    (hended : (of r incidents).served.ended = some result) :
    let k := of r incidents
    (∃ handled dropped, k.taken = handled ++ dropped ∧ r.Ends handled k.last result) ∧
      k.served.turn = k.last.conclude result ∧ k.served.pipe.closed = true ∧ k.served.pipe.queue = [] := by
  intro k
  have hstands : k.Stands r := stands_of r incidents
  have hended' : k.served.ended = some result := hended
  cases hstands with
  | @unbooted error boots ended turn shut left taken =>
    obtain rfl : result = .error error := Option.some.inj (hended'.symm.trans ended)
    have hconclude := Replica.conclude_of_unbooted hcreate boots
    exact ⟨⟨[], [], taken, .unbooted boots⟩, turn.trans hconclude.symm, shut, left⟩
  | serving boots ended =>
    rw [hended'] at ended
    cases ended
  | @concluded handled dropped result' boots ended turn through shut left taken =>
    obtain rfl : result = result' := Option.some.inj (hended'.symm.trans ended)
    refine ⟨⟨handled, dropped, taken, ?_⟩, turn, shut, left⟩
    cases result with
    | ok => exact .served boots through
    | error error =>
      obtain ⟨all, hserve, hsame⟩ := through
      obtain ⟨before, event, between, rfl, hbefore, hfails⟩ := Turn.serve_error hserve
      exact .failed boots hbefore hfails hsame

end Tenure

/-! ## At rest, or apart -/

/-- A served replica of a name and a roster whose loop has ended in a turn with a result. -/
structure Served.AtRest (s : Served) (name : String) (roster : Roster) (last : Turn)
    (result : Except ReplicaError Unit) : Prop where
  role : s.replica.role = .stopped
  /-- Nothing runs any more, and nothing will. -/
  heartbeatTicker : s.replica.heartbeatTicker = false
  electionTicker : s.replica.electionTicker = false
  cancelled : s.replica.cancelled = true
  /-- All peers of the roster but the replica itself are there, and none of them is connected. -/
  peers : s.replica.peers = Roster.disconnected (roster.filter fun seat => seat.peer.name != name)
  leader : s.replica.leader = none
  listening : s.replica.listening = false
  pipe : s.pipe.closed = true ∧ s.pipe.queue = []
  ready : s.replica.health.ready = false
  published : s.replica.published = ⟨.stopped, s.replica.term, none⟩
  /-- With the end, the timers that were there have been stopped and the snapshot has been published, and
  nothing else has been done. -/
  effects : s.turn.effects = last.effects ++
    (([Tick.heartbeat, Tick.election].filter last.replica.hasTicker).map .stopTicker ++
      [.publish s.replica.published])
  /-- What the replica knew it still knows. -/
  term : s.replica.term = last.replica.term
  votedFor : s.replica.votedFor = last.replica.votedFor
  log : s.replica.log = last.replica.log
  commitIndex : s.replica.commitIndex = last.replica.commitIndex
  lastApplied : s.replica.lastApplied = last.replica.lastApplied
  stream : s.turn.committed = last.committed
  /-- Whoever tells the replica to stop learns how the loop ended. -/
  told : s.shutDown = (s, result)
  healthy : ∀ error, result = .error error → s.replica.health.healthy = false
  /-- There is nothing left to stop. -/
  again : s.turn.shutDown = s.turn

/-- A served replica that has come apart in a turn, as there was no term left for it to stand for election
in. -/
structure Served.Unwound (s : Served) (last : Turn) : Prop where
  role : last.replica.role = .follower ∨ last.replica.role = .candidate
  term : wordMax ≤ last.replica.term
  /-- It is left as it was, but without its timers. -/
  replica : s.replica = { last.replica with heartbeatTicker := false, electionTicker := false }
  pipe : s.pipe.closed = true ∧ s.pipe.queue = []
  /-- The timers that were there have been stopped.  Nothing has been published, nor has anything else been
  done. -/
  effects : s.turn.effects = last.effects ++
    ([Tick.heartbeat, Tick.election].filter last.replica.hasTicker).map .stopTicker
  /-- Whoever tells the replica to stop learns of it. -/
  told : s.shutDown = (s, .error .termExhausted)

namespace Tenure

variable {name : String} {roster : Roster} {options : Options} {r : Replica} {events : List Event}
  {incidents : List Incident} {result : Except ReplicaError Unit} {last : Turn} {pipe : Pipe Event}

theorem atRest_of_ends (hcreate : Replica.create name roster options = .ok r) (hends : r.Ends events last result)
    (hreturns : result ≠ .error .termExhausted) (hpipe : pipe.closed = true ∧ pipe.queue = []) :
    Served.AtRest ⟨last.conclude result, pipe, some result⟩ name roster last result := by
  obtain ⟨hawake, hpeers⟩ := Replica.awake_of_ends hcreate hends
  have hreplica := Turn.replica_conclude hawake hreturns
  have heffects := Turn.effects_conclude hawake hreturns
  have hroster : r.peers = roster.filter fun seat => seat.peer.name != name :=
    (Replica.create_standing hcreate).2.2
  have hstream : (last.conclude result).committed = last.committed := by
    rw [Turn.committed, heffects, List.filterMap_append, List.filterMap_append, List.filterMap_map]
    simp [Turn.committed, Effect.commit?, Function.comp_def]
  have hagain : (last.conclude result).shutDown = last.conclude result :=
    Turn.shutDown_of_stopped (by rw [hreplica]) (by rw [hreplica])
  refine
    { role := ?_, heartbeatTicker := ?_, electionTicker := ?_, cancelled := ?_, peers := ?_, leader := ?_
      listening := ?_, pipe := hpipe, ready := ?_, published := ?_, effects := ?_, term := ?_
      votedFor := ?_, log := ?_, commitIndex := ?_, lastApplied := ?_, stream := hstream, told := rfl
      healthy := ?_, again := hagain } <;>
    simp only [Served.replica, hreplica]
  · rw [hpeers, hroster]
  · exact heffects
  · rintro error rfl
    rfl

theorem unwound_of_ends (hcreate : Replica.create name roster options = .ok r)
    (hends : r.Ends events last (.error .termExhausted)) (hpipe : pipe.closed = true ∧ pipe.queue = []) :
    Served.Unwound ⟨last.conclude (.error .termExhausted), pipe, some (.error .termExhausted)⟩ last := by
  obtain ⟨hrole, hterm⟩ := hends.exhausted hcreate
  exact ⟨hrole, hterm, last.replica_unwind, hpipe, last.effects_unwind, rfl⟩

/-- Once the loop has ended, nothing befalls the replica any more. -/
theorem stays {k : Tenure} (hended : k.served.ended = some result) (hshut : k.served.pipe.closed = true)
    (more : List Incident) :
    (more.foldl befall k).served.turn = k.served.turn ∧
      (more.foldl befall k).served.ended = some result := by
  induction more generalizing k with
  | nil => exact ⟨rfl, hended⟩
  | cons incident rest ih =>
    have hsame := sameEnd_befall hended hshut incident
    obtain ⟨hturn, hend⟩ := ih (hsame.ended.trans hended) (hsame.closed.trans hshut)
    exact ⟨hturn.trans hsame.turn, hend⟩

/-- **A replica that ends leaves nothing running and forgets nothing.**  Take any roster, with peers that can
be connected, that cannot be, and that are connected already, and let anything befall the replica that is
served with it.  Its loop ends if the replica cannot be bootstrapped, if it is told to stop, if its pipe has
ended and if an event cannot be handled.  Of the events that the pipe has taken the first have been handled by
then and have led to the turn that the loop was in last, and the others are dropped.  From that turn the
replica has come to rest, and it stays there whatever befalls it from then on.

It is otherwise only with an election timeout in the largest term, which is no event that cannot be handled:
over that the replica comes apart, without coming to stop. -/
theorem ended_at_rest (hcreate : Replica.create name roster options = .ok r) (incidents : List Incident) :
    let k := of r incidents
    k.Ending r.booted ∧
    ∀ result, k.served.ended = some result →
      (∃ handled dropped, k.taken = handled ++ dropped ∧ r.Ends handled k.last result) ∧
      (result ≠ .error .termExhausted → k.served.AtRest name roster k.last result) ∧
      (result = .error .termExhausted → k.served.Unwound k.last) ∧
      ∀ more, (of r (incidents ++ more)).served.turn = k.served.turn ∧
        (of r (incidents ++ more)).served.ended = some result := by
  intro k
  refine ⟨ending_of hcreate incidents, fun result hended => ?_⟩
  obtain ⟨⟨handled, dropped, htaken, hlast⟩, hturn, hpipe⟩ := ends_of hcreate hended
  have hserved : k.served = ⟨k.last.conclude result, k.served.pipe, some result⟩ := by
    rw [← hended, ← hturn]
  refine ⟨⟨handled, dropped, htaken, hlast⟩, fun hreturns => ?rest, ?apart, fun more => ?stays⟩
  case rest =>
    rw [hserved]
    exact atRest_of_ends hcreate hlast hreturns hpipe
  case apart =>
    rintro rfl
    rw [hserved]
    exact unwound_of_ends hcreate hlast hpipe
  case stays =>
    rw [of, List.foldl_append]
    exact stays hended hpipe.1 more

/-- `a` is elected with the vote of `b`, and then an event says that something has gone wrong, with one more
behind it. -/
def aborted : List Incident := [
  .send .electionTimeout,
  .send (.voteReply ⟨"b", 1, true⟩),
  .send (.error "disk on fire"),
  .send .heartbeatTimeout,
  .run 1,
  .work]

/-- `a` hears of a leader in the largest term, and then from nobody. -/
def outlasted : List Incident := [
  .send (.appendRequest ⟨wordMax, "b", 0, 0, 0, []⟩ 0),
  .send .electionTimeout,
  .work]

/-- The leader has stopped with the error, knows the term to which it was elected, and has let go of `b`.
Whoever listens has heard of all its stages.  The follower that has outlasted all terms has not stopped and
holds on to `b`, and nobody has heard of it. -/
theorem ended_at_rest_aborted :
    Replica.create "a" Life.sampleRoster Options.default = .ok sample ∧
    (∃ error handled dropped, (of sample aborted).served.ended = some (.error error) ∧
      error.message = "event loop aborted: disk on fire" ∧
      (of sample aborted).taken = handled ++ dropped ∧
      sample.Ends handled (of sample aborted).last (.error error) ∧
      (of sample aborted).last.replica.term = 1 ∧
      (of sample aborted).served.AtRest "a" Life.sampleRoster (of sample aborted).last (.error error) ∧
      (of sample aborted).served.turn.published.map (·.role) =
        [.initialized, .running, .follower, .candidate, .leader, .stopped]) ∧
    (of sample outlasted).served.ended = some (.error .termExhausted) ∧
      (of sample outlasted).served.Unwound (of sample outlasted).last ∧
      (of sample outlasted).served.replica.peers.map (·.connected) = [true] ∧
      (of sample outlasted).served.replica.published = ⟨.follower, wordMax, some "b"⟩ := by
  refine ⟨create_sample, ?aborted, ?outlasted⟩
  case aborted =>
    have hmessage : (of sample aborted).served.ended.map (Except.mapError ReplicaError.message) =
        some (.error "event loop aborted: disk on fire") := by decide +kernel
    have hterm : (of sample aborted).last.replica.term = 1 := by decide +kernel
    obtain ⟨result, hended, hresult⟩ := Option.map_eq_some_iff.mp hmessage
    obtain ⟨⟨handled, dropped, htaken, hends⟩, hrest, -, -⟩ :=
      (ended_at_rest create_sample aborted).2 result hended
    cases result with
    | ok => cases hresult
    | error error =>
      have htold : error.message = "event loop aborted: disk on fire" := Except.error.inj hresult
      have hreturns : (.error error : Except ReplicaError Unit) ≠ .error .termExhausted := by
        intro hlost
        rw [Except.error.inj hlost] at htold
        exact absurd htold (by decide)
      exact ⟨error, handled, dropped, hended, htold, htaken, hends, hterm, hrest hreturns, by decide +kernel⟩
  case outlasted =>
    have hsome : (of sample outlasted).served.ended.isSome = true := by decide +kernel
    have hrole : (of sample outlasted).served.replica.role = .follower := by decide +kernel
    obtain ⟨result, hended⟩ := Option.isSome_iff_exists.mp hsome
    obtain ⟨-, hrest, hapart, -⟩ := (ended_at_rest create_sample outlasted).2 result hended
    -- at rest it would not be a follower
    obtain rfl : result = .error .termExhausted := by
      by_contra hreturns
      have hstopped := (hrest hreturns).role
      rw [hrole] at hstopped
      cases hstopped
    exact ⟨hended, hapart rfl, by decide +kernel, by decide +kernel⟩

end Tenure

end RaftReplica
