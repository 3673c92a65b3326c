import RaftReplica.Proofs.Replica.Bookkeeping
import RaftReplica.Proofs.Replica.LogChanges

/-!
# Bringing a peer up to date

A leader does not know how much of its log a peer holds.  It goes back in its log, as far as each refusal
tells it to, until the peer agrees, and from there it ships its entries in portions.  Both come to an end
whatever the peer has in its log.  The reason is that the leader never goes back to where the logs are known
to agree, since no peer that matches refuses an entry there.

* `Pairing` is a leader with one of its peers, `Pairing.round` the exchange of one request and its reply, and
  `Pairing.Lagging` what holds between two such exchanges.
* `Lagging.exchange` says what comes of a round: the peer refuses and the leader goes back, or the peer comes
  to hold one more portion of the leader's log.
* `Lagging.after` bounds the refusals by what the leader can go back, and `Lagging.shipping` says how far the
  portions reach.
* `Pairing.catch_up_converges` sums up.
-/

namespace RaftReplica

/-! ## What the two of them know -/

namespace PeerProgress

/-- The record of a peer that is known to match up to an index, and waits for the entry behind that. -/
def upTo (index : Nat) : PeerProgress := ⟨index + 1, index⟩

@[simp] theorem next_upTo (index : Nat) : (upTo index).next = index + 1 := rfl

@[simp] theorem matched_upTo (index : Nat) : (upTo index).matched = index := rfl

variable {p : PeerProgress} {index : Nat}

/-- A success that tells of all that has been shipped leaves nothing open before it. -/
theorem succeed_eq_upTo (hmatched : p.matched ≤ index) (hnext : p.next ≤ index + 1)
    (hindex : index < wordMax) : p.succeed index = upTo index := by
  simp only [succeed, upTo, Nat.max_eq_right hmatched, saturatingSucc_of_lt hindex,
    Nat.max_eq_right hnext]

/-- A failure goes back, but not to what is known to match. -/
theorem fail_next (hroom : p.matched + 1 < p.next) (hmatched : p.matched < wordMax) (index : Nat) :
    p.matched < (p.fail index).next ∧ (p.fail index).next < p.next := by
  simp only [fail, saturatingSucc_of_lt hmatched]
  omega

end PeerProgress

namespace Replica

/-- A leader's record of a peer. -/
def record? (r : Replica) (name : String) : Option PeerProgress := r.progress.bind (·.get? name)

/-- A leader notes what a peer of which it has a record replies in its term.  Log, term and office stay. -/
theorem record?_handle_appendReply {r : Replica} {reply : AppendReply} {record : PeerProgress}
    (hleads : r.role = .leader) (hpresent : r.term = reply.term)
    (hrecord : r.record? reply.remote = some record) :
    let s := (r.handle (.appendReply reply)).1.replica
    let index := min reply.index r.log.lastIndex
    s.role = .leader ∧ s.term = r.term ∧ s.log = r.log ∧
      s.record? reply.remote =
        some (if reply.success then record.succeed index else record.fail index) := by
  obtain ⟨progress, hprogress, hget⟩ := Option.bind_eq_some_iff.mp hrecord
  have hcontains : progress.contains reply.remote = true := by
    rw [Progress.contains, Std.TreeMap.contains_eq_isSome_getElem?]
    exact Option.isSome_iff_exists.mpr ⟨record, hget⟩
  have hknown : r.progress.any (·.contains reply.remote) = true := by
    rw [hprogress]
    exact hcontains
  simp only [handle, Turn.handle]
  cases hsuccess : reply.success with
  | true =>
    rw [(Turn.start r).onAppendReply_of_success hleads hpresent hsuccess hknown]
    obtain ⟨commitIndex, lastApplied, hadvance⟩ := Turn.exists_replica_advanceCommitIndex
      ((Turn.start r).update fun r => { r with
        progress := r.progress.map fun progress =>
          progress.succeed reply.remote (min reply.index r.log.lastIndex) })
    rw [hadvance]
    refine ⟨hleads, rfl, rfl, ?_⟩
    simp [record?, hprogress, Progress.get?_succeed, hget]
  | false =>
    rw [(Turn.start r).onAppendReply_of_failure hleads hpresent hsuccess hknown]
    refine ⟨hleads, rfl, rfl, ?_⟩
    simp [record?, hprogress, Progress.get?_fail, hget]

end Replica

theorem Turn.answerTo?_of_answers {t : Turn} {ticket : Ticket} {answer : Answer}
    (h : t.answers = [(ticket, answer)]) : t.answerTo? ticket = some answer := by
  simp [answerTo?, h]

/-! ## Rounds -/

/-- A leader and one of its peers. -/
structure Pairing where
  leader : Replica
  peer : Replica

namespace Pairing

/-- The leader's record of the peer. -/
def record? (s : Pairing) : Option PeerProgress := s.leader.record? s.peer.name

/-- The request for the entry that the peer waits for. -/
def request? (s : Pairing) : Option AppendRequest :=
  s.record?.bind fun record => s.leader.appendRequest? record.next

/-- What the peer does with a request, which it answers under a ticket that is used for nothing else. -/
def serve (s : Pairing) (request : AppendRequest) : Turn :=
  (s.peer.handle (.appendRequest request 0)).1

/-- What the peer replies to the leader's request. -/
def reply? (s : Pairing) : Option AppendReply :=
  s.request?.bind fun request =>
    match (s.serve request).answerTo? 0 with
    | some (.append reply) => some reply
    | _ => none

/-- Whether the peer takes what the leader's request ships. -/
def outcome? (s : Pairing) : Option Bool := s.reply?.map (·.success)

/-- One request of the leader is handled by the peer, and the reply by the leader. -/
def round (s : Pairing) : Pairing where
  leader :=
    match s.reply? with
    | some reply => (s.leader.handle (.appendReply reply)).1.replica
    | none => s.leader
  peer :=
    match s.request? with
    | some request => (s.serve request).replica
    | none => s.peer

/-- The leader and its peer after some rounds. -/
def after (s : Pairing) : Nat → Pairing
  | 0 => s
  | n + 1 => (s.after n).round

/-- How many of the first rounds fail. -/
def failures (s : Pairing) : Nat → Nat
  | 0 => 0
  | n + 1 => s.failures n + if (s.after n).outcome? = some false then 1 else 0

/-- How many rounds it takes to ship that many entries, and to hear that they have arrived. -/
def roundsFor (entries : Nat) : Nat :=
  max 1 ((entries + (maxEntriesPerAppend - 1)) / maxEntriesPerAppend)

variable {s : Pairing} {record : PeerProgress} {request : AppendRequest} {reply : AppendReply}

@[simp] theorem after_zero (s : Pairing) : s.after 0 = s := rfl

theorem after_succ (s : Pairing) (n : Nat) : s.after (n + 1) = (s.after n).round := rfl

theorem after_add (s : Pairing) (n m : Nat) : s.after (n + m) = (s.after n).after m := by
  induction m with
  | zero => rfl
  | succ m ih => rw [← Nat.add_assoc, after_succ, after_succ, ih]

theorem round_of_reply? (hrequest : s.request? = some request) (hreply : s.reply? = some reply) :
    s.round = ⟨(s.leader.handle (.appendReply reply)).1.replica, (s.serve request).replica⟩ := by
  unfold round
  rw [hreply, hrequest]

/-- Whenever the leader replicates it sends that request, to a group that the peer is in. -/
def Sends (s : Pairing) (request : AppendRequest) : Prop :=
  ∃ names : List String, s.peer.name ∈ names ∧ ∀ t : Turn, t.replica = s.leader →
    ∃ broadcasts, t.replicate.effects = t.effects ++ broadcasts ∧
      .broadcast (s.leader.peers.filter fun seat => names.contains seat.peer.name) (.append request) ∈
        broadcasts

theorem sends_of_request? (h : s.request? = some request) : s.Sends request := by
  obtain ⟨record, hrecord, hrequest⟩ := Option.bind_eq_some_iff.mp h
  obtain ⟨progress, hprogress, hget⟩ := Option.bind_eq_some_iff.mp hrecord
  obtain ⟨names, hgroup, hname⟩ := Progress.exists_group_of_get? hget
  refine ⟨names, hname, fun t ht => ⟨s.leader.replicationBroadcasts, ?_, ?_⟩⟩
  · rw [Turn.replicate, ht, Turn.effects_emitAll]
  · rw [Replica.replicationBroadcasts, hprogress]
    refine List.mem_filterMap.mpr ⟨_, hgroup, ?_⟩
    simp only [Replica.groupBroadcast?, hrequest, Option.map_some]

/-! ## What holds between rounds -/

/-- A leader has a record of a peer, who is in no later term.  Their logs match, and agree up to where the
record says they do, which is before the entry that the peer waits for; and that is at most the one behind
the leader's log.  As in every log that there can be, the entries of the leader carry their indexes, and they
are few enough to be counted. -/
structure Lagging (s : Pairing) (record : PeerProgress) : Prop where
  leads : s.leader.role = .leader
  recorded : s.record? = some record
  term : s.peer.term ≤ s.leader.term
  indexed : s.leader.log.Indexed
  countable : s.leader.log.lastIndex < wordMax
  before : record.matched < record.next
  next : record.next ≤ s.leader.log.lastIndex + 1
  alike : s.peer.log.Matches s.leader.log
  agrees : s.peer.log.entries.take record.matched = s.leader.log.entries.take record.matched

namespace Lagging

/-- There is a request, and it starts where the peer waits. -/
theorem exists_request? (h : s.Lagging record) :
    ∃ request, s.request? = some request ∧ request.term = s.leader.term ∧
      request.prevLogIndex = record.next - 1 ∧
      s.leader.log.termAt? (record.next - 1) = some request.prevLogTerm ∧
      request.entries = s.leader.log.entriesFrom record.next maxEntriesPerAppend := by
  have hnext := h.next
  have hreach : record.next - 1 ≤ s.leader.log.lastIndex := by omega
  obtain ⟨term, hterm⟩ := Log.exists_termAt?_of_le hreach
  have hrequest : s.request? = (s.leader.appendRequest? record.next) := by
    rw [request?, h.recorded, Option.bind_some]
  rw [Replica.appendRequest?, hterm] at hrequest
  exact ⟨_, hrequest, rfl, rfl, hterm, rfl⟩

/-- The leader notes what the peer answers to its request, and they go on from there. -/
theorem round_of_answers (h : s.Lagging record) (hrequest : s.request? = some request)
    {success : Bool} {index : Nat} {noted : PeerProgress}
    (hanswers : (s.serve request).answers =
      [(0, .append ((s.serve request).replica.appendReply success index))])
    (hname : (s.serve request).replica.name = s.peer.name)
    (hterm : (s.serve request).replica.term = s.leader.term)
    (hnoted : (if success then record.succeed (min index s.leader.log.lastIndex)
      else record.fail (min index s.leader.log.lastIndex)) = noted)
    (hbefore : noted.matched < noted.next) (hnext : noted.next ≤ s.leader.log.lastIndex + 1)
    (halike : (s.serve request).replica.log.Matches s.leader.log)
    (hagrees : (s.serve request).replica.log.entries.take noted.matched =
      s.leader.log.entries.take noted.matched) :
    s.outcome? = some success ∧ s.round.leader.log = s.leader.log ∧ s.round.Lagging noted := by
  let reply := (s.serve request).replica.appendReply success index
  have hreply : s.reply? = some reply := by
    rw [reply?, hrequest, Option.bind_some, Turn.answerTo?_of_answers hanswers]
  have hrecord : s.leader.record? reply.remote = some record := by
    show s.leader.record? (s.serve request).replica.name = some record
    rw [hname]
    exact h.recorded
  obtain ⟨hleads, hterm', hlog, hrecord'⟩ :=
    Replica.record?_handle_appendReply h.leads hterm.symm hrecord
  have hround := round_of_reply? hrequest hreply
  have hlog' : s.round.leader.log = s.leader.log := by
    rw [hround]
    exact hlog
  refine ⟨by rw [outcome?, hreply, Option.map_some]; rfl, hlog', ?_⟩
  constructor
  · rw [hround]
    exact hleads
  · rw [hround, ← hnoted]
    exact hrecord'
  · rw [hround]
    exact Nat.le_of_eq (hterm.trans hterm'.symm)
  · rw [hlog']
    exact h.indexed
  · rw [hlog']
    exact h.countable
  · exact hbefore
  · rw [hlog']
    exact hnext
  · rw [hlog', hround]
    exact halike
  · rw [hlog', hround]
    exact hagrees

/-- A peer that agrees just before the entry that it waits for comes to hold one more portion. -/
theorem merged_portion (h : s.Lagging record) {term : Nat}
    (hagrees : s.peer.log.termAt? (record.next - 1) = some term)
    (hterm : s.leader.log.termAt? (record.next - 1) = some term) :
    let entries := s.leader.log.entriesFrom record.next maxEntriesPerAppend
    let reach := min (record.next - 1 + maxEntriesPerAppend) s.leader.log.lastIndex
    let merged := (s.peer.log.merge (record.next - 1) entries).2
    record.next - 1 + entries.length = reach ∧ merged.Matches s.leader.log ∧
      merged.entries.take reach = s.leader.log.entries.take reach := by
  intro entries reach merged
  have hbefore := h.before
  have hnext := h.next
  have hreach : record.next - 1 + entries.length = reach := by
    simp only [entries, reach, Log.entriesFrom, if_neg (show record.next ≠ 0 by omega),
      List.length_take, List.length_drop, Log.lastIndex] at hnext ⊢
    omega
  have hend : record.next - 1 + entries.length ≤ s.leader.log.entries.length := by
    rw [hreach]
    exact Nat.min_le_right _ _
  obtain ⟨halike, hshared⟩ := h.alike.merge h.indexed (Log.le_length_of_termAt? hagrees)
    (h.alike.take_eq_of_termAt? hagrees hterm) (Log.entriesFrom_isPrefix _ _ _) hend
  rw [hreach] at hshared
  exact ⟨hreach, halike, hshared⟩

/-- Where the logs are known to agree a peer does not refuse. -/
theorem room_of_refused (h : s.Lagging record)
    (hdiffers : s.peer.log.termAt? (record.next - 1) ≠ s.leader.log.termAt? (record.next - 1)) :
    record.matched + 1 < record.next := by
  have hbefore := h.before
  by_contra hnone
  have hmatched : record.next - 1 = record.matched := by omega
  rw [hmatched] at hdiffers
  exact hdiffers (Log.termAt?_eq_of_take h.agrees)

/-- **What comes of a round.**  Either the peer refuses, and the leader goes back, though not to what is
known to match.  Or the peer comes to hold one more portion, and the leader knows of it. -/
theorem exchange (h : s.Lagging record) :
    ∃ request, s.request? = some request ∧ request.prevLogIndex = record.next - 1 ∧
      s.round.leader.log = s.leader.log ∧
      ((s.outcome? = some false ∧ ∃ next < record.next, s.round.Lagging ⟨next, record.matched⟩) ∨
        (s.outcome? = some true ∧ s.round.Lagging
          (.upTo (min (record.next - 1 + maxEntriesPerAppend) s.leader.log.lastIndex)))) := by
  obtain ⟨request, hrequest, hterm, hprev, hprevTerm, hentries⟩ := h.exists_request?
  have hbefore := h.before
  have hnext := h.next
  have hcountable := h.countable
  refine ⟨request, hrequest, hprev, ?_⟩
  obtain ⟨⟨hname, hpeerTerm⟩, hcases⟩ := s.peer.appendRequest_cases 0 (hterm ▸ h.term)
  have hpresent : (s.serve request).replica.term = s.leader.term := hpeerTerm.trans hterm
  rw [hprev] at hcases
  rcases hcases with ⟨hagrees, hlog, hanswers⟩ | ⟨hdiffers, hlog, -, hanswers⟩
  · obtain ⟨hreach, halike, hshared⟩ := h.merged_portion hagrees hprevTerm
    rw [← hentries] at hreach halike hshared
    have hhigh := Nat.min_le_right (record.next - 1 + maxEntriesPerAppend) s.leader.log.lastIndex
    generalize min (record.next - 1 + maxEntriesPerAppend) s.leader.log.lastIndex = reach
      at hreach hshared hhigh ⊢
    have hnoted : record.succeed
        (min (record.next - 1 + request.entries.length) s.leader.log.lastIndex) = .upTo reach := by
      rw [hreach, Nat.min_eq_left hhigh]
      exact PeerProgress.succeed_eq_upTo (by omega) (by omega) (by omega)
    obtain ⟨houtcome, hlog', hlagging⟩ := h.round_of_answers hrequest hanswers hname hpresent hnoted
      (Nat.lt_succ_self reach) (Nat.succ_le_succ hhigh) (hlog ▸ halike) (hlog ▸ hshared)
    exact ⟨hlog', Or.inr ⟨houtcome, hlagging⟩⟩
  · rw [← hprevTerm] at hdiffers
    obtain ⟨hlow, hhigh⟩ := PeerProgress.fail_next (h.room_of_refused hdiffers) (by omega)
      (min s.peer.log.lastIndex s.leader.log.lastIndex)
    obtain ⟨houtcome, hlog', hlagging⟩ := h.round_of_answers hrequest hanswers hname hpresent rfl
      hlow (Nat.le_trans (Nat.le_of_lt hhigh) hnext) (hlog ▸ h.alike) (hlog ▸ h.agrees)
    exact ⟨hlog', Or.inl ⟨houtcome, _, hhigh, hlagging⟩⟩

/-- From some round on the leader knows where the peer is, and until then it goes back with every refusal: a
round that fails takes from what the leader can still go back, and none gives any back. -/
theorem after (h : s.Lagging record) (n : Nat) :
    ∃ current, (s.after n).Lagging current ∧ (s.after n).leader.log = s.leader.log ∧
      s.failures n + (current.next - 1 - current.matched) ≤ record.next - 1 - record.matched := by
  induction n with
  | zero => exact ⟨record, h, rfl, by rw [failures, Nat.zero_add]⟩
  | succ n ih =>
    obtain ⟨current, hcurrent, hlog, hbound⟩ := ih
    have hbefore := hcurrent.before
    obtain ⟨-, -, -, hlog', ⟨hfails, next, hnext, hlagging⟩ | ⟨hsucceeds, hlagging⟩⟩ :=
      hcurrent.exchange
    · have hbefore' : current.matched < next := hlagging.before
      refine ⟨_, hlagging, hlog'.trans hlog, ?_⟩
      rw [failures, if_pos hfails]
      show s.failures n + 1 + (next - 1 - current.matched) ≤ _
      omega
    · refine ⟨_, hlagging, hlog'.trans hlog, ?_⟩
      rw [failures, if_neg (by rw [hsucceeds]; nofun)]
      rw [PeerProgress.next_upTo, PeerProgress.matched_upTo]
      omega

/-- A peer that is known to match up to the entry that it waits for takes what it is sent. -/
theorem outcome?_upTo {index : Nat} (h : s.Lagging (.upTo index)) : s.outcome? = some true := by
  obtain ⟨-, -, -, -, ⟨-, next, hnext, hlagging⟩ | ⟨hsucceeds, -⟩⟩ := h.exchange
  · have hbefore : index < next := hlagging.before
    rw [PeerProgress.next_upTo] at hnext
    omega
  · exact hsucceeds

/-- Once a round has succeeded every round does, and ships one more portion. -/
theorem shipping (h : s.Lagging record) (hsucceeds : s.outcome? = some true) (k : Nat) :
    (s.after (k + 1)).leader.log = s.leader.log ∧
      (s.after (k + 1)).Lagging
        (.upTo (min (record.next - 1 + (k + 1) * maxEntriesPerAppend) s.leader.log.lastIndex)) := by
  induction k with
  | zero =>
    obtain ⟨-, -, -, hlog, ⟨hfails, -⟩ | ⟨-, hlagging⟩⟩ := h.exchange
    · rw [hsucceeds] at hfails
      cases hfails
    · rw [Nat.zero_add, Nat.one_mul]
      exact ⟨hlog, hlagging⟩
  | succ k ih =>
    obtain ⟨hlog, hcurrent⟩ := ih
    obtain ⟨-, -, -, hlog', ⟨hfails, -⟩ | ⟨-, hlagging⟩⟩ := hcurrent.exchange
    · rw [hcurrent.outcome?_upTo] at hfails
      cases hfails
    · have hreach : min (min (record.next - 1 + (k + 1) * maxEntriesPerAppend)
            s.leader.log.lastIndex + 1 - 1 + maxEntriesPerAppend) s.leader.log.lastIndex =
          min (record.next - 1 + (k + 2) * maxEntriesPerAppend) s.leader.log.lastIndex := by
        rw [Nat.add_mul (k + 1) 1]
        omega
      rw [hlog, PeerProgress.next_upTo, hreach] at hlagging
      exact ⟨hlog'.trans hlog, hlagging⟩

/-- Some round succeeds before the leader has nowhere left to go back to. -/
theorem exists_success (h : s.Lagging record) :
    ∃ n ≤ record.next - 1 - record.matched, (s.after n).outcome? = some true := by
  by_contra hnone
  have hfails : ∀ n ≤ record.next - 1 - record.matched + 1, s.failures n = n := by
    intro n
    induction n with
    | zero => exact fun _ => rfl
    | succ n ih =>
      intro hn
      obtain ⟨current, hcurrent, -, -⟩ := h.after n
      obtain ⟨-, -, -, -, ⟨hfails, -⟩ | ⟨hsucceeds, -⟩⟩ := hcurrent.exchange
      · rw [failures, if_pos hfails, ih (by omega)]
      · exact absurd ⟨n, by omega, hsucceeds⟩ hnone
  obtain ⟨_, -, -, hbound⟩ := h.after (record.next - 1 - record.matched + 1)
  rw [hfails _ (Nat.le_refl _)] at hbound
  omega

end Lagging

/-- **A peer is brought up to date**, whatever its log is like beyond where it is known to match.  In every
round the leader has a request for its peer, one that it sends whenever it replicates, and the peer answers
it.  If the round fails, the leader goes back in its log, and at most `next - 1 - matched` rounds do fail,
so that one of the first succeeds.  From the first success on no round fails; and it takes no more rounds
than the entries behind the request make portions until the peer holds all of the leader's log, which has
not changed, and the leader's record says so. -/
theorem catch_up_converges (h : s.Lagging record) :
    (∀ n, ∃ current request, (s.after n).record? = some current ∧
      (s.after n).request? = some request ∧ (s.after n).Sends request ∧
      request.prevLogIndex = current.next - 1 ∧
      ((s.after n).outcome? = some true ∨
        (s.after n).outcome? = some false ∧
          ∃ next < current.next, (s.after (n + 1)).record? = some ⟨next, current.matched⟩)) ∧
    (∀ n, s.failures n ≤ record.next - 1 - record.matched) ∧
    (∃ n ≤ record.next - 1 - record.matched, (s.after n).outcome? = some true) ∧
    ∀ n request, (s.after n).request? = some request → (s.after n).outcome? = some true →
      (∀ m ≥ n, (s.after m).outcome? = some true) ∧
      ∀ m ≥ n + roundsFor (s.leader.log.lastIndex - request.prevLogIndex),
        (s.after m).leader.log = s.leader.log ∧
        s.leader.log.entries <+: (s.after m).peer.log.entries ∧
        (s.after m).record? =
          some ⟨s.leader.log.lastIndex + 1, s.leader.log.lastIndex⟩ := by
  refine ⟨?_, ?_, h.exists_success, ?_⟩
  · intro n
    obtain ⟨current, hcurrent, -, -⟩ := h.after n
    obtain ⟨request, hrequest, hprev, -, hends⟩ := hcurrent.exchange
    refine ⟨current, request, hcurrent.recorded, hrequest, sends_of_request? hrequest, hprev, ?_⟩
    rcases hends with ⟨hfails, next, hnext, hlagging⟩ | ⟨hsucceeds, -⟩
    · exact Or.inr ⟨hfails, next, hnext, hlagging.recorded⟩
    · exact Or.inl hsucceeds
  · intro n
    obtain ⟨_, -, -, hbound⟩ := h.after n
    omega
  · intro n request hrequest hsucceeds
    obtain ⟨current, hcurrent, hlog, -⟩ := h.after n
    have hships := hcurrent.shipping hsucceeds
    constructor
    · intro m hm
      obtain ⟨k, rfl⟩ := Nat.exists_eq_add_of_le hm
      rw [after_add]
      cases k with
      | zero => exact hsucceeds
      | succ k => exact (hships k).2.outcome?_upTo
    · intro m hm
      obtain ⟨request', hrequest', hprev, -⟩ := hcurrent.exchange
      obtain rfl : request = request' := Option.some.inj (hrequest.symm.trans hrequest')
      obtain ⟨k, rfl⟩ : ∃ k, m = n + (k + 1) :=
        ⟨m - n - 1, by simp only [roundsFor] at hm; omega⟩
      obtain ⟨hlog', hlagging⟩ := hships k
      have hall : min (current.next - 1 + (k + 1) * maxEntriesPerAppend)
          (s.after n).leader.log.lastIndex = s.leader.log.lastIndex := by
        rw [hlog]
        simp only [roundsFor, maxEntriesPerAppend, hprev] at hm ⊢
        omega
      rw [hall, ← after_add] at hlagging
      rw [← after_add] at hlog'
      have hagrees := hlagging.agrees
      rw [PeerProgress.matched_upTo, hlog', hlog, Log.lastIndex, List.take_length] at hagrees
      refine ⟨hlog'.trans hlog, ?_, hlagging.recorded⟩
      exact hagrees ▸ List.take_prefix _ _

/-- `a` has taken over two entries and leads in a later term, in which it has written a third.  Its peer has
the first of them, and then three entries that nobody else has. -/
def straying : Pairing where
  leader := (Life.sample [
    .appendRequest ⟨1, "b", 0, 0, 0, [⟨1, 1, [1]⟩, ⟨2, 1, [2]⟩]⟩ 0,
    .electionTimeout, .electionTimeout,
    .voteReply ⟨"b", 3, true⟩,
    .writeAhead ⟨[3], none⟩]).state 5
  peer :=
    { (Life.sample []).state 0 with
      name := "b"
      term := 2
      log := ⟨[⟨1, 1, [1]⟩, ⟨2, 2, [8]⟩, ⟨3, 2, [8]⟩, ⟨4, 2, [8]⟩]⟩ }

/-- The peer refuses once, and drops what nobody else has for what it is sent next. -/
theorem catch_up_converges_straying :
    straying.record? = some ⟨3, 0⟩ ∧ straying.outcome? = some false ∧
      (∀ n, straying.failures n ≤ 2) ∧ (straying.after 1).outcome? = some true ∧
      ∀ m ≥ 2, straying.leader.log.entries <+: (straying.after m).peer.log.entries ∧
        (straying.after m).record? = some ⟨4, 3⟩ := by
  have hrecord : straying.record? = some ⟨3, 0⟩ := by decide +kernel
  have hlagging : straying.Lagging ⟨3, 0⟩ := by
    constructor
    · decide +kernel
    · exact hrecord
    · decide +kernel
    · decide +kernel
    · decide +kernel
    · decide
    · decide +kernel
    · decide +kernel
    · simp only [List.take_zero]
  obtain ⟨-, hfailures, -, hends⟩ := catch_up_converges hlagging
  have hrequest : (straying.after 1).request? =
      some ⟨3, "a", 1, 1, 0, [⟨2, 1, [2]⟩, ⟨3, 3, [3]⟩]⟩ := by decide +kernel
  have hsucceeds : (straying.after 1).outcome? = some true := by decide +kernel
  have hlast : straying.leader.log.lastIndex = 3 := by decide +kernel
  obtain ⟨-, harrives⟩ := hends 1 _ hrequest hsucceeds
  refine ⟨hrecord, by decide +kernel, hfailures, hsucceeds, ?_⟩
  intro m hm
  have hrounds : 1 + roundsFor (straying.leader.log.lastIndex - 1) = 2 := by rw [hlast]; rfl
  obtain ⟨-, hholds, hrecorded⟩ := harrives m (by rw [hrounds]; exact hm)
  rw [hlast] at hrecorded
  exact ⟨hholds, hrecorded⟩

end Pairing

end RaftReplica
