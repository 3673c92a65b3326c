import Mathlib.Data.List.Dedup
import RaftReplica.Proofs.Replica.Groups
import RaftReplica.Proofs.Replica.Life

/-!
# The books of a leader

A leader keeps one record for each of its peers.  Replies may name any index, come twice or late, or claim
a failure that never was; a record still never points beyond the leader's log, and what is known to match
is never forgotten.  The reason is that an index counts only as far as the log of the leader goes, that
this log only grows while the leader is in office, and that the records go with the office.

* `PeerProgress.Fits` says that a record fits a log, and `Fits.succeed` and `Fits.fail` that replies keep
  it so.
* `Progress.Upholds` says that no match of an earlier view is lost.
* `Replica.Booked` says that the records are those of the peers and fit the log, and `Handles.booked` that
  every event keeps that up.
* `Becomes.upholds`: no match is lost while a leader is in office.
-/

namespace RaftReplica

/-! ## Records -/

namespace PeerProgress

/-- A record that fits a log with that last index: the next entry to send comes after all that is known to
match, and is at most the one behind the log. -/
structure Fits (p : PeerProgress) (lastIndex : Nat) : Prop where
  pos : 1 ≤ p.next
  next_le : p.next ≤ lastIndex + 1
  matched_le : p.matched ≤ lastIndex
  after : saturatingSucc p.matched ≤ p.next

variable {p : PeerProgress} {lastIndex index : Nat}

theorem Fits.initial (lastIndex : Nat) : (initial lastIndex).Fits lastIndex := by
  constructor <;> simp only [PeerProgress.initial, saturatingSucc, wordMax] <;> omega

/-- A record fits all longer logs. -/
theorem Fits.mono (h : p.Fits lastIndex) (hle : lastIndex ≤ index) : p.Fits index :=
  ⟨h.pos, Nat.le_trans h.next_le (Nat.succ_le_succ hle), Nat.le_trans h.matched_le hle, h.after⟩

theorem Fits.succeed (h : p.Fits lastIndex) (hindex : index ≤ lastIndex) :
    (p.succeed index).Fits lastIndex := by
  obtain ⟨hpos, hnext, hmatched, hafter⟩ := h
  constructor <;> simp only [PeerProgress.succeed, saturatingSucc] at * <;> omega

/-- Whatever index a failure names. -/
theorem Fits.fail (h : p.Fits lastIndex) (index : Nat) : (p.fail index).Fits lastIndex := by
  obtain ⟨hpos, hnext, hmatched, hafter⟩ := h
  constructor <;> simp only [PeerProgress.fail, saturatingSucc] at * <;> omega

theorem Fits.matched_lt_next (h : p.Fits lastIndex) (hlast : lastIndex < wordMax) :
    p.matched < p.next := by
  have hmatched := h.matched_le
  have hafter := h.after
  rw [saturatingSucc_of_lt (by omega)] at hafter
  exact hafter

theorem matched_le_succeed (p : PeerProgress) (index : Nat) : p.matched ≤ (p.succeed index).matched :=
  Nat.le_max_left _ _

end PeerProgress

namespace Progress

/-- No match of an earlier view is lost. -/
def Upholds (progress earlier : Progress) : Prop :=
  ∀ name p, earlier.get? name = some p → ∃ p', progress.get? name = some p' ∧ p.matched ≤ p'.matched

theorem Upholds.refl (progress : Progress) : progress.Upholds progress :=
  fun _ p h => ⟨p, h, Nat.le_refl _⟩

theorem Upholds.trans {first second third : Progress} (h : third.Upholds second)
    (h' : second.Upholds first) : third.Upholds first := by
  intro name p hp
  obtain ⟨q, hq, hle⟩ := h' name p hp
  obtain ⟨q', hq', hle'⟩ := h name q hq
  exact ⟨q', hq', Nat.le_trans hle hle'⟩

theorem upholds_succeed (progress : Progress) (peer : String) (index : Nat) :
    (progress.succeed peer index).Upholds progress := by
  intro name p hp
  rw [get?_succeed, hp]
  split
  · exact ⟨_, rfl, p.matched_le_succeed index⟩
  · exact ⟨p, rfl, Nat.le_refl _⟩

theorem upholds_fail (progress : Progress) (peer : String) (index : Nat) :
    (progress.fail peer index).Upholds progress := by
  intro name p hp
  rw [get?_fail, hp]
  split
  · exact ⟨_, rfl, Nat.le_refl _⟩
  · exact ⟨p, rfl, Nat.le_refl _⟩

end Progress

/-! ## One event -/

namespace Replica

/-- The books of a leader are in order: it has the records of its peers, and each of them fits its log. -/
structure Booked (r : Replica) (progress : Progress) : Prop where
  known : ∀ name, progress.contains name = true ↔ name ∈ r.peers.names
  fits : ∀ name p, progress.get? name = some p → p.Fits r.log.lastIndex

variable {r r' : Replica} {event : Event} {progress : Progress}

theorem Booked.start (r : Replica) : r.Booked (Progress.start r.peers.names r.log.lastIndex) := by
  refine ⟨fun name => Progress.contains_start, ?_⟩
  intro name p hp
  rw [Progress.get?_start hp]
  exact .initial _

/-- Books stay in order while the log grows. -/
theorem Booked.mono (h : r.Booked progress) (hpeers : r'.peers = r.peers)
    (hlog : r.log.lastIndex ≤ r'.log.lastIndex) : r'.Booked progress := by
  refine ⟨?_, fun name p hp => (h.fits name p hp).mono hlog⟩
  rw [hpeers]
  exact h.known

/-- A success counts only as far as the leader's log goes. -/
theorem Booked.succeed (h : r.Booked progress) (peer : String) {index : Nat}
    (hindex : index ≤ r.log.lastIndex) : r.Booked (progress.succeed peer index) := by
  refine ⟨fun name => by rw [Progress.contains_succeed, h.known], ?_⟩
  intro name p hp
  rw [Progress.get?_succeed] at hp
  split at hp
  · obtain ⟨before, hbefore, rfl⟩ := Option.map_eq_some_iff.mp hp
    exact (h.fits name before hbefore).succeed hindex
  · exact h.fits name p hp

theorem Booked.fail (h : r.Booked progress) (peer : String) (index : Nat) :
    r.Booked (progress.fail peer index) := by
  refine ⟨fun name => by rw [Progress.contains_fail, h.known], ?_⟩
  intro name p hp
  rw [Progress.get?_fail] at hp
  split at hp
  · obtain ⟨before, hbefore, rfl⟩ := Option.map_eq_some_iff.mp hp
    exact (h.fits name before hbefore).fail index
  · exact h.fits name p hp

/-- **Books that are in order stay so**, and a new leader's are. -/
theorem Handles.booked (h : r.Handles event r')
    (hbefore : r.role = .leader → ∃ progress, r.progress = some progress ∧ r.Booked progress)
    (hleads : r'.role = .leader) : ∃ progress, r'.progress = some progress ∧ r'.Booked progress := by
  have hgrown := (h.change.isPrefix_of_inOffice (Or.inr hleads)).length_le
  rcases h.change.view_cases hleads with
    ⟨hleads', -, hview⟩ | ⟨-, hlog, hview⟩ | ⟨reply, view, -, hleads', -, -, hlog, hbefore', hview⟩
  · obtain ⟨progress, hprogress, hbooked⟩ := hbefore hleads'
    exact ⟨progress, hview.trans hprogress, hbooked.mono h.same.peers hgrown⟩
  · exact ⟨_, hview, (Booked.start r).mono h.same.peers hgrown⟩
  · obtain ⟨progress, hprogress, hbooked⟩ := hbefore hleads'
    obtain rfl : progress = view := Option.some.inj (hprogress.symm.trans hbefore')
    refine ⟨_, hview, Booked.mono ?_ h.same.peers hgrown⟩
    split
    · exact hbooked.succeed _ (Nat.min_le_right _ _)
    · exact hbooked.fail _ _

/-- No event makes a leader lose a match while it is in office in its term. -/
theorem Handles.upholds (h : r.Handles event r') (hleads : r.role = .leader) (hoffice : r'.InOffice)
    (hterm : r'.term = r.term) (hprogress : r.progress = some progress) :
    r'.role = .leader ∧ ∃ after, r'.progress = some after ∧ after.Upholds progress := by
  have hleads' := h.change.leads_of_inOffice hleads hoffice hterm
  refine ⟨hleads', ?_⟩
  rcases h.change.view_cases hleads' with
    ⟨-, -, hview⟩ | ⟨hlater, -, -⟩ | ⟨reply, view, -, -, -, -, -, hbefore, hview⟩
  · exact ⟨progress, hview.trans hprogress, .refl progress⟩
  · have hlater' := hlater hleads
    omega
  · obtain rfl : progress = view := Option.some.inj (hprogress.symm.trans hbefore)
    refine ⟨_, hview, ?_⟩
    split
    · exact progress.upholds_succeed _ _
    · exact progress.upholds_fail _ _

/-- **No match is lost while a leader is in office in its term.** -/
theorem Becomes.upholds {s : Replica} (h : r.Becomes s) (hleads : r.role = .leader)
    (hoffice : s.InOffice) (hterm : s.term = r.term) (hprogress : r.progress = some progress) :
    s.role = .leader ∧ ∃ after, s.progress = some after ∧ after.Upholds progress := by
  induction h with
  | refl => exact ⟨hleads, progress, hprogress, .refl progress⟩
  | handle before handles ih =>
    -- the leader has been in office in its term all the time in between
    have hfirst := before.term_le
    have hlast := handles.change.term_le
    have hoffice' := handles.change.inOffice_of_term_eq hoffice (by omega)
    obtain ⟨hleads', between, hbetween, hupholds⟩ := ih hoffice' (by omega)
    obtain ⟨hleads'', after, hafter, hupholds'⟩ :=
      handles.upholds hleads' hoffice (by omega) hbetween
    exact ⟨hleads'', after, hafter, hupholds'.trans hupholds⟩

/-- With two peers a leader may commit what the one further ahead is known to match. -/
theorem majorityIndex?_of_two {a b : Nat} (h : r.progress.map Progress.matched = some [a, b]) :
    r.majorityIndex? = some (max a b) := by
  obtain ⟨progress, hprogress, hmatched⟩ := Option.map_eq_some_iff.mp h
  simp [majorityIndex?, hprogress, hmatched, Progress.clusterCommitIndex_two]

/-- With books in order there is a request for every group of peers. -/
theorem Booked.exists_appendRequest? (h : r.Booked progress) {group : Nat × List String}
    (hgroup : group ∈ progress.groups) :
    1 ≤ group.1 ∧ ∃ request, r.appendRequest? group.1 = some request := by
  obtain ⟨name, p, hp, hnext⟩ := Progress.exists_of_mem_groups hgroup
  have hfits := h.fits name p hp
  have hpos := hfits.pos
  have hbound := hfits.next_le
  rw [hnext] at hpos hbound
  have hprev : group.1 - 1 ≤ r.log.lastIndex := by omega
  obtain ⟨term, hterm⟩ := Log.exists_termAt?_of_le hprev
  exact ⟨hpos, _, by rw [appendRequest?, hterm, Option.map_some]⟩

end Replica

/-! ## A whole life -/

namespace Life

variable (life : Life)

theorem booked {k : Nat} (hleads : (life.state k).role = .leader) :
    ∃ progress, (life.state k).progress = some progress ∧ (life.state k).Booked progress := by
  induction k with
  | zero =>
    rw [life.fresh.role] at hleads
    cases hleads
  | succ k ih => exact (life.handles k).booked ih hleads

/-- **A leader keeps its books**, whatever replies it is sent.  It has exactly one record for every name
among its peers.  In each of them the next entry to send is at most the one behind the log, and what is
known to match lies within the log and before that entry.  (The last holds as long as the log is shorter
than the largest word, where counting stops; no memory holds a log that is not.)  So every group of peers
waits for an index of one or more that the log reaches up to, and a request goes out to it.  And no match
that was known earlier in this term of office is lost. -/
theorem leader_bookkeeping (life : Life) {k : Nat} (hleads : (life.state k).role = .leader) :
    ∃ progress, (life.state k).progress = some progress ∧
      (progress.records.map (·.1)).Perm (life.state k).peers.names.dedup ∧
      (∀ name p, (name, p) ∈ progress.records →
        1 ≤ p.next ∧ p.next ≤ (life.state k).log.lastIndex + 1 ∧
          p.matched ≤ (life.state k).log.lastIndex ∧
          ((life.state k).log.lastIndex < wordMax → p.matched < p.next)) ∧
      (∀ group ∈ progress.groups,
        1 ≤ group.1 ∧ ∃ request, (life.state k).appendRequest? group.1 = some request) ∧
      ∀ j ≤ k, (life.state j).role = .leader → (life.state j).term = (life.state k).term →
        ∀ earlier, (life.state j).progress = some earlier →
          ∀ name p, earlier.get? name = some p →
            ∃ p', progress.get? name = some p' ∧ p.matched ≤ p'.matched := by
  obtain ⟨progress, hprogress, hbooked⟩ := life.booked hleads
  refine ⟨progress, hprogress, ?_, ?_, fun group => hbooked.exists_appendRequest?, ?_⟩
  · rw [List.perm_ext_iff_of_nodup progress.nodup_names_records (List.nodup_dedup _)]
    intro name
    rw [Progress.mem_names_records, hbooked.known, List.mem_dedup]
  · intro name p hrecord
    have hfits := hbooked.fits name p (Progress.mem_records.mp hrecord)
    exact ⟨hfits.pos, hfits.next_le, hfits.matched_le, hfits.matched_lt_next⟩
  · intro j hjk hleads' hterm earlier hearlier
    obtain ⟨-, after, hafter, hupholds⟩ :=
      (life.becomes hjk).upholds hleads' (Or.inr hleads) hterm.symm hearlier
    obtain rfl : progress = after := Option.some.inj (hprogress.symm.trans hafter)
    exact hupholds

/-- `a` leads and has two entries in its log when it is told, in the name of its peer, that the peer holds
all that a word can count, then that it holds nothing, then something of an earlier term; and a stranger
replies as well. -/
def misled : Life := sample [
  .electionTimeout,
  .voteReply ⟨"b", 1, true⟩,
  .aggregatedWriteAhead [⟨[1], none⟩, ⟨[2], none⟩],
  .appendReply ⟨"b", 1, true, wordMax, 0⟩,
  .appendReply ⟨"b", 1, false, 0, 0⟩,
  .appendReply ⟨"b", 0, true, 1, 0⟩,
  .appendReply ⟨"x", 1, true, 1, 0⟩]

/-- In the end the books are what they were after the first reply: the peer is known to match the whole log
and waits for the entry behind it. -/
theorem leader_bookkeeping_misled :
    (misled.state 7).role = .leader ∧ (misled.state 7).log.lastIndex = 2 ∧
      ∃ earlier progress, (misled.state 4).progress = some earlier ∧
        earlier.get? "b" = some ⟨3, 2⟩ ∧ (misled.state 7).progress = some progress ∧
          (∀ name p, (name, p) ∈ progress.records → p.matched < p.next ∧ p.next ≤ 3) ∧
            ∃ p, progress.get? "b" = some p ∧ 2 ≤ p.matched := by
  have hleads : (misled.state 7).role = .leader := by decide +kernel
  have hleads' : (misled.state 4).role = .leader := by decide +kernel
  have hterm : (misled.state 4).term = (misled.state 7).term := by decide +kernel
  have hlast : (misled.state 7).log.lastIndex = 2 := by decide +kernel
  have hknown : ((misled.state 4).progress.bind (·.get? "b")) = some ⟨3, 2⟩ := by decide +kernel
  obtain ⟨earlier, hearlier, hb⟩ := Option.bind_eq_some_iff.mp hknown
  obtain ⟨progress, hprogress, -, hrecords, -, hupheld⟩ := leader_bookkeeping misled hleads
  refine ⟨hleads, hlast, earlier, progress, hearlier, hb, hprogress, ?_, ?_⟩
  · intro name p hrecord
    obtain ⟨-, hnext, -, hlt⟩ := hrecords name p hrecord
    rw [hlast] at hnext hlt
    exact ⟨hlt (by decide), hnext⟩
  · exact hupheld 4 (by omega) hleads' hterm earlier hearlier "b" _ hb

end Life

end RaftReplica
