import RaftReplica.Proofs.Replica.Change

/-!
# Terms, votes and offices

What the cases of `Change` say of single aspects of a replica.

* Terms never fall (`term_le`), and a vote stands for its whole term (`votedFor_eq`).
* A vote is for oneself or for a candidate whose log is at least as up to date (`vote_cases`).
* A candidate or leader has entered its office in its term (`inOffice_of_term_eq`), has its own vote
  (`votedFor_of_inOffice`), and has only added to its log (`isPrefix_of_inOffice`).
* A leader stays leader in its term (`leads_of_inOffice`), and its view of its peers begins with its office
  and changes with the replies of its term only (`view_cases`).
* A log changes by a leader's appending and by a follower's merging only (`log_cases`), and its entries
  carry their own indexes (`indexed`).
-/

namespace RaftReplica

namespace Replica

/-- A replica in office stands for election or leads. -/
def InOffice (r : Replica) : Prop := r.role = .candidate ∨ r.role = .leader

namespace Change

variable {r r' : Replica} {event : Event}

/-- Terms never fall. -/
theorem term_le (h : r.Change event r') : r.term ≤ r'.term := by
  cases h <;> omega

/-- As long as the term lasts, so does the vote. -/
theorem votedFor_eq (h : r.Change event r') (hterm : r'.term = r.term) {candidate : String}
    (hvote : r.votedFor = some candidate) : r'.votedFor = some candidate := by
  cases h with
  | rest _ _ vote | write _ _ _ vote | count _ _ _ _ _ _ _ vote | win _ _ _ _ _ _ _ vote
  | note _ _ _ _ _ vote => rw [vote, hvote]
  | follow later => omega
  | stand _ _ term | standInVain _ _ term | winAlone _ _ _ term => omega
  | grant unvoted _ _ _ term vote =>
    rcases unvoted with hlater | ⟨-, hnone | hsame⟩
    · omega
    · rw [hvote] at hnone
      cases hnone
    · rw [vote, ← hsame, hvote]
  | accept _ _ _ term vote | refuse _ _ term vote => rw [vote, if_neg (by omega), hvote]

/-- Where a vote comes from: it was there in the same term, it is one's own, or it is granted to a
candidate whose log covers one's own. -/
theorem vote_cases (h : r.Change event r') {candidate : String}
    (hvote : r'.votedFor = some candidate) :
    (r'.term = r.term ∧ r.votedFor = some candidate) ∨ candidate = r.name ∨
      ∃ request ticket, event = .voteRequest request ticket ∧ request.candidate = candidate ∧
        request.term = r'.term ∧
        r.log.coveredBy request.lastLogTerm request.lastLogIndex = true := by
  cases h with
  | rest _ term vote | write _ _ term vote | count _ _ _ _ _ _ term vote
  | win _ _ _ _ _ _ term vote | note _ _ _ _ term vote => exact Or.inl ⟨term, vote ▸ hvote⟩
  | follow _ _ vote =>
    rw [vote] at hvote
    cases hvote
  | stand _ _ _ vote | standInVain _ _ _ vote | winAlone _ _ _ _ vote =>
    rw [vote] at hvote
    exact Or.inr (Or.inl (Option.some.inj hvote).symm)
  | @grant request ticket _ _ _ covered _ term vote =>
    rw [vote] at hvote
    exact Or.inr (Or.inr ⟨request, ticket, rfl, Option.some.inj hvote, term.symm, covered⟩)
  | accept valid _ _ term vote | refuse valid _ term vote =>
    left
    rw [vote] at hvote
    split at hvote
    · cases hvote
    · exact ⟨by omega, hvote⟩

/-- Within its term a candidate or leader has been in office before. -/
theorem inOffice_of_term_eq (h : r.Change event r') (hoffice : r'.InOffice)
    (hterm : r'.term = r.term) : r.InOffice := by
  cases h with
  | rest role | write _ role | note _ _ _ role | standInVain role =>
    exact hoffice.imp (role ▸ ·) (role ▸ ·)
  | count stands | win stands => exact Or.inl stands
  | stand _ _ term | winAlone _ _ _ term => omega
  | grant _ _ _ role =>
    rcases role with hrole | ⟨hrole, -⟩
    · rcases hoffice with h | h <;> rw [hrole] at h <;> cases h
    · exact hoffice.imp (hrole ▸ ·) (hrole ▸ ·)
  | follow _ role | accept _ _ role | refuse _ role =>
    rcases hoffice with h | h <;> rw [role] at h <;> cases h

/-- Whoever is in office has its own vote. -/
theorem votedFor_of_inOffice (h : r.Change event r')
    (hbefore : r.InOffice → r.votedFor = some r.name) (hoffice : r'.InOffice) :
    r'.votedFor = some r.name := by
  by_cases hterm : r'.term = r.term
  · exact h.votedFor_eq hterm (hbefore (h.inOffice_of_term_eq hoffice hterm))
  · cases h with
    | rest _ term | write _ _ term | count _ _ _ _ _ _ term | win _ _ _ _ _ _ term
    | note _ _ _ _ term => exact absurd term hterm
    | stand _ _ _ vote | standInVain _ _ _ vote | winAlone _ _ _ _ vote => exact vote
    | grant _ _ _ role =>
      rcases role with hrole | ⟨-, heq, -⟩
      · rcases hoffice with h | h <;> rw [hrole] at h <;> cases h
      · exact absurd heq hterm
    | follow _ role | accept _ _ role | refuse _ role =>
      rcases hoffice with h | h <;> rw [role] at h <;> cases h

/-- Whoever is in office has kept all of its log. -/
theorem isPrefix_of_inOffice (h : r.Change event r') (hoffice : r'.InOffice) :
    r.log.entries <+: r'.log.entries := by
  cases h with
  | write _ _ _ _ log => exact log ▸ r.log.isPrefix_appendAll _ _
  | accept _ _ role => rcases hoffice with h | h <;> rw [role] at h <;> cases h
  | rest _ _ _ log | follow _ _ _ log | grant _ _ _ _ _ _ log | stand _ _ _ _ log
  | standInVain _ _ _ _ log | count _ _ _ _ _ _ _ _ log | win _ _ _ _ _ _ _ _ log
  | winAlone _ _ _ _ _ log | refuse _ _ _ _ log | note _ _ _ _ _ _ log =>
    exact log ▸ List.prefix_rfl

/-- Whoever leads does so for as long as it is in office in its term. -/
theorem leads_of_inOffice (h : r.Change event r') (hleads : r.role = .leader)
    (hoffice : r'.InOffice) (hterm : r'.term = r.term) : r'.role = .leader := by
  cases h with
  | rest role | write _ role | note _ _ _ role | standInVain role => exact role.trans hleads
  | count stands | win stands =>
    rw [stands] at hleads
    cases hleads
  | stand _ _ term | winAlone _ _ _ term => omega
  | grant _ _ _ role =>
    rcases role with hrole | ⟨hrole, -⟩
    · rcases hoffice with h | h <;> rw [hrole] at h <;> cases h
    · exact hrole.trans hleads
  | follow _ role | accept _ _ role | refuse _ role =>
    rcases hoffice with h | h <;> rw [role] at h <;> cases h

/-- A leader's view of its peers is the one that it had, or a fresh one with which it enters its office, or
one in which it has noted a reply of its term. -/
theorem view_cases (h : r.Change event r') (hleads : r'.role = .leader) :
    (r.role = .leader ∧ r'.term = r.term ∧ r'.progress = r.progress) ∨
      ((r.role = .leader → r.term < r'.term) ∧ r'.log = r.log ∧
        r'.progress = some (Progress.start r.peers.names r.log.lastIndex)) ∨
      ∃ reply before, event = .appendReply reply ∧ r.role = .leader ∧ reply.term = r.term ∧
        r'.term = r.term ∧ r'.log = r.log ∧ r.progress = some before ∧
        r'.progress = some (
          if reply.success then before.succeed reply.remote (min reply.index r.log.lastIndex)
          else before.fail reply.remote (min reply.index r.log.lastIndex)) := by
  cases h with
  | rest role term _ _ _ progress => exact Or.inl ⟨role ▸ hleads, term, progress⟩
  | write leads _ term _ _ progress => exact Or.inl ⟨leads, term, progress⟩
  | grant _ _ _ role =>
    rcases role with hrole | ⟨hrole, hterm, -, hprogress⟩
    · rw [hrole] at hleads
      cases hleads
    · exact Or.inl ⟨hrole ▸ hleads, hterm, hprogress⟩
  | win stands _ _ _ _ _ _ _ log progress =>
    refine Or.inr (Or.inl ⟨?_, log, progress⟩)
    intro hleads'
    rw [stands] at hleads'
    cases hleads'
  | winAlone _ _ _ term _ log progress =>
    refine Or.inr (Or.inl ⟨fun _ => ?_, log, progress⟩)
    omega
  | @note reply before _ leads present view _ term _ log progress =>
    exact Or.inr (Or.inr ⟨reply, before, rfl, leads, present, term, log, view, progress⟩)
  | standInVain role idle => exact absurd (role ▸ hleads) idle
  | count stands _ _ _ _ role =>
    rw [role, stands] at hleads
    cases hleads
  | follow _ role | stand _ role | accept _ _ role | refuse _ role =>
    rw [role] at hleads
    cases hleads

/-- A log is left alone, or a leader appends to it in its own term, or a follower merges what is shipped
to it in a valid term. -/
theorem log_cases (h : r.Change event r') :
    r'.log = r.log ∨
      (r.role = .leader ∧ r'.role = .leader ∧ r'.term = r.term ∧
        ∃ batch, r'.log = r.log.appendAll r.term batch) ∨
      ∃ request ticket, event = .appendRequest request ticket ∧ r.term ≤ request.term ∧
        r'.term = request.term ∧
        r.log.termAt? request.prevLogIndex = some request.prevLogTerm ∧
        r'.log = (r.log.merge request.prevLogIndex request.entries).2 := by
  cases h with
  | write leads role term _ log => exact Or.inr (Or.inl ⟨leads, role.trans leads, term, _, log⟩)
  | accept valid agrees _ term _ log =>
    exact Or.inr (Or.inr ⟨_, _, rfl, valid, term, agrees, log⟩)
  | rest _ _ _ log | follow _ _ _ log | grant _ _ _ _ _ _ log | stand _ _ _ _ log
  | standInVain _ _ _ _ log | count _ _ _ _ _ _ _ _ log | win _ _ _ _ _ _ _ _ log
  | winAlone _ _ _ _ _ log | refuse _ _ _ _ log | note _ _ _ _ _ _ log => exact Or.inl log

/-- Whatever is appended or merged, every entry carries the index at which it stands. -/
theorem indexed (h : r.Change event r') (hindexed : r.log.Indexed) : r'.log.Indexed := by
  rcases h.log_cases with hlog | ⟨-, -, -, batch, hlog⟩ | ⟨request, -, -, -, -, hagrees, hlog⟩
  · exact hlog ▸ hindexed
  · exact hlog ▸ hindexed.appendAll r.term batch
  · have hprevious := Log.le_length_of_termAt? hagrees
    exact hlog ▸ hindexed.merge hprevious request.entries

end Change

end Replica

end RaftReplica
