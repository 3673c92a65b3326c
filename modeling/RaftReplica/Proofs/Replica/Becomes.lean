import RaftReplica.Proofs.Replica.Office

/-!
# What becomes of a replica

A replica handles one event after the other, and each of them makes of it what `Change` allows.  So
whatever all such changes keep holds between any two states of a replica, whoever sends it what and in
which order.  This is what a member of a cluster and a replica among strangers have in common.

* `Becomes` says that one state comes of another by the events handled in between.
* `sameMember`, `term_le` and `votedFor_eq` carry on who the replica is, its term and its vote.
* `isPrefix_of_inOffice`: whoever is in office has only added to its log in its term.
* `indexed` and `votedFor_of_inOffice` hold of every state if they hold of the first.
* `Replica.vote_unique`: two states of one replica in one term do not vote for different candidates.
-/

namespace RaftReplica

namespace Replica

theorem SameMember.trans {r s s' : Replica} (h : r.SameMember s) (h' : s.SameMember s') :
    r.SameMember s' :=
  ⟨h'.name.trans h.name, h'.quorum.trans h.quorum, h'.peers.trans h.peers⟩

/-- What becomes of a replica by any number of events. -/
inductive Becomes (r : Replica) : Replica → Prop
  | refl : Becomes r r
  | handle {s s' : Replica} {event : Event} (before : Becomes r s) (handles : s.Handles event s') :
      Becomes r s'

namespace Becomes

variable {r s : Replica}

theorem sameMember (h : r.Becomes s) : r.SameMember s := by
  induction h with
  | refl => exact .refl r
  | handle before handles ih => exact ih.trans handles.same

/-- Terms never fall. -/
theorem term_le (h : r.Becomes s) : r.term ≤ s.term := by
  induction h with
  | refl => exact Nat.le_refl _
  | handle before handles ih => exact Nat.le_trans ih handles.change.term_le

/-- A vote stands for the whole term. -/
theorem votedFor_eq (h : r.Becomes s) (hterm : s.term = r.term) {candidate : String}
    (hvote : r.votedFor = some candidate) : s.votedFor = some candidate := by
  induction h with
  | refl => exact hvote
  | handle before handles ih =>
    -- the term has been the same all the time in between
    have hfirst := before.term_le
    have hlast := handles.change.term_le
    have hbefore := ih (by omega)
    exact handles.change.votedFor_eq (by omega) hbefore

/-- Whoever is in office has only added to its log since an earlier state of the same term. -/
theorem isPrefix_of_inOffice (h : r.Becomes s) (hterm : s.term = r.term) (hoffice : s.InOffice) :
    r.log.entries <+: s.log.entries := by
  induction h with
  | refl => exact List.prefix_rfl
  | handle before handles ih =>
    have hfirst := before.term_le
    have hlast := handles.change.term_le
    have hoffice' := handles.change.inOffice_of_term_eq hoffice (by omega)
    exact (ih (by omega) hoffice').trans (handles.change.isPrefix_of_inOffice hoffice)

/-- Whoever is in office has its own vote. -/
theorem votedFor_of_inOffice (h : r.Becomes s) (hfirst : r.InOffice → r.votedFor = some r.name)
    (hoffice : s.InOffice) : s.votedFor = some r.name := by
  induction h with
  | refl => exact hfirst hoffice
  | handle before handles ih =>
    have hname := before.sameMember.name
    rw [← hname] at ih ⊢
    exact handles.change.votedFor_of_inOffice ih hoffice

/-- Every entry carries the index at which it stands. -/
theorem indexed (h : r.Becomes s) (hindexed : r.log.Indexed) : s.log.Indexed := by
  induction h with
  | refl => exact hindexed
  | handle before handles ih => exact handles.change.indexed ih

end Becomes

/-- In one term a replica votes for one candidate only. -/
theorem vote_unique {r s : Replica} (h : r.Becomes s ∨ s.Becomes r) (hterm : r.term = s.term)
    {candidate other : String} (hvote : r.votedFor = some candidate)
    (hvote' : s.votedFor = some other) : candidate = other := by
  rcases h with h | h
  · have hkept := h.votedFor_eq hterm.symm hvote
    exact Option.some.inj (hkept.symm.trans hvote')
  · have hkept := h.votedFor_eq hterm hvote'
    exact Option.some.inj (hvote.symm.trans hkept)

end Replica

end RaftReplica
