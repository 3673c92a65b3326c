import RaftReplica.Proofs.Arithmetic.Election
import RaftReplica.Proofs.Quorum.CommitIndex

/-!
# Tallies over whole elections

Anybody may call for a vote: members, strangers, and members who have voted already.  Whatever is called for
and in whatever order, an election counts each member once and nobody else, and it says that it has passed
from the vote on that makes the majority.

* `vote_cases` is everything that one call can come to.
* `mem_voters_poll` says who has voted after a run of calls, and `ballots_poll` how many.
* `voted_iff` turns that into calls: a member has voted if one of the calls for it has succeeded.
* `exists_passing` finds the call with which a passed election has passed.
* `Tally` keeps a flag for each member and counts in sixteen bits.  `Tally.Keeps.poll` says that it stays in
  step with the election, so that its count never leaves its word.
* `election_exact` is the result about whole elections.
-/

namespace RaftReplica

namespace Election

variable {e after : Election} {name voter : String} {calls more : List String} {said : Bool}

/-! ## One call -/

/-- A stranger's vote is refused, and so is a second one.  Otherwise one more member has voted. -/
theorem vote_cases (e : Election) (name : String) :
    (name ∉ e.members ∧ e.vote name = .error (.notAMember name)) ∨
    (name ∈ e.members ∧ name ∈ e.voters ∧ e.vote name = .error (.alreadyVoted name)) ∨
    (name ∈ e.members ∧ name ∉ e.voters ∧ ∃ after : Election,
      after = { e with voters := e.voters.insert name } ∧ e.vote name = .ok (after.passed, after)) := by
  rw [← Std.TreeSet.contains_iff_mem, ← Std.TreeSet.contains_iff_mem]
  unfold vote
  cases hmember : e.members.contains name with
  | false => exact Or.inl ⟨Bool.false_ne_true, rfl⟩
  | true =>
    cases hvoted : e.voters.contains name with
    | true => exact Or.inr (Or.inl ⟨rfl, rfl, rfl⟩)
    | false => exact Or.inr (Or.inr ⟨rfl, Bool.false_ne_true, _, rfl, rfl⟩)

theorem vote_eq_notAMember_iff : e.vote name = .error (.notAMember name) ↔ name ∉ e.members := by
  rcases e.vote_cases name with ⟨hmember, hvote⟩ | ⟨hmember, -, hvote⟩ | ⟨hmember, -, after, -, hvote⟩ <;>
    simp [hvote, hmember]

theorem vote_eq_alreadyVoted_iff :
    e.vote name = .error (.alreadyVoted name) ↔ name ∈ e.members ∧ name ∈ e.voters := by
  rcases e.vote_cases name with ⟨hmember, hvote⟩ | ⟨hmember, hvoted, hvote⟩ | ⟨-, hvoted, after, -, hvote⟩
  · simp [hvote, hmember]
  · simp [hvote, hmember, hvoted]
  · simp [hvote, hvoted]

/-- There is no other reason to refuse a vote. -/
theorem vote_error {cause : VoteError} (h : e.vote name = .error cause) :
    cause = .notAMember name ∨ cause = .alreadyVoted name := by
  rcases e.vote_cases name with ⟨-, hvote⟩ | ⟨-, -, hvote⟩ | ⟨-, -, after, -, hvote⟩
  · exact Or.inl (Except.error.inj (h.symm.trans hvote))
  · exact Or.inr (Except.error.inj (h.symm.trans hvote))
  · rw [hvote] at h
    cases h

/-- The first vote of a member counts. -/
theorem vote_eq_ok_iff : e.vote name = .ok (said, after) ↔ name ∈ e.members ∧ name ∉ e.voters ∧
    after = { e with voters := e.voters.insert name } ∧ said = after.passed := by
  rcases e.vote_cases name with ⟨hmember, hvote⟩ | ⟨-, hvoted, hvote⟩ | ⟨hmember, hfree, _, rfl, hvote⟩
  · simp [hvote, hmember]
  · simp [hvote, hvoted]
  · rw [hvote, Except.ok.injEq, Prod.mk.injEq]
    constructor
    · rintro ⟨rfl, rfl⟩
      exact ⟨hmember, hfree, rfl, rfl⟩
    · rintro ⟨-, -, rfl, rfl⟩
      exact ⟨rfl, rfl⟩

/-- A vote that counts is one ballot more. -/
theorem ballots_vote (h : e.vote name = .ok (said, after)) : after.ballots = e.ballots + 1 := by
  obtain ⟨-, hfree, rfl, -⟩ := vote_eq_ok_iff.mp h
  show (e.voters.insert name).size = e.voters.size + 1
  rw [Std.TreeSet.size_insert, if_neg (mt Std.TreeSet.contains_iff_mem.mp hfree)]

theorem passed_iff : e.passed = true ↔ e.majority ≤ e.ballots := decide_eq_true_iff

theorem majority_vote (h : e.vote name = .ok (said, after)) : after.majority = e.majority := by
  rw [majority, majority, (vote_ok h).2.1]

/-! ## Whole runs of calls -/

theorem poll_append (e : Election) (calls more : List String) :
    e.poll (calls ++ more) = (e.poll calls).poll more := by
  induction calls generalizing e with
  | nil => rfl
  | cons name rest ih =>
    rw [List.cons_append, poll, poll]
    cases e.vote name with
    | ok counted => exact ih counted.2
    | error cause => exact ih e

theorem poll_singleton_of_ok (h : e.vote name = .ok (said, after)) : e.poll [name] = after := by
  rw [poll, h]
  rfl

theorem poll_singleton_of_error {cause : VoteError} (h : e.vote name = .error cause) :
    e.poll [name] = e := by
  rw [poll, h]
  rfl

/-- To prove something of every run of calls: it holds of the empty one, and it is kept by a call that
succeeds.  A call that fails leaves the election as it is. -/
theorem poll_induction {motive : Election → Prop} (start : motive e)
    (vote : ∀ {now after : Election} {name : String} {said : Bool}, motive now →
      now.vote name = .ok (said, after) → motive after) (calls : List String) :
    motive (e.poll calls) := by
  induction calls generalizing e with
  | nil => exact start
  | cons name rest ih =>
    rw [poll]
    cases hvote : e.vote name with
    | ok counted => exact ih (vote start hvote)
    | error cause => exact ih start

@[simp]
theorem members_poll (e : Election) (calls : List String) : (e.poll calls).members = e.members :=
  poll_induction (motive := fun now => now.members = e.members) rfl
    (fun hnow hvote => (vote_ok hvote).2.1.trans hnow) calls

@[simp]
theorem majority_poll (e : Election) (calls : List String) : (e.poll calls).majority = e.majority := by
  rw [majority, majority, members_poll]

theorem ballots_le_poll (e : Election) (calls : List String) : e.ballots ≤ (e.poll calls).ballots := by
  refine poll_induction (motive := fun now => e.ballots ≤ now.ballots) (Nat.le_refl _) ?_ calls
  intro now after name said hle hvote
  rw [ballots_vote hvote]
  omega

/-- Those who have voted after a run of calls: whoever had voted before, and the members that were called. -/
theorem mem_voters_poll :
    voter ∈ (e.poll calls).voters ↔ voter ∈ e.voters ∨ voter ∈ e.members ∧ voter ∈ calls := by
  induction calls generalizing e with
  | nil => simp [poll]
  | cons name rest ih =>
    rw [poll, List.mem_cons]
    rcases e.vote_cases name with ⟨hstranger, hvote⟩ | ⟨-, hvoted, hvote⟩ | ⟨hmember, -, after, -, hvote⟩
    · rw [hvote]
      refine ih.trans (or_congr_right (and_congr_right fun hvoter => ?_))
      have hother : voter ≠ name := fun heq => hstranger (heq ▸ hvoter)
      exact (or_iff_right hother).symm
    · rw [hvote]
      refine ih.trans ?_
      by_cases heq : voter = name
      · simp [heq, hvoted]
      · simp [heq]
    · rw [hvote]
      obtain ⟨-, hmembers, -, hvoters⟩ := vote_ok hvote
      refine ih.trans ?_
      rw [hmembers, hvoters voter]
      by_cases heq : voter = name
      · simp [heq, hmember]
      · simp [heq]

/-! ## An election from the start -/

section Called

variable {q : Quorum} (hcalled : q.election = .ok e)
include hcalled

theorem mem_voters_called : voter ∈ (e.poll calls).voters ↔ voter ∈ q.hosts ∧ voter ∈ calls := by
  obtain ⟨hmembers, hnobody⟩ := Quorum.election_ok hcalled
  rw [mem_voters_poll, hmembers]
  exact or_iff_right (hnobody voter)

/-- After each call there are as many ballots as different members have been called. -/
theorem ballots_poll (calls : List String) :
    (e.poll calls).ballots = (calls.toFinset.filter fun name => q.contains name = true).card := by
  have hnodup := (e.poll calls).voters.nodup_toList
  rw [ballots, ← Std.TreeSet.length_toList, ← List.toFinset_card_of_nodup hnodup]
  congr 1
  ext voter
  rw [List.mem_toFinset, Std.TreeSet.mem_toList, mem_voters_called hcalled, Finset.mem_filter,
    List.mem_toFinset, Quorum.contains, Std.TreeSet.contains_iff_mem, and_comm]

end Called

/-- One of the calls for this name has succeeded. -/
def Voted (e : Election) (calls : List String) (name : String) : Prop :=
  ∃ before rest said after, calls = before ++ name :: rest ∧ (e.poll before).vote name = .ok (said, after)

/-- Those who have voted are those with a call that has succeeded. -/
theorem voted_iff {q : Quorum} (hcalled : q.election = .ok e) :
    e.Voted calls name ↔ name ∈ (e.poll calls).voters := by
  rw [mem_voters_called hcalled]
  obtain ⟨hmembers, -⟩ := Quorum.election_ok hcalled
  constructor
  · rintro ⟨before, rest, said, after, rfl, hvote⟩
    have hmember := (vote_ok hvote).2.2.1
    rw [members_poll, hmembers] at hmember
    exact ⟨hmember, by simp⟩
  · rintro ⟨hmember, hcall⟩
    -- the first call for a member is the one that succeeds
    obtain ⟨before, rest, hcalls, hfirst⟩ := List.eq_append_cons_of_mem hcall
    rcases (e.poll before).vote_cases name with ⟨hstranger, -⟩ | ⟨-, hvoted, -⟩ | ⟨-, -, after, -, hvote⟩
    · rw [members_poll, hmembers] at hstranger
      exact absurd hmember hstranger
    · exact absurd ((mem_voters_called hcalled).mp hvoted).2 hfirst
    · exact ⟨before, rest, _, after, hcalls, hvote⟩

/-- If an election passes in a run of calls, there is the call with which it has passed. -/
theorem exists_passing (hopen : e.passed = false) (hpassed : (e.poll calls).passed = true) :
    ∃ before name rest after, calls = before ++ name :: rest ∧
      (e.poll before).vote name = .ok (true, after) := by
  induction calls generalizing e with
  | nil =>
    rw [poll, hopen] at hpassed
    cases hpassed
  | cons name rest ih =>
    rw [poll] at hpassed
    cases hvote : e.vote name with
    | error cause =>
      rw [hvote] at hpassed
      obtain ⟨before, other, rest', after, rfl, hpassing⟩ := ih hopen hpassed
      refine ⟨name :: before, other, rest', after, rfl, ?_⟩
      rw [poll, hvote]
      exact hpassing
    | ok counted =>
      obtain ⟨said, after⟩ := counted
      rw [hvote] at hpassed
      cases hnow : said with
      | true => exact ⟨[], name, rest, after, rfl, hnow ▸ hvote⟩
      | false =>
        have hstill : after.passed = false := (vote_ok hvote).1.symm.trans hnow
        obtain ⟨before, other, rest', after', rfl, hpassing⟩ := ih hstill hpassed
        refine ⟨name :: before, other, rest', after', rfl, ?_⟩
        rw [poll, hvote]
        exact hpassing

/-- Of all calls, the one with which the election passes is the first that says so. -/
theorem first_true_iff (hopen : e.passed = false) (hvote : (e.poll calls).vote name = .ok (true, after)) :
    (∀ before earlier rest counted, calls = before ++ earlier :: rest →
      (e.poll before).vote earlier ≠ .ok (true, counted)) ↔ after.ballots = e.majority := by
  have hcounted := ballots_vote hvote
  have hreached : e.majority ≤ after.ballots := by
    have hpassed := passed_iff.mp (vote_ok hvote).1.symm
    rwa [majority_vote hvote, majority_poll] at hpassed
  constructor
  · intro hfirst
    have hbelow : ¬ e.majority ≤ (e.poll calls).ballots := by
      intro hbefore
      have hpassed : (e.poll calls).passed = true := passed_iff.mpr (by rwa [majority_poll])
      obtain ⟨before, earlier, rest, counted, hcalls, hpassing⟩ := exists_passing hopen hpassed
      exact hfirst before earlier rest counted hcalls hpassing
    omega
  · rintro hexact before earlier rest counted rfl hpassing
    -- that call would have made the majority already, and ballots only grow
    have hthen : e.majority ≤ counted.ballots := by
      have hpassed := passed_iff.mp (vote_ok hpassing).1.symm
      rwa [majority_vote hpassing, majority_poll] at hpassed
    have hsince : counted.ballots ≤ (e.poll (before ++ earlier :: rest)).ballots := by
      rw [poll_append, poll, hpassing]
      exact ballots_le_poll counted rest
    omega

/-- Once a vote has said that the election has passed, every vote that counts says so. -/
theorem stays_passed (hvote : e.vote name = .ok (true, after)) {other : String} {later : Election}
    (hlater : (after.poll more).vote other = .ok (said, later)) : said = true := by
  have hpassed := passed_iff.mp (vote_ok hvote).1.symm
  have hgrown := ballots_le_poll after more
  have hcounted := ballots_vote hlater
  have hmajority : later.majority = after.majority := by rw [majority_vote hlater, majority_poll]
  rw [(vote_ok hlater).1]
  apply passed_iff.mpr
  omega

/-! ## Flags and a count -/

namespace Tally

variable {t : Tally}

/-- The tally after a run of calls. -/
def poll (t : Tally) (calls : List String) : Tally := calls.foldl (fun t name => (t.vote name).2) t

/-- A tally that is in step with an election. -/
structure Keeps (t : Tally) (e : Election) : Prop where
  size : t.flags.size = e.members.size
  flags : ∀ name, t.flags[name]? = if name ∈ e.members then some (decide (name ∈ e.voters)) else none
  ballots : t.ballots.toNat = e.ballots

theorem keeps_called {q : Quorum} (hcalled : q.election = .ok e) : (called q.hosts).Keeps e := by
  obtain ⟨hmembers, hnobody⟩ := Quorum.election_ok hcalled
  have hdistinct : (q.hosts.toList.map fun name => (name, false)).Pairwise
      fun a b => ¬ compare a.1 b.1 = .eq := List.pairwise_map.mpr q.hosts.distinct_toList
  refine ⟨?_, fun name => ?_, ?_⟩
  · rw [hmembers, called, Std.TreeMap.size_ofList hdistinct, List.length_map, Std.TreeSet.length_toList]
  · rw [hmembers]
    split
    · rename_i hmember
      rw [decide_eq_false (hnobody name)]
      refine Std.TreeMap.getElem?_ofList_of_mem (Std.LawfulEqCmp.compare_eq_iff_eq.mpr rfl) hdistinct ?_
      exact List.mem_map.mpr ⟨name, Std.TreeSet.mem_toList.mpr hmember, rfl⟩
    · rename_i hstranger
      apply Std.TreeMap.getElem?_ofList_of_contains_eq_false
      rw [List.map_map, ← Bool.not_eq_true, List.contains_iff_mem]
      simpa using hstranger
  · show 0 = e.voters.size
    rw [Quorum.election] at hcalled
    split at hcalled
    · cases hcalled
    · split at hcalled <;> cases hcalled
      rfl

/-- A call that the election refuses is refused for the same reason, and leaves the tally as it is. -/
theorem Keeps.vote_error (h : t.Keeps e) {cause : VoteError} (hvote : e.vote name = .error cause) :
    t.vote name = (.error cause, t) := by
  unfold vote
  rcases e.vote_cases name with ⟨hstranger, hcase⟩ | ⟨hmember, hvoted, hcase⟩ | ⟨-, -, after, -, hcase⟩
  · obtain rfl := Except.error.inj (hcase.symm.trans hvote)
    rw [h.flags name, if_neg hstranger]
  · obtain rfl := Except.error.inj (hcase.symm.trans hvote)
    rw [h.flags name, if_pos hmember, decide_eq_true hvoted]
  · rw [hcase] at hvote
    cases hvote

/-- To raise the flag of a voter and to count it keeps in step with the election, as long as there is room in
the word. -/
theorem Keeps.raise (h : t.Keeps e) (hvote : e.vote name = .ok (said, after))
    (hflag : t.flags[name]? = some false) (hroom : e.ballots + 1 < 2 ^ 16) :
    Keeps ⟨t.flags.insert name true, t.ballots + 1⟩ after := by
  obtain ⟨-, hmembers, hmember, hvoters⟩ := Election.vote_ok hvote
  refine ⟨?_, fun other => ?_, ?_⟩
  · have hflagged : t.flags.contains name = true := by
      rw [Std.TreeMap.contains_eq_isSome_getElem?, hflag]
      rfl
    rw [hmembers, ← h.size]
    show (t.flags.insert name true).size = t.flags.size
    rw [Std.TreeMap.size_insert, if_pos hflagged]
  · show (t.flags.insert name true)[other]? = _
    rw [Std.TreeMap.getElem?_insert, hmembers, h.flags other]
    by_cases hother : name = other
    · subst hother
      simp [hmember, hvoters name]
    · have hne : compare name other ≠ .eq := mt Std.LawfulEqCmp.compare_eq_iff_eq.mp hother
      simp [hne, hvoters other, Ne.symm hother]
  · show (t.ballots + 1).toNat = after.ballots
    rw [UInt16.toNat_add, h.ballots, ballots_vote hvote]
    exact Nat.mod_eq_of_lt hroom

/-- A vote that the election counts is counted without leaving the word, with the same answer. -/
theorem Keeps.vote_ok (h : t.Keeps e) (hcountable : e.Countable) (hvote : e.vote name = .ok (said, after)) :
    ∃ t', t.vote name = (.ok said, t') ∧ t'.Keeps after := by
  obtain ⟨hmember, hfree, -, hsaid⟩ := vote_eq_ok_iff.mp hvote
  have hflag : t.flags[name]? = some false := by
    rw [h.flags name, if_pos hmember, decide_eq_false hfree]
  have hroom : e.ballots + 1 < 2 ^ 16 := by
    have hlt := hcountable.ballots_lt hmember hfree
    have hfew := hcountable.few
    unfold maxMembers at hfew
    omega
  have hkeeps := h.raise hvote hflag hroom
  refine ⟨_, ?_, hkeeps⟩
  have hpassed : passed ⟨t.flags.insert name true, t.ballots + 1⟩ = said := by
    rw [hsaid, passed, majority, hkeeps.size, hkeeps.ballots]
    rfl
  unfold vote
  rw [hflag, ← hpassed]

/-- The tally stays in step whatever is called for. -/
theorem Keeps.poll (h : t.Keeps e) (hcountable : e.Countable) (calls : List String) :
    (t.poll calls).Keeps (e.poll calls) := by
  induction calls generalizing t e with
  | nil => exact h
  | cons name rest ih =>
    show ((t.vote name).2.poll rest).Keeps _
    rw [Election.poll]
    cases hvote : e.vote name with
    | error cause =>
      rw [h.vote_error hvote]
      exact ih h hcountable
    | ok counted =>
      obtain ⟨t', hcounted, hkeeps⟩ := h.vote_ok hcountable hvote
      rw [hcounted]
      exact ih hkeeps (hcountable.vote hvote)

end Tally

/-! ## The whole election -/

/-- How an election among the hosts of a quorum goes.  What has been called for so far is `calls`, and `name`
is called for next. -/
structure Exact (q : Quorum) (e : Election) : Prop where
  /-- There are as many ballots as different members have been called. -/
  ballots : ∀ calls, (e.poll calls).ballots = (calls.toFinset.filter fun name => q.contains name = true).card
  stranger : ∀ calls name, (e.poll calls).vote name = .error (.notAMember name) ↔ q.contains name = false
  again : ∀ calls name, (e.poll calls).vote name = .error (.alreadyVoted name) ↔ e.Voted calls name
  /-- There is no other reason to fail, and a call that fails changes nothing. -/
  refused : ∀ calls name cause, (e.poll calls).vote name = .error cause →
    (cause = .notAMember name ∨ cause = .alreadyVoted name) ∧ e.poll (calls ++ [name]) = e.poll calls
  /-- A call that succeeds says whether there is a majority by now. -/
  counted : ∀ calls name said after, (e.poll calls).vote name = .ok (said, after) →
    e.poll (calls ++ [name]) = after ∧ (said = true ↔ q.size / 2 + 1 ≤ after.ballots)
  /-- The first to say so is the one that makes the majority. -/
  first : ∀ calls name said after, (e.poll calls).vote name = .ok (said, after) →
    ((said = true ∧ ∀ before earlier rest counted, calls = before ++ earlier :: rest →
      (e.poll before).vote earlier ≠ .ok (true, counted)) ↔ after.ballots = q.size / 2 + 1)
  /-- All that succeed after it say so too. -/
  stays : ∀ calls name after, (e.poll calls).vote name = .ok (true, after) →
    ∀ more other said later, (e.poll (calls ++ name :: more)).vote other = .ok (said, later) → said = true
  /-- The count in sixteen bits is the number of ballots. -/
  word : ∀ calls, ((Tally.called q.hosts).poll calls).ballots.toNat = (e.poll calls).ballots
  /-- The flags and the count give the same answers, and a call that fails leaves them as they are. -/
  flags : ∀ calls name, let now := (Tally.called q.hosts).poll calls
    (now.vote name).1 = ((e.poll calls).vote name).map Prod.fst ∧
      ∀ cause, (now.vote name).1 = .error cause → (now.vote name).2 = now

theorem exact_called {q : Quorum} (hcalled : q.election = .ok e) : e.Exact q := by
  obtain ⟨hmembers, hnobody⟩ := Quorum.election_ok hcalled
  have hmajority : e.majority = q.size / 2 + 1 := by
    rw [majority, hmembers]
    rfl
  have hopen : e.passed = false := by
    have hnone : e.ballots = 0 := by
      simpa [poll] using ballots_poll hcalled []
    rw [← Bool.not_eq_true, passed_iff, hnone, hmajority]
    omega
  have hkeeps := fun calls => (Tally.keeps_called hcalled).poll (countable_called hcalled) calls
  have hcountable : ∀ calls, (e.poll calls).Countable :=
    poll_induction (countable_called hcalled) fun hnow hvote => hnow.vote hvote
  -- what a vote that counts has reached, by the majority of the quorum
  have hreached : ∀ {calls name said after}, (e.poll calls).vote name = .ok (said, after) →
      (said = true ↔ q.size / 2 + 1 ≤ after.ballots) := by
    intro calls name said after hvote
    rw [(vote_ok hvote).1, passed_iff, majority_vote hvote, majority_poll, hmajority]
  refine
    { ballots := ballots_poll hcalled
      stranger := ?stranger
      again := ?again
      refused := ?refused
      counted := ?counted
      first := ?first
      stays := ?stays
      word := fun calls => (hkeeps calls).ballots
      flags := ?flags }
  case stranger =>
    intro calls name
    rw [vote_eq_notAMember_iff, members_poll, hmembers, ← Bool.not_eq_true, Quorum.contains,
      Std.TreeSet.contains_iff_mem]
  case again =>
    intro calls name
    rw [vote_eq_alreadyVoted_iff, voted_iff hcalled, members_poll, hmembers]
    exact and_iff_right_of_imp fun hvoted => ((mem_voters_called hcalled).mp hvoted).1
  case refused =>
    intro calls name cause hvote
    rw [poll_append]
    exact ⟨vote_error hvote, poll_singleton_of_error hvote⟩
  case counted =>
    intro calls name said after hvote
    rw [poll_append]
    exact ⟨poll_singleton_of_ok hvote, hreached hvote⟩
  case first =>
    intro calls name said after hvote
    rw [← hmajority]
    constructor
    · rintro ⟨rfl, hfirst⟩
      exact (first_true_iff hopen hvote).mp hfirst
    · intro hexact
      obtain rfl : said = true := (hreached hvote).mpr (hmajority ▸ Nat.le_of_eq hexact.symm)
      exact ⟨rfl, (first_true_iff hopen hvote).mpr hexact⟩
  case stays =>
    intro calls name after hvote more other said later hlater
    rw [poll_append, poll, hvote] at hlater
    exact stays_passed hvote hlater
  case flags =>
    intro calls name now
    cases hvote : (e.poll calls).vote name with
    | error cause =>
      rw [(hkeeps calls).vote_error hvote]
      exact ⟨rfl, fun _ _ => rfl⟩
    | ok counted =>
      obtain ⟨t', hcounted, -⟩ := (hkeeps calls).vote_ok (hcountable calls) hvote
      rw [hcounted]
      refine ⟨rfl, fun cause hfailed => ?_⟩
      cases hfailed

/-- Two passed elections among the same hosts have a voter in common. -/
theorem voters_meet {q q' : Quorum} {e' : Election} (hhosts : ∀ name, q'.contains name = q.contains name)
    (hcalled : q.election = .ok e) (hcalled' : q'.election = .ok e') {calls calls' : List String}
    (hpassed : (e.poll calls).passed = true) (hpassed' : (e'.poll calls').passed = true) :
    ∃ name, q.contains name = true ∧ e.Voted calls name ∧ e'.Voted calls' name := by
  have hmember : ∀ name, name ∈ q.hosts ↔ name ∈ q.names := fun name => Quorum.mem_names.symm
  have hmember' : ∀ name, name ∈ q'.hosts ↔ name ∈ q.names := by
    intro name
    have hsame := hhosts name
    rw [Quorum.mem_names, ← Std.TreeSet.contains_iff_mem, ← Std.TreeSet.contains_iff_mem]
    rw [Quorum.contains, Quorum.contains] at hsame
    rw [hsame]
  have hmost := most_of_poll q.nodup_names hmember hcalled hpassed
  have hmost' := most_of_poll q.nodup_names hmember' hcalled' hpassed'
  obtain ⟨name, hname, hcall, hcall'⟩ := hmost.meet hmost'
  refine ⟨name, Std.TreeSet.contains_iff_mem.mpr ((hmember name).mpr hname), ?_, ?_⟩
  · exact (voted_iff hcalled).mpr ((mem_voters_called hcalled).mpr ⟨(hmember name).mpr hname, hcall⟩)
  · exact (voted_iff hcalled').mpr ((mem_voters_called hcalled').mpr ⟨(hmember' name).mpr hname, hcall'⟩)

end Election

namespace Quorum

theorem election_eq_empty_iff {q : Quorum} : q.election = .error .emptyQuorum ↔ q.size = 0 := by
  unfold election
  split
  · simp_all
  · split <;> simp_all

theorem election_eq_tooLarge_iff {q : Quorum} : q.election = .error .quorumTooLarge ↔ 65535 < q.size := by
  unfold election Election.maxMembers
  split
  · simp_all
  · split <;> simp_all

/-- **Elections are tallied exactly.**  A quorum of nobody or of more than 65535 hosts holds no election.
Every other quorum holds one, and whoever is called for in it and in whatever order, its ballots are the
different members that have been called.  A call fails for a stranger and for a member with an earlier call
that has succeeded, and for nobody else, and then it changes nothing.  A call that succeeds says whether half
of the members and one more have voted: the first to say so is the one that makes this majority, and all that
succeed after it say so too.  A tally of flags and of a count in sixteen bits never differs from this.  If two
elections among the same hosts have passed, some host has voted in both. -/
theorem election_exact (q : Quorum) :
    (q.election = .error .emptyQuorum ↔ q.size = 0) ∧
    (q.election = .error .quorumTooLarge ↔ 65535 < q.size) ∧
    ((∃ e, q.election = .ok e) ↔ 1 ≤ q.size ∧ q.size ≤ 65535) ∧
    (∀ e, q.election = .ok e → e.Exact q) ∧
    ∀ (e : Election) (q' : Quorum) (e' : Election), q.election = .ok e → q'.election = .ok e' →
      (∀ name, q'.contains name = q.contains name) → ∀ calls calls',
        (e.poll calls).passed = true → (e'.poll calls').passed = true →
          ∃ name, q.contains name = true ∧ e.Voted calls name ∧ e'.Voted calls' name := by
  refine ⟨election_eq_empty_iff, election_eq_tooLarge_iff, ?_, fun e => Election.exact_called, ?_⟩
  · have hempty := q.election_eq_empty_iff
    have hlarge := q.election_eq_tooLarge_iff
    cases hcalled : q.election with
    | ok e =>
      rw [hcalled] at hempty hlarge
      simp only [reduceCtorEq, false_iff] at hempty hlarge
      exact iff_of_true ⟨e, rfl⟩ ⟨by omega, by omega⟩
    | error cause =>
      rw [hcalled] at hempty hlarge
      cases cause <;> simp at hempty hlarge ⊢ <;> omega
  · intro e q' e' hcalled hcalled' hhosts calls calls' hpassed hpassed'
    exact Election.voters_meet hhosts hcalled hcalled' hpassed hpassed'

/-- Of three hosts, `kira` and `opal` make a majority, although a stranger is called for and `kira` twice.
`opal` and `jade` make one in another election, and `opal` has voted in both. -/
theorem election_exact_sample :
    let q := (Quorum.form Sequence.new ["jade", "kira", "opal"]).1
    let calls := ["kira", "artemis", "kira", "opal"]
    ∃ e, q.election = .ok e ∧ (e.poll ["kira"]).vote "artemis" = .error (.notAMember "artemis") ∧
      (e.poll ["kira", "artemis"]).vote "kira" = .error (.alreadyVoted "kira") ∧
      (e.poll calls).ballots = 2 ∧ ((Election.Tally.called q.hosts).poll calls).ballots.toNat = 2 ∧
      ∃ name, q.contains name = true ∧ e.Voted calls name ∧ e.Voted ["opal", "jade"] name := by
  intro q calls
  obtain ⟨-, -, hcalls, hexact, hmeet⟩ := election_exact q
  obtain ⟨e, hcalled⟩ := hcalls.mpr (by decide +kernel)
  have hopened : e = ⟨q.id, q.hosts, ∅⟩ := Except.ok.inj (hcalled.symm.trans rfl)
  have hballots : (e.poll calls).ballots = 2 := by
    rw [hopened]
    decide +kernel
  have hkira : "kira" ∈ q.hosts := Std.TreeSet.contains_iff_mem.mp (by decide +kernel)
  have hvoted : e.Voted ["kira", "artemis"] "kira" :=
    (Election.voted_iff hcalled).mpr ((Election.mem_voters_called hcalled).mpr ⟨hkira, by decide⟩)
  refine ⟨e, hcalled, ((hexact e hcalled).stranger _ _).mpr (by decide +kernel),
    ((hexact e hcalled).again _ _).mpr hvoted, hballots, ((hexact e hcalled).word calls).trans hballots, ?_⟩
  refine hmeet e q e hcalled hcalled (fun _ => rfl) calls ["opal", "jade"] ?_ ?_ <;> rw [hopened] <;>
    decide +kernel

end Quorum

end RaftReplica
