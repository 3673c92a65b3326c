import RaftReplica.Proofs.Cluster.Run

/-!
# What a message tells of its sender

Messages may reach their targets late, often or never, but nobody makes them up.  Whatever a member is
made to handle was said by another at some earlier time, and was true of it then.

* `asked` and `replied` follow a parcel back to the state that it comes from.
* `voteRequest_issued` and `appendRequest_shipped` read off a request what its candidate or leader was.
* `voteReply_given` and `appendReply_given` read off a favourable reply what its sender had done.
-/

namespace RaftReplica

/-- What an append request says of the leader that ships it. -/
structure Replica.Ships (r : Replica) (request : AppendRequest) : Prop where
  leads : r.role = .leader
  term : request.term = r.term
  agrees : r.log.termAt? request.prevLogIndex = some request.prevLogTerm
  entries : request.entries <+: r.log.entries.drop request.prevLogIndex
  commit : request.leaderCommit = r.commitIndex

theorem Replica.Issues.ships {r : Replica} {request : AppendRequest}
    (h : r.Issues (.append request)) : r.Ships request := by
  cases h with
  | append leads ships =>
    obtain ⟨prevLogTerm, hterm, rfl⟩ := Option.map_eq_some_iff.mp ships
    exact ⟨leads, rfl, hterm, r.log.entriesFrom_isPrefix _ _, rfl⟩

/-- What is not a member's own idea has come in a parcel. -/
theorem Cluster.Offers.exists_parcel {c : Cluster} {name : String} {event : Event}
    (h : c.Offers name event) (hown : event.isOwn = false) :
    ∃ source content, ⟨source, name, content⟩ ∈ c.transit ∧
      event = Parcel.event ⟨source, name, content⟩ deliveryTicket := by
  rcases h with h | ⟨⟨source, target, content⟩, hparcel, rfl, hevent⟩
  · rw [hown] at h
    cases h
  · exact ⟨source, content, hparcel, hevent⟩

namespace Run

variable {names : List String} {run : Run names} {k : Nat} {name : String}

/-! ## Where parcels come from -/

/-- A request under way was issued by its sender, for somebody else. -/
theorem asked {source target : String} {request : Request}
    (h : ⟨source, target, .request request⟩ ∈ (run.state k).transit) :
    source ≠ target ∧ ∃ j ≤ k, ∃ r, run.At j source r ∧ r.Issues request := by
  induction k with
  | zero =>
    rw [run.begins.quiet] at h
    cases h
  | succ k ih =>
    rcases (run.step k).transit_cases h with h | h
    · obtain ⟨hne, j, hjk, r, hr⟩ := ih h
      exact ⟨hne, j, by omega, r, hr⟩
    · cases h with
      | call before after called =>
        have hafter := at_of_member after
        obtain ⟨hseat, hissues⟩ := Replica.issues_of_mem_calls called
        have hpeer := (hafter.belongs.peers _).mp (List.mem_map_of_mem hseat)
        exact ⟨hpeer.2.symm, k + 1, Nat.le_refl _, _, hafter, hissues⟩

/-- A reply under way was given to a request that had been under way. -/
theorem replied {source target : String} {reply : Reply}
    (h : ⟨source, target, .reply reply⟩ ∈ (run.state k).transit) :
    ∃ j < k, ∃ request r answer, ⟨target, source, .request request⟩ ∈ (run.state j).transit ∧
      run.At j source r ∧
      run.At (j + 1) source (r.handle (.ofRequest Cluster.deliveryTicket request)).1.replica ∧
      (Cluster.deliveryTicket, answer) ∈
        (r.handle (.ofRequest Cluster.deliveryTicket request)).1.answers ∧
      answer.reply? = some reply := by
  induction k with
  | zero =>
    rw [run.begins.quiet] at h
    cases h
  | succ k ih =>
    rcases (run.step k).transit_cases h with h | h
    · obtain ⟨j, hjk, hj⟩ := ih h
      exact ⟨j, by omega, hj⟩
    · cases h with
      | answer asked before after answered replies =>
        exact ⟨k, by omega, _, _, _, asked, at_of_member before, at_of_member after, answered,
          replies⟩

/-! ## Requests -/

/-- Whoever is asked for its vote is asked by another that stood for election. -/
theorem voteRequest_issued {request : VoteRequest} {ticket : Ticket}
    (h : (run.state k).Offers name (.voteRequest request ticket)) :
    ∃ j ≤ k, ∃ candidate s, run.At j candidate s ∧ s.role = .candidate ∧
      request = s.voteRequest ∧ candidate ≠ name := by
  obtain ⟨source, content, hparcel, hevent⟩ := h.exists_parcel rfl
  cases content with
  | reply reply => cases reply <;> cases hevent
  | request asks =>
    cases asks with
    | append append => cases hevent
    | vote vote =>
      cases hevent
      obtain ⟨hne, j, hjk, s, hs, hissues⟩ := asked hparcel
      cases hissues with
      | vote stands => exact ⟨j, hjk, source, s, hs, stands, rfl, hne⟩

/-- Whatever is shipped to a member is shipped by another that led. -/
theorem appendRequest_shipped {request : AppendRequest} {ticket : Ticket}
    (h : (run.state k).Offers name (.appendRequest request ticket)) :
    ∃ j ≤ k, ∃ leader s, run.At j leader s ∧ s.Ships request ∧ leader ≠ name := by
  obtain ⟨source, content, hparcel, hevent⟩ := h.exists_parcel rfl
  cases content with
  | reply reply => cases reply <;> cases hevent
  | request asks =>
    cases asks with
    | vote vote => cases hevent
    | append append =>
      cases hevent
      obtain ⟨hne, j, hjk, s, hs, hissues⟩ := asked hparcel
      exact ⟨j, hjk, source, s, hs, hissues.ships, hne⟩

/-! ## Replies -/

/-- Behind a granted vote stands a member that has voted in that term. -/
theorem voteReply_given {reply : VoteReply}
    (h : (run.state k).Offers name (.voteReply reply)) (hgranted : reply.granted = true) :
    ∃ j ≤ k, ∃ s, run.At j reply.remote s ∧ s.term = reply.term ∧ s.votedFor = some name := by
  obtain ⟨source, content, hparcel, hevent⟩ := h.exists_parcel rfl
  cases content with
  | request asks => cases asks <;> cases hevent
  | reply given =>
    cases given with
    | append append => cases hevent
    | vote vote =>
      cases hevent
      obtain ⟨j, hjk, request, r, answer, hasked, hr, hafter, hanswer, hreply⟩ := replied hparcel
      cases request with
      | append append =>
        obtain ⟨success, index, hanswers, -⟩ := r.answers_appendRequest append Cluster.deliveryTicket
        rw [Event.ofRequest, hanswers, List.mem_singleton] at hanswer
        cases hanswer
        cases hreply
      | vote vote =>
        obtain ⟨granted, hanswers, hvoted⟩ := r.answers_voteRequest vote Cluster.deliveryTicket
        rw [Event.ofRequest, hanswers, List.mem_singleton] at hanswer
        cases hanswer
        cases hreply
        obtain ⟨hterm, hvote, -, -⟩ := hvoted hgranted
        obtain ⟨-, i, hij, candidate, hcandidate, hissues⟩ := asked hasked
        have hremote : (r.handle (.voteRequest vote Cluster.deliveryTicket)).1.replica.name =
          source := hafter.belongs.named
        cases hissues with
        | vote stands =>
          refine ⟨j + 1, hjk, _, ?_, rfl, ?_⟩
          · simp only [Replica.voteReply, hremote]
            exact hafter
          · rw [← hcandidate.belongs.named]
            exact hvote

/-- Behind a successful reply stands a member that has merged what this leader had shipped in that
term. -/
theorem appendReply_given {reply : AppendReply}
    (h : (run.state k).Offers name (.appendReply reply)) (hsuccess : reply.success = true) :
    ∃ j < k, ∃ i ≤ j, ∃ l r r' request, run.At i name l ∧ l.Ships request ∧
      run.At j reply.remote r ∧ run.At (j + 1) reply.remote r' ∧
      request.term = reply.term ∧ r'.term = reply.term ∧
      r.log.termAt? request.prevLogIndex = some request.prevLogTerm ∧
      r'.log = (r.log.merge request.prevLogIndex request.entries).2 ∧
      reply.index = request.prevLogIndex + request.entries.length := by
  obtain ⟨source, content, hparcel, hevent⟩ := h.exists_parcel rfl
  cases content with
  | request asks => cases asks <;> cases hevent
  | reply given =>
    cases given with
    | vote vote => cases hevent
    | append append =>
      cases hevent
      obtain ⟨j, hjk, request, r, answer, hasked, hr, hafter, hanswer, hreply⟩ := replied hparcel
      cases request with
      | vote vote =>
        obtain ⟨granted, hanswers, -⟩ := r.answers_voteRequest vote Cluster.deliveryTicket
        rw [Event.ofRequest, hanswers, List.mem_singleton] at hanswer
        cases hanswer
        cases hreply
      | append append =>
        obtain ⟨success, index, hanswers, hmerged⟩ :=
          r.answers_appendRequest append Cluster.deliveryTicket
        rw [Event.ofRequest, hanswers, List.mem_singleton] at hanswer
        cases hanswer
        cases hreply
        obtain ⟨-, hagrees, hindex, hterm, hlog⟩ := hmerged hsuccess
        obtain ⟨-, i, hij, l, hl, hissues⟩ := asked hasked
        have hremote : (r.handle (.appendRequest append Cluster.deliveryTicket)).1.replica.name =
          source := hafter.belongs.named
        refine ⟨j, hjk, i, hij, l, r, _, append, hl, hissues.ships, ?_, ?_, hterm.symm, rfl, hagrees,
          hlog, hindex⟩
        · simp only [Replica.appendReply, hremote]
          exact hr
        · simp only [Replica.appendReply, hremote]
          exact hafter

end Run

end RaftReplica
