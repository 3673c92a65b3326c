import RaftReplica.Cluster.Basic
import RaftReplica.Proofs.Replica.Outcome

/-!
# Steps of a cluster

In a step some replica acts of its own accord, or a parcel under way reaches its target, or the network
alone does something.  Parcels may be lost, held back, put in another order and doubled at any time: a
step keeps whichever it likes of those under way, and one that has been handed over may stay under way.

* `Step` is the step relation.
* `Step.members_cases`: a step leaves a member as it is, or lets it handle one event that it was offered.
* `Step.transit_cases`: whatever is under way after a step was so before, or is sent in the step
  (`Sends`) as a call to a peer or as the answer to a request under way.
-/

namespace RaftReplica

/-- Whether a replica acts on an event without having heard from another. -/
def Event.isOwn : Event → Bool
  | electionTimeout | heartbeatTimeout | writeAhead _ | aggregatedWriteAhead _ => true
  | error _ | voteRequest .. | voteReply _ | appendRequest .. | appendReply _ => false

/-- A member once it has handled an event. -/
def Member.after (m : Member) (event : Event) : Member :=
  ⟨(m.replica.handle event).1.replica, m.stream ++ (m.replica.handle event).1.committed⟩

namespace Cluster

/-- One step of a cluster. -/
inductive Step (c : Cluster) : Cluster → Prop
  /-- A replica acts of its own accord. -/
  | act (name : String) {event : Event} (own : event.isOwn = true) : Step c (c.act name event).1
  /-- A parcel under way reaches its target. -/
  | hand {parcel : Parcel} {left : List Parcel} (sent : parcel ∈ c.transit)
      (kept : left ⊆ c.transit) : Step c ({ c with transit := left }.handOver parcel)
  /-- Parcels are lost, reordered or doubled, and replicas cut off or connected again. -/
  | network {left : List Parcel} (isolated : List String) (kept : left ⊆ c.transit) :
      Step c { c with transit := left, isolated }

theorem Step.refl (c : Cluster) : c.Step c := .network c.isolated (List.Subset.refl c.transit)

/-- An event that a member may be made to handle. -/
def Offers (c : Cluster) (name : String) (event : Event) : Prop :=
  event.isOwn = true ∨
    ∃ parcel ∈ c.transit, parcel.target = name ∧ event = parcel.event deliveryTicket

/-- What is sent in a step from `c` to `c'`. -/
inductive Sends (c c' : Cluster) : Parcel → Prop
  /-- A member calls a peer. -/
  | call {name : String} {m : Member} {event : Event} {seat : Seat} {request : Request}
      (before : c.members[name]? = some m) (after : c'.members[name]? = some (m.after event))
      (called : (seat, request) ∈ (m.replica.handle event).1.calls) :
      Sends c c' ⟨name, seat.peer.name, .request request⟩
  /-- A member answers a request that has reached it. -/
  | answer {source target : String} {request : Request} {m : Member} {answer : Answer}
      {reply : Reply} (asked : ⟨source, target, .request request⟩ ∈ c.transit)
      (before : c.members[target]? = some m)
      (after : c'.members[target]? = some (m.after (.ofRequest deliveryTicket request)))
      (answered : (deliveryTicket, answer) ∈
        (m.replica.handle (.ofRequest deliveryTicket request)).1.answers)
      (replies : answer.reply? = some reply) : Sends c c' ⟨target, source, .reply reply⟩

/-! ## Acting -/

section Acting

variable (c : Cluster) (name : String) (event : Event)

theorem act_of_none (h : c.members[name]? = none) : c.act name event = (c, none) := by
  simp [act, h]

theorem act_of_some {m : Member} (h : c.members[name]? = some m) :
    c.act name event =
      ({ c with members := c.members.insert name (m.after event) }.send
          (requestsOf name (m.replica.handle event).1),
        some (m.replica.handle event)) := by
  simp only [act, h]
  rfl

/-- Acting changes nobody but whoever acts. -/
theorem members_act (other : String) :
    (c.act name event).1.members[other]? =
      if name = other then c.members[other]?.map (·.after event) else c.members[other]? := by
  cases h : c.members[name]? with
  | none =>
    rw [act_of_none c name event h]
    split
    · rename_i heq
      subst heq
      rw [h]
      rfl
    · rfl
  | some m =>
    rw [act_of_some c name event h]
    simp only [send, Std.TreeMap.getElem?_insert, Std.LawfulEqCmp.compare_eq_iff_eq]
    split
    · rename_i heq
      subst heq
      rw [h]
      rfl
    · rfl

theorem mem_transit_send {parcels : List Parcel} {parcel : Parcel}
    (h : parcel ∈ (c.send parcels).transit) : parcel ∈ c.transit ∨ parcel ∈ parcels := by
  rcases List.mem_append.mp h with h | h
  · exact Or.inl h
  · exact Or.inr (List.mem_filter.mp h).1

/-- Acting sends the calls of the turn and nothing else. -/
theorem mem_transit_act {parcel : Parcel} (h : parcel ∈ (c.act name event).1.transit) :
    parcel ∈ c.transit ∨ ∃ m seat request, c.members[name]? = some m ∧
      (seat, request) ∈ (m.replica.handle event).1.calls ∧
        parcel = ⟨name, seat.peer.name, .request request⟩ := by
  cases hm : c.members[name]? with
  | none =>
    rw [act_of_none c name event hm] at h
    exact Or.inl h
  | some m =>
    rw [act_of_some c name event hm] at h
    rcases mem_transit_send _ h with h | h
    · exact Or.inl h
    · obtain ⟨⟨seat, request⟩, hsent, rfl⟩ := List.mem_map.mp h
      exact Or.inr ⟨m, seat, request, rfl, Turn.mem_calls_of_mem_sent hsent, rfl⟩

end Acting

/-! ## Handing over -/

section HandingOver

variable (c : Cluster) (parcel : Parcel)

theorem handOver_of_none (h : c.members[parcel.target]? = none) : c.handOver parcel = c := by
  simp only [handOver, act_of_none c _ _ h]

theorem handOver_of_some {m : Member} (h : c.members[parcel.target]? = some m) :
    c.handOver parcel =
      (c.act parcel.target (parcel.event deliveryTicket)).1.send
        ((((m.replica.handle (parcel.event deliveryTicket)).1.answerTo? deliveryTicket).bind
          Answer.reply?).toList.map fun reply => ⟨parcel.target, parcel.source, .reply reply⟩) := by
  simp only [handOver, act_of_some c _ _ h]

theorem members_handOver :
    (c.handOver parcel).members = (c.act parcel.target (parcel.event deliveryTicket)).1.members := by
  cases h : c.members[parcel.target]? with
  | none => rw [handOver_of_none c parcel h, act_of_none c _ _ h]
  | some m =>
    rw [handOver_of_some c parcel h]
    rfl

theorem mem_answers_of_answerTo? {t : Turn} {ticket : Ticket} {answer : Answer}
    (h : t.answerTo? ticket = some answer) : (ticket, answer) ∈ t.answers := by
  obtain ⟨⟨given, found⟩, hfind, rfl⟩ := Option.map_eq_some_iff.mp h
  have hmem := List.mem_of_find?_eq_some hfind
  have hgiven := List.find?_some hfind
  simp only [decide_eq_true_eq] at hgiven
  exact hgiven ▸ hmem

/-- Handing a parcel over sends what its target sends, and the answer if it is a request. -/
theorem mem_transit_handOver {other : Parcel} (h : other ∈ (c.handOver parcel).transit) :
    other ∈ (c.act parcel.target (parcel.event deliveryTicket)).1.transit ∨
      ∃ request m answer reply, parcel.content = .request request ∧
        c.members[parcel.target]? = some m ∧
        (deliveryTicket, answer) ∈
          (m.replica.handle (.ofRequest deliveryTicket request)).1.answers ∧
        answer.reply? = some reply ∧ other = ⟨parcel.target, parcel.source, .reply reply⟩ := by
  cases hm : c.members[parcel.target]? with
  | none =>
    rw [handOver_of_none c parcel hm] at h
    rw [act_of_none c _ _ hm]
    exact Or.inl h
  | some m =>
    rw [handOver_of_some c parcel hm] at h
    rcases mem_transit_send _ h with h | h
    · exact Or.inl h
    · right
      obtain ⟨reply, hreply, rfl⟩ := List.mem_map.mp h
      obtain ⟨answer, hanswer, hreply⟩ := Option.bind_eq_some_iff.mp (Option.mem_toList.mp hreply)
      have hmem := mem_answers_of_answerTo? hanswer
      cases hcontent : parcel.content with
      | request request =>
        simp only [Parcel.event, hcontent] at hmem
        exact ⟨request, m, answer, reply, rfl, rfl, hmem, hreply, rfl⟩
      | reply reply =>
        simp only [Parcel.event, hcontent, Replica.answers_ofReply] at hmem
        cases hmem

end HandingOver

/-! ## What a step does -/

namespace Step

variable {c c' : Cluster}

/-- **What a step does to a member**: nothing, or it handles an event that it was offered. -/
theorem members_cases (h : c.Step c') (name : String) :
    c'.members[name]? = c.members[name]? ∨
      ∃ event, c.Offers name event ∧ c'.members[name]? = c.members[name]?.map (·.after event) := by
  cases h with
  | act actor own =>
    rw [members_act]
    split
    · exact Or.inr ⟨_, Or.inl own, rfl⟩
    · exact Or.inl rfl
  | @hand parcel left sent kept =>
    rw [members_handOver, members_act]
    split
    · rename_i htarget
      exact Or.inr ⟨_, Or.inr ⟨parcel, sent, htarget, rfl⟩, rfl⟩
    · exact Or.inl rfl
  | network isolated kept => exact Or.inl rfl

/-- **What is under way after a step** was so before, or is sent in the step. -/
theorem transit_cases (h : c.Step c') {parcel : Parcel} (hparcel : parcel ∈ c'.transit) :
    parcel ∈ c.transit ∨ c.Sends c' parcel := by
  cases h with
  | act name own =>
    rcases mem_transit_act c name _ hparcel with h | ⟨m, seat, request, hm, hcall, rfl⟩
    · exact Or.inl h
    · refine Or.inr (.call hm ?_ hcall)
      rw [members_act, if_pos rfl, hm]
      rfl
  | @hand handed left sent kept =>
    have hafter : ∀ m, c.members[handed.target]? = some m →
        ({ c with transit := left }.handOver handed).members[handed.target]? =
          some (m.after (handed.event deliveryTicket)) := by
      intro m hm
      rw [members_handOver, members_act, if_pos rfl, hm]
      rfl
    rcases mem_transit_handOver _ handed hparcel with h |
      ⟨request, m, answer, reply, hcontent, hm, hanswer, hreply, rfl⟩
    · rcases mem_transit_act _ _ _ h with h | ⟨m, seat, request, hm, hcall, rfl⟩
      · exact Or.inl (kept h)
      · exact Or.inr (.call hm (hafter m hm) hcall)
    · right
      have hevent := hafter m hm
      simp only [Parcel.event, hcontent] at hevent
      refine .answer ?_ hm hevent hanswer hreply
      rw [← hcontent]
      exact sent
  | network isolated kept => exact Or.inl (kept hparcel)

end Step

end Cluster

end RaftReplica
