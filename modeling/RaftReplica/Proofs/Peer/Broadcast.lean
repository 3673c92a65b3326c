import Mathlib.Data.List.Induction
import Mathlib.Data.List.Nodup
import Mathlib.Data.List.Perm.Subperm
import RaftReplica.Peer.Broadcast

/-!
# Broadcasts count what they deliver

The calls of a broadcast end in any order and each in its own way, and the receiver takes replies from the
channel whenever it likes.  If the channel has room for a reply of every call, none of them ever waits for
another.

* `Schedule` is a broadcast with the ends of its calls and the order in which all of it happens.
* `finish_eq` says what the end of one call comes to as long as there is room: its reply goes into the channel
  if it has one, it counts if it does, and nothing else changes but that the call is over.
* `Sound` is the account of channel, count and calls while calls end, and `sound_after` keeps it.
* `Schedule.deliveries_counted` is the result for every schedule.
-/

namespace RaftReplica

/-- What goes into a pipe that is open and has room. -/
theorem Pipe.trySend_of_room {ε : Type} {pipe : Pipe ε} (hopen : pipe.closed = false)
    (hroom : pipe.queue.length < pipe.capacity) (event : ε) :
    pipe.trySend event = .ok { pipe with queue := pipe.queue ++ [event] } := by
  rw [trySend, hopen, isFull, decide_eq_false (Nat.not_le.mpr hroom)]
  rfl

namespace Broadcast

variable {b : Broadcast} {place : ℕ}

/-! ## Single steps -/

/-- The end of a call, as long as there is room for its reply. -/
theorem finish_eq (hheld : b.held = []) (hopen : b.channel.closed = false)
    (hroom : b.channel.queue.length < b.channel.capacity) (hcall : b.calls.any (·.place == place) = true)
    (result : Except PeerError Reply) : b.finish place result =
      { calls := b.calls.filter (·.place != place)
        held := []
        channel :=
          { b.channel with
            queue := b.channel.queue ++ result.toOption.toList
            senders := b.channel.senders - 1 }
        succeeded := b.succeeded + result.toOption.toList.length } := by
  rw [finish, if_pos hcall]
  cases result with
  | error error => simp [Pipe.dropSender, Except.toOption, hheld]
  | ok reply =>
    simp only [settle, hheld, List.nil_append, pass, Pipe.trySend_of_room hopen hroom]
    rfl

/-- Nothing but the reply is missing after somebody has taken one. -/
theorem receive_eq (hheld : b.held = []) :
    b.receive = (b.channel.receive.1, { b with channel := b.channel.receive.2 }) := by
  obtain ⟨calls, held, channel, succeeded⟩ := b
  subst hheld
  rfl

/-- Taking replies for long enough empties the channel. -/
theorem receiveAll_eq {max : ℕ} (hheld : b.held = []) (hmax : b.channel.queue.length ≤ max) :
    b.receiveAll max = (b.channel.queue, { b with channel := { b.channel with queue := [] } }) := by
  induction max generalizing b with
  | zero =>
    obtain ⟨calls, held, ⟨capacity, queue, senders, closed⟩, succeeded⟩ := b
    obtain rfl : queue = [] := List.eq_nil_of_length_eq_zero (Nat.le_zero.mp hmax)
    rfl
  | succ max ih =>
    obtain ⟨calls, held, ⟨capacity, queue, senders, closed⟩, succeeded⟩ := b
    rw [receiveAll, receive_eq hheld]
    cases queue with
    | nil => cases hover : Pipe.isOver (ε := Reply) ⟨capacity, [], senders, closed⟩ <;>
        simp only [Pipe.receive, hover, if_true, if_false, Bool.false_eq_true]
    | cons reply queue =>
      have hrest := ih (b := ⟨calls, held, ⟨capacity, queue, senders, closed⟩, succeeded⟩) hheld
        (Nat.le_of_succ_le_succ hmax)
      simp only [Pipe.receive, hrest]

/-! ## Schedules -/

/-- What happens while a broadcast is under way. -/
inductive Move where
  /-- The call of the entry at this place ends. -/
  | ends (place : ℕ)
  /-- The receiver takes a reply if there is one. -/
  | takes
deriving DecidableEq, Repr

/-- The places whose calls end, in order. -/
def ended (moves : List Move) : List ℕ :=
  moves.filterMap fun
    | .ends place => some place
    | .takes => none

/-- A broadcast and the replies that the receiver has taken. -/
structure Underway where
  broadcast : Broadcast
  taken : List Reply

/-- Lets one thing happen. -/
def Underway.perform (outcome : ℕ → Except PeerError Reply) (now : Underway) : Move → Underway
  | .ends place => { now with broadcast := now.broadcast.finish place (outcome place) }
  | .takes =>
    match now.broadcast.receive with
    | (.item reply, broadcast) => ⟨broadcast, now.taken ++ [reply]⟩
    | (_, broadcast) => { now with broadcast }

/-- A broadcast to a roster into a channel with room for a reply from every entry, with the ends of the calls,
and the order in which they end and replies are taken. -/
structure Schedule where
  roster : Roster
  request : Request
  channel : Pipe Reply
  /-- How the call of the entry at a place ends. -/
  outcome : ℕ → Except PeerError Reply
  moves : List Move
  room : roster.length ≤ channel.capacity
  unused : channel.queue = []
  alive : channel.closed = false
  complete : (ended moves).Perm (List.range roster.length)

namespace Schedule

variable (s : Schedule)

/-- The broadcast before anything has happened. -/
def opened : Broadcast := start s.roster s.request s.channel

/-- What becomes of the broadcast after some moves. -/
def after (moves : List Move) : Underway := moves.foldl (Underway.perform s.outcome) ⟨s.opened, []⟩

/-- The broadcast after all moves. -/
def last : Broadcast := (s.after s.moves).broadcast

/-- The reply of the call of an entry, if it succeeds. -/
def reply? (place : ℕ) : Option Reply := (s.outcome place).toOption

/-- All replies that the receiver gets: those that it has taken, and those that are left for it in the end. -/
def delivered : List Reply := (s.after s.moves).taken ++ (s.last.receiveAll s.roster.length).1

/-- The broadcast after the receiver has taken what is left. -/
def drained : Broadcast := (s.last.receiveAll s.roster.length).2

/-- The same schedule with another end of the call at a place. -/
def withOutcome (place : ℕ) (result : Except PeerError Reply) : Schedule :=
  { s with outcome := Function.update s.outcome place result }

/-! ## The account of a schedule -/

variable {s} {moves : List Move} {now : Underway} {finished : List ℕ}

/-- What holds after the calls of some entries have ended: the others are under way, each with a sender of the
channel, and what the receiver has taken and what is in the channel are the replies of those that have ended.
As many are counted. -/
structure Sound (s : Schedule) (finished : List ℕ) (now : Underway) : Prop where
  calls : now.broadcast.calls = s.opened.calls.filter fun call => !finished.contains call.place
  held : now.broadcast.held = []
  capacity : now.broadcast.channel.capacity = s.channel.capacity
  alive : now.broadcast.channel.closed = false
  senders : now.broadcast.channel.senders + finished.length = s.roster.length
  replies : now.taken ++ now.broadcast.channel.queue = finished.filterMap s.reply?
  succeeded : now.broadcast.succeeded = (finished.filterMap s.reply?).length

theorem sound_opened (s : Schedule) : s.Sound [] ⟨s.opened, []⟩ where
  calls := (List.filter_eq_self.mpr fun _ _ => rfl).symm
  held := rfl
  capacity := rfl
  alive := s.alive
  senders := rfl
  replies := s.unused
  succeeded := rfl

/-- The entries are called in order, each of them once. -/
theorem places_opened (s : Schedule) : s.opened.calls.map (·.place) = List.range s.roster.length := by
  rw [opened, start, List.map_map, List.range_eq_range']
  exact List.zipIdx_map_snd 0 s.roster

theorem seats_opened (s : Schedule) : s.opened.calls.map (·.seat) = s.roster := by
  rw [opened, start, List.map_map]
  exact List.zipIdx_map_fst 0 s.roster

theorem request_opened (s : Schedule) {call : PeerCall} (hcall : call ∈ s.opened.calls) :
    call.request = s.request := by
  obtain ⟨-, -, rfl⟩ := List.mem_map.mp hcall
  rfl

theorem exists_call (s : Schedule) {place : ℕ} (hplace : place < s.roster.length) :
    ∃ call ∈ s.opened.calls, call.place = place := by
  rw [← List.mem_range, ← s.places_opened] at hplace
  exact List.mem_map.mp hplace

/-- There are no more different places than entries in the roster. -/
theorem length_le_of_nodup {places : List ℕ} (hnodup : places.Nodup)
    (hbound : ∀ place ∈ places, place < s.roster.length) : places.length ≤ s.roster.length := by
  have hsub : places ⊆ List.range s.roster.length := fun place hplace =>
    List.mem_range.mpr (hbound place hplace)
  have hle := (List.Nodup.subperm hnodup hsub).length_le
  rwa [List.length_range] at hle

theorem filterMap_singleton (s : Schedule) (place : ℕ) : [place].filterMap s.reply? = (s.reply? place).toList := by
  cases hreply : s.reply? place <;> simp [hreply]

namespace Sound

/-- There are no more replies in the channel than calls that have ended. -/
theorem length_queue_le (h : s.Sound finished now) :
    now.broadcast.channel.queue.length ≤ finished.length := by
  have hlength := congrArg List.length h.replies
  have hle := List.length_filterMap_le s.reply? finished
  rw [List.length_append] at hlength
  omega

/-- The channel has room for one more reply as long as a call is under way. -/
theorem room (h : s.Sound finished now) (hleft : finished.length < s.roster.length) :
    now.broadcast.channel.queue.length < now.broadcast.channel.capacity := by
  have hqueue := h.length_queue_le
  have hroom := s.room
  rw [h.capacity]
  omega

/-- One more call ends. -/
theorem finish (h : s.Sound finished now) {place : ℕ} (hplace : place < s.roster.length)
    (hnew : place ∉ finished) (hleft : finished.length < s.roster.length) :
    s.Sound (finished ++ [place]) (now.perform s.outcome (.ends place)) := by
  obtain ⟨call, hcall, rfl⟩ := s.exists_call hplace
  have hunder : now.broadcast.calls.any (·.place == call.place) = true := by
    rw [h.calls, List.any_eq_true]
    exact ⟨call, List.mem_filter.mpr ⟨hcall, by simpa using hnew⟩, by simp⟩
  have hsenders := h.senders
  have hfinish := finish_eq h.held h.alive (h.room hleft) hunder (s.outcome call.place)
  constructor
  all_goals simp only [Underway.perform, hfinish]
  case calls =>
    rw [h.calls, List.filter_filter]
    refine List.filter_congr fun other _ => ?_
    rw [Bool.eq_iff_iff]
    simp [and_comm]
  case capacity => exact h.capacity
  case alive => exact h.alive
  case senders =>
    rw [List.length_append, List.length_singleton]
    omega
  case replies =>
    rw [← List.append_assoc, h.replies, List.filterMap_append, filterMap_singleton]
    rfl
  case succeeded =>
    rw [h.succeeded, List.filterMap_append, List.length_append, filterMap_singleton]
    rfl

/-- The receiver takes a reply. -/
theorem take (h : s.Sound finished now) : s.Sound finished (now.perform s.outcome .takes) := by
  obtain ⟨⟨calls, held, ⟨capacity, queue, senders, closed⟩, succeeded⟩, taken⟩ := now
  obtain ⟨hcalls, hheld, hcapacity, halive, hsenders, hreplies, hsucceeded⟩ := h
  rw [Underway.perform, receive_eq hheld]
  cases queue with
  | nil =>
    cases hover : Pipe.isOver (ε := Reply) ⟨capacity, [], senders, closed⟩ <;>
      simp only [Pipe.receive, hover, if_true, if_false, Bool.false_eq_true] <;>
      exact ⟨hcalls, hheld, hcapacity, halive, hsenders, hreplies, hsucceeded⟩
  | cons reply queue =>
    refine ⟨hcalls, hheld, hcapacity, halive, hsenders, ?_, hsucceeded⟩
    rw [← hreplies]
    exact List.append_assoc taken [reply] queue

/-- The receiver takes all that is there. -/
theorem receiveAll (h : s.Sound finished now) {max : ℕ}
    (hmax : now.broadcast.channel.queue.length ≤ max) :
    s.Sound finished ⟨(now.broadcast.receiveAll max).2, now.taken ++ (now.broadcast.receiveAll max).1⟩ ∧
      (now.broadcast.receiveAll max).2.channel.queue = [] := by
  rw [receiveAll_eq h.held hmax]
  refine ⟨⟨h.calls, h.held, h.capacity, h.alive, h.senders, ?_, h.succeeded⟩, rfl⟩
  rw [← h.replies]
  exact List.append_nil _

/-- Calls end one after the other, and the receiver takes each reply at once. -/
theorem carryOut (h : s.Sound finished now) (hempty : now.broadcast.channel.queue = []) {places : List ℕ}
    (hnodup : (finished ++ places).Nodup) (hbound : ∀ place ∈ finished ++ places, place < s.roster.length) :
    let ends := places.map fun place => (place, s.outcome place)
    s.Sound (finished ++ places)
        ⟨(Broadcast.carryOut ends now.broadcast).2, now.taken ++ (Broadcast.carryOut ends now.broadcast).1⟩ ∧
      (Broadcast.carryOut ends now.broadcast).2.channel.queue = [] := by
  induction places generalizing finished now with
  | nil =>
    simp only [List.map_nil, Broadcast.carryOut, List.append_nil]
    exact ⟨h, hempty⟩
  | cons place places ih =>
    have hplace := hbound place (List.mem_append_right _ List.mem_cons_self)
    have hall := length_le_of_nodup hnodup hbound
    simp only [List.length_append, List.length_cons] at hall
    have hnew : place ∉ finished := fun hmem =>
      List.disjoint_of_nodup_append hnodup hmem List.mem_cons_self
    have hfinished := h.finish hplace hnew (by omega)
    have hqueue := hfinished.length_queue_le
    have hcapacity := h.capacity
    have hroom := s.room
    rw [List.length_append, List.length_singleton] at hqueue
    obtain ⟨hsound, hempty⟩ := hfinished.receiveAll (by omega : _ ≤ now.broadcast.channel.capacity + 1)
    rw [List.append_cons] at hnodup hbound ⊢
    have hrest := ih hsound hempty hnodup hbound
    simpa only [List.map_cons, Broadcast.carryOut, List.append_assoc, Underway.perform] using hrest

end Sound

theorem after_concat (s : Schedule) (moves : List Move) (move : Move) :
    s.after (moves ++ [move]) = (s.after moves).perform s.outcome move := by
  rw [after, List.foldl_append]
  rfl

theorem ended_append (moves more : List Move) : ended (moves ++ more) = ended moves ++ ended more :=
  List.filterMap_append

/-- **The account is right at all times**, as long as no call ends twice. -/
theorem sound_after (hnodup : (ended moves).Nodup) (hbound : ∀ place ∈ ended moves, place < s.roster.length) :
    s.Sound (ended moves) (s.after moves) := by
  induction moves using List.reverseRecOn with
  | nil => exact s.sound_opened
  | append_singleton moves move ih =>
    rw [after_concat, ended_append] at *
    have hbefore := ih (List.Nodup.of_append_left hnodup) fun place hplace =>
      hbound place (List.mem_append_left _ hplace)
    cases move with
    | takes =>
      show s.Sound (ended moves ++ []) _
      rw [List.append_nil]
      exact hbefore.take
    | ends place =>
      show s.Sound (ended moves ++ [place]) _
      have hplace := hbound place (List.mem_append_right _ List.mem_cons_self)
      have hnew : place ∉ ended moves := fun hmem =>
        List.disjoint_of_nodup_append hnodup hmem List.mem_cons_self
      have hall := length_le_of_nodup hnodup hbound
      refine hbefore.finish hplace hnew ?_
      rw [List.length_append, show (ended [Move.ends place]).length = 1 from rfl] at hall
      omega

/-! ## Whole schedules -/

theorem nodup_ended (s : Schedule) : (ended s.moves).Nodup := s.complete.nodup_iff.mpr List.nodup_range

theorem mem_ended (s : Schedule) {place : ℕ} : place ∈ ended s.moves ↔ place < s.roster.length := by
  rw [s.complete.mem_iff, List.mem_range]

theorem length_ended (s : Schedule) : (ended s.moves).length = s.roster.length := by
  rw [s.complete.length_eq, List.length_range]

theorem sound_of_isPrefix (s : Schedule) {sofar : List Move} (h : sofar <+: s.moves) :
    s.Sound (ended sofar) (s.after sofar) := by
  obtain ⟨rest, hrest⟩ := h
  have hended : ended sofar ++ ended rest = ended s.moves := by rw [← ended_append, hrest]
  refine sound_after ?_ ?_
  · exact List.Nodup.of_append_left (hended ▸ s.nodup_ended)
  · intro place hplace
    rw [← s.mem_ended, ← hended]
    exact List.mem_append_left _ hplace

theorem sound_last (s : Schedule) : s.Sound (ended s.moves) (s.after s.moves) :=
  s.sound_of_isPrefix (List.prefix_refl _)

/-- In the end no call is under way. -/
theorem calls_last (s : Schedule) : s.last.calls = [] := by
  rw [last, s.sound_last.calls, List.filter_eq_nil_iff]
  intro call hcall
  have hplace : call.place ∈ s.opened.calls.map (·.place) := List.mem_map_of_mem hcall
  rw [places_opened, List.mem_range, ← s.mem_ended] at hplace
  simpa using hplace

/-- The account after the receiver has taken what is left. -/
theorem sound_drained (s : Schedule) :
    s.Sound (ended s.moves) ⟨s.drained, s.delivered⟩ ∧ s.drained.channel.queue = [] := by
  refine s.sound_last.receiveAll ?_
  rw [← s.length_ended]
  exact s.sound_last.length_queue_le

theorem delivered_eq (s : Schedule) : s.delivered = (ended s.moves).filterMap s.reply? := by
  obtain ⟨hsound, hempty⟩ := s.sound_drained
  rw [← hsound.replies, hempty, List.append_nil]

theorem delivered_perm (s : Schedule) :
    s.delivered.Perm ((List.range s.roster.length).filterMap s.reply?) := by
  rw [delivered_eq]
  exact s.complete.filterMap _

theorem receive_drained (s : Schedule) : s.drained.receive.1 = .closed := by
  obtain ⟨hsound, hempty⟩ := s.sound_drained
  have hcount : s.drained.channel.senders + (ended s.moves).length = s.roster.length := hsound.senders
  have hsenders : s.drained.channel.senders = 0 := by
    rw [s.length_ended] at hcount
    omega
  rw [receive_eq hsound.held]
  exact (Pipe.receive_eq_closed_iff _).mpr ⟨hempty, by simp [Pipe.isOver, hsenders]⟩

theorem join?_last (s : Schedule) : s.last.join? = some s.delivered.length := by
  have hover : s.last.isOver = true := by
    rw [isOver, calls_last, show s.last.held = [] from s.sound_last.held]
    rfl
  rw [join?, if_pos hover, delivered_eq]
  exact congrArg some s.sound_last.succeeded

/-- While a call is under way, neither the count is there nor the end of the channel. -/
theorem unfinished (s : Schedule) {sofar : List Move} (h : sofar <+: s.moves)
    (hleft : (ended sofar).length < s.roster.length) :
    (s.after sofar).broadcast.join? = none ∧ (s.after sofar).broadcast.receive.1 ≠ .closed := by
  have hsound := s.sound_of_isPrefix h
  constructor
  · have hcalls : (s.after sofar).broadcast.calls ≠ [] := by
      intro hnone
      rw [hsound.calls, List.filter_eq_nil_iff] at hnone
      have hall : List.range s.roster.length ⊆ ended sofar := by
        intro place hplace
        obtain ⟨call, hcall, rfl⟩ := s.exists_call (List.mem_range.mp hplace)
        simpa using hnone call hcall
      have hle := (List.Nodup.subperm List.nodup_range hall).length_le
      rw [List.length_range] at hle
      omega
    rw [join?, isOver, List.isEmpty_eq_false_iff.mpr hcalls]
    rfl
  · have hsenders := hsound.senders
    rw [receive_eq hsound.held, ne_eq, Pipe.receive_eq_closed_iff, Pipe.isOver, hsound.alive]
    rintro ⟨-, hnone⟩
    have hzero : (s.after sofar).broadcast.channel.senders = 0 := by simpa using hnone
    omega

theorem reply?_withOutcome (s : Schedule) (place other : ℕ) (result : Except PeerError Reply) :
    (s.withOutcome place result).reply? other = if other = place then result.toOption else s.reply? other := by
  simp only [reply?, withOutcome, Function.update_apply]
  split <;> rfl

/-- What the other calls deliver does not depend on the end of one. -/
theorem delivered_withOutcome (s : Schedule) {place : ℕ} (hplace : place < s.roster.length) :
    ∃ earlier later, ∀ result,
      (s.withOutcome place result).delivered = earlier ++ result.toOption.toList ++ later := by
  obtain ⟨before, behind, hsplit⟩ := List.append_of_mem (s.mem_ended.mpr hplace)
  have hnodup := s.nodup_ended
  rw [hsplit, List.nodup_append, List.nodup_cons] at hnodup
  obtain ⟨-, ⟨hbehind, -⟩, hbefore⟩ := hnodup
  have hothers {places : List ℕ} (hothers : place ∉ places) (result : Except PeerError Reply) :
      places.filterMap (s.withOutcome place result).reply? = places.filterMap s.reply? := by
    refine List.filterMap_congr fun other hother => ?_
    have hne : other ≠ place := fun heq => hothers (heq ▸ hother)
    rw [reply?_withOutcome, if_neg hne]
  refine ⟨before.filterMap s.reply?, behind.filterMap s.reply?, fun result => ?_⟩
  have hown : (s.withOutcome place result).reply? place = result.toOption := by
    rw [reply?_withOutcome, if_pos rfl]
  rw [delivered_eq, show (s.withOutcome place result).moves = s.moves from rfl, hsplit,
    ← List.singleton_append, List.filterMap_append, List.filterMap_append, filterMap_singleton, hown,
    hothers (fun hmem => hbefore place hmem place List.mem_cons_self rfl), hothers hbehind,
    ← List.append_assoc]

/-- A broadcast to remotes whose calls end as in a schedule delivers the same replies, and counts them. -/
theorem toRemotes_perm (s : Schedule) {peers : List (Seat × Remote)} {limits : CallLimits}
    (hroster : peers.map (·.1) = s.roster)
    (hcalls : ∀ place seat remote, peers[place]? = some (seat, remote) →
      s.outcome place = (remote.call seat limits s.request 0).result) :
    (toRemotes peers limits s.request s.channel).1.Perm s.delivered ∧
      (toRemotes peers limits s.request s.channel).2 = s.delivered.length := by
  let ends := peers.zipIdx.map fun peer => (peer.2, peer.1.2.call peer.1.1 limits s.request 0)
  let inOrder := ends.mergeSort fun a b => a.2.time ≤ b.2.time
  have hplaces : (inOrder.map (·.1)).Perm (List.range s.roster.length) := by
    have hrange : ends.map (·.1) = List.range s.roster.length := by
      rw [← hroster, List.length_map, List.range_eq_range', List.map_map]
      exact List.zipIdx_map_snd 0 peers
    rw [← hrange]
    exact (List.mergeSort_perm ends _).map _
  have hends : inOrder.map (fun ended => (ended.1, ended.2.result)) =
      (inOrder.map (·.1)).map fun place => (place, s.outcome place) := by
    rw [List.map_map]
    refine List.map_congr_left fun ended hmem => ?_
    obtain ⟨⟨⟨seat, remote⟩, place'⟩, hpeer, heq⟩ := List.mem_map.mp (List.mem_mergeSort.mp hmem)
    subst heq
    exact congrArg (Prod.mk place') (hcalls _ _ _ (List.mem_zipIdx_iff_getElem?.mp hpeer)).symm
  obtain ⟨hsound, hempty⟩ := s.sound_opened.carryOut s.unused (hplaces.nodup_iff.mpr List.nodup_range)
    fun place hplace => List.mem_range.mp (hplaces.mem_iff.mp hplace)
  have hremotes : toRemotes peers limits s.request s.channel =
      ((carryOut (inOrder.map fun ended => (ended.1, ended.2.result)) s.opened).1,
        (carryOut (inOrder.map fun ended => (ended.1, ended.2.result)) s.opened).2.succeeded) := by
    rw [opened, ← hroster]
    rfl
  have hperm : ((inOrder.map (·.1)).filterMap s.reply?).Perm s.delivered :=
    (hplaces.filterMap _).trans s.delivered_perm.symm
  have hreplies := hsound.replies
  have hsucceeded := hsound.succeeded
  rw [hempty, List.append_nil, List.nil_append, List.nil_append] at hreplies
  rw [List.nil_append] at hsucceeded
  rw [hremotes, hends]
  exact ⟨(List.Perm.of_eq hreplies).trans hperm, hsucceeded.trans hperm.length_eq⟩

/-- **Broadcasts count what they deliver.**  Every entry of the roster is called once, with the same request,
names that stand in it twice included, and nobody is called again.  In whatever order the calls end, and
whenever the receiver takes replies in between, it gets the replies of the calls that succeed, one of each, and
nothing of the others; then, and not before all calls have ended, the channel ends, and the count of the
broadcast is the number of these replies.  Whichever way one call ends, the replies of the others are the same.
Broadcasting to remotes whose calls end in these ways, in the order of their times, delivers the same replies
and counts them. -/
theorem deliveries_counted (s : Schedule) :
    (s.opened.calls.map (·.place) = List.range s.roster.length ∧ s.opened.calls.map (·.seat) = s.roster ∧
      ∀ call ∈ s.opened.calls, call.request = s.request) ∧
    (∀ sofar, sofar <+: s.moves → (s.after sofar).broadcast.calls =
      s.opened.calls.filter fun call => !(ended sofar).contains call.place) ∧
    s.delivered = (ended s.moves).filterMap s.reply? ∧
    s.delivered.Perm ((List.range s.roster.length).filterMap s.reply?) ∧
    s.drained.receive.1 = .closed ∧
    s.last.join? = some s.delivered.length ∧
    (∀ sofar, sofar <+: s.moves → (ended sofar).length < s.roster.length →
      (s.after sofar).broadcast.join? = none ∧ (s.after sofar).broadcast.receive.1 ≠ .closed) ∧
    (∀ place < s.roster.length, ∃ earlier later, ∀ result,
      (s.withOutcome place result).delivered = earlier ++ result.toOption.toList ++ later) ∧
    ∀ (peers : List (Seat × Remote)) (limits : CallLimits), peers.map (·.1) = s.roster →
      (∀ place seat remote, peers[place]? = some (seat, remote) →
        s.outcome place = (remote.call seat limits s.request 0).result) →
      (toRemotes peers limits s.request s.channel).1.Perm s.delivered ∧
        (toRemotes peers limits s.request s.channel).2 = s.delivered.length :=
  ⟨⟨s.places_opened, s.seats_opened, fun _ => s.request_opened⟩,
    fun _ hsofar => (s.sound_of_isPrefix hsofar).calls, s.delivered_eq, s.delivered_perm, s.receive_drained,
    s.join?_last, fun _ => s.unfinished, fun _ => s.delivered_withOutcome, fun _ _ => s.toRemotes_perm⟩

/-- Three entries, two of one name: one of these grants its vote late, the other is not connected, and `kira`
refuses early. -/
def twins : List (Seat × Remote) :=
  [(⟨⟨1, "opal", "opal:1", none⟩, true⟩, ⟨"opal", 2000000, .grant⟩),
    (⟨⟨2, "opal", "opal:2", none⟩, false⟩, ⟨"opal", 0, .grant⟩),
    (⟨⟨3, "kira", "kira:1", none⟩, true⟩, ⟨"kira", 1000000, .deny⟩)]

/-- The calls to the twins end in the reverse order of the roster, and the receiver takes a reply when the first
has ended. -/
def twinSchedule (limits : CallLimits) (request : Request) : Schedule where
  roster := twins.map (·.1)
  request
  channel := Pipe.ofCapacity 3
  outcome place :=
    match twins[place]? with
    | some (seat, remote) => (remote.call seat limits request 0).result
    | none => .error .notConnected
  moves := [.ends 2, .takes, .ends 1, .ends 0]
  room := by decide
  unused := rfl
  alive := rfl
  complete := by decide

/-- Two of the three calls succeed. -/
theorem deliveries_counted_twins :
    let limits : CallLimits := ⟨100000000, none⟩
    let request := Request.vote ⟨7, "jade", 0, 0⟩
    let s := twinSchedule limits request
    s.delivered = [.vote ⟨"kira", 7, false⟩, .vote ⟨"opal", 7, true⟩] ∧ s.last.join? = some 2 ∧
      (s.after [.ends 2, .takes, .ends 1]).broadcast.join? = none ∧
      twins.map (·.1) = s.roster ∧
      (toRemotes twins limits request s.channel).1.Perm s.delivered := by
  intro limits request s
  obtain ⟨-, -, -, -, -, hcount, hearly, -, hremotes⟩ := deliveries_counted s
  have hdelivered : s.delivered = [.vote ⟨"kira", 7, false⟩, .vote ⟨"opal", 7, true⟩] := by decide +kernel
  refine ⟨hdelivered, by rw [hcount, hdelivered]; rfl, ?_, rfl, ?_⟩
  · exact (hearly [.ends 2, .takes, .ends 1] ⟨[.ends 0], rfl⟩ (by decide)).1
  · refine (hremotes twins limits rfl fun place seat remote hpeer => ?_).1
    show (match twins[place]? with
      | some (seat, remote) => (remote.call seat limits request 0).result
      | none => .error .notConnected) = _
    rw [hpeer]
    rfl

end Schedule

end Broadcast

end RaftReplica
