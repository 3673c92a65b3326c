import RaftReplica.Event.Basic
import RaftReplica.Proofs.Time.Rounds
import RaftReplica.Random.ChaCha

/-!
# The course of a ticker

Time goes by, interrupts are sent, somebody reads the stream, the task runs now and then, and at some time it
is told to stop: all of this may come in any order.  What happens in the course of it is written down with the
time at which it happens, and what is written down obeys a law.

* `Ticker.Mark` is what is written down.  A history holds the latest mark first.
* `Ticker.Follows` says what may be written down next, and `Ticker.Lawful` of which histories all marks may.
* `Ticker.Course` is a ticker with its history, `Course.step` what one move does to both, and `Course.run` what
  many do.
* `Course.Sound` is what the ticker and its history have to do with one another, which every move keeps.
* `Ticker.run_law` sums up.
-/

namespace RaftReplica

/-- What a receiver finds, with something else in place of the item. -/
def Received.map {α β : Type} (f : α → β) : Received α → Received β
  | item value => item (f value)
  | pending => pending
  | closed => closed

namespace Ticker

/-! ## What happens to a ticker -/

/-- Why a wait starts. -/
inductive Cause where
  | start
  /-- An interrupt has been seen. -/
  | interrupt
  /-- The wait before is over, which puts a tick on the stream or finds one there. -/
  | expiry (ticks : Bool)
deriving DecidableEq

/-- What happens to a ticker. -/
inductive Happening where
  /-- An interrupt is sent. -/
  | interrupted
  /-- A wait starts. -/
  | armed (cause : Cause) (deadline : Nat)
  /-- The task sees that it is to stop. -/
  | ended
  /-- Somebody reads the stream. -/
  | received (found : Received Event)
deriving DecidableEq

/-- Something that has happened at some time. -/
structure Mark where
  time : Nat
  what : Happening
deriving DecidableEq

namespace Happening

def isInterrupt : Happening → Bool
  | interrupted => true
  | _ => false

def seesInterrupt : Happening → Bool
  | armed .interrupt _ => true
  | _ => false

def arms : Happening → Bool
  | armed .. => true
  | _ => false

/-- Whether a tick is put on the stream. -/
def ticks : Happening → Bool
  | armed (.expiry ticks) _ => ticks
  | _ => false

/-- Whether a tick is taken off the stream. -/
def takes : Happening → Bool
  | received (.item _) => true
  | _ => false

def ends : Happening → Bool
  | ended => true
  | _ => false

def deadline? : Happening → Option Nat
  | armed _ deadline => some deadline
  | _ => none

def found? : Happening → Option (Received Event)
  | received found => some found
  | _ => none

end Happening

variable {history earlier later : List Mark} {mark : Mark}

/-- How often something has happened. -/
def count (p : Happening → Bool) (history : List Mark) : Nat :=
  history.countP fun mark => p mark.what

/-- When the last wait is over that has started. -/
def due? (history : List Mark) : Option Nat := history.findSome? fun mark => mark.what.deadline?

/-- What has been found on the stream. -/
def found (history : List Mark) : List (Received Event) :=
  history.filterMap fun mark => mark.what.found?

/-- A tick has been put on the stream and has not been taken. -/
def Unread (history : List Mark) : Prop := count Happening.takes history < count Happening.ticks history

instance (history : List Mark) : Decidable (Unread history) :=
  inferInstanceAs (Decidable (_ < _))

@[simp] theorem count_nil (p : Happening → Bool) : count p [] = 0 := rfl

@[simp] theorem count_cons (p : Happening → Bool) (mark : Mark) (history : List Mark) :
    count p (mark :: history) = count p history + if p mark.what then 1 else 0 :=
  List.countP_cons

theorem count_append (p : Happening → Bool) (later earlier : List Mark) :
    count p (later ++ earlier) = count p later + count p earlier :=
  List.countP_append

variable {δ : Type} [DelaySource δ]

/-- The source after some delays have been taken. -/
def sourceAfter (delays : δ) : Nat → δ
  | 0 => delays
  | j + 1 => (DelaySource.delay (sourceAfter delays j)).2

/-- The delay of that number in the order in which they are taken. -/
def delayAt (delays : δ) (j : Nat) : Nat :=
  (DelaySource.delay (sourceAfter delays j)).1.nanoseconds

/-! ## The law -/

/-- What may happen at a time, after all that has happened before. -/
inductive Follows (tick : Tick) (delays : δ) (earlier : List Mark) (time : Nat) : Happening → Prop
  | interrupted : Follows tick delays earlier time .interrupted
  | seen (working : count Happening.ends earlier = 0)
      (sent : count Happening.seesInterrupt earlier < count Happening.isInterrupt earlier) :
      Follows tick delays earlier time
        (.armed .interrupt (time + delayAt delays (count Happening.arms earlier)))
  | expired (working : count Happening.ends earlier = 0) {due : Nat} (last : due? earlier = some due)
      (passed : due ≤ time) (quiet : count Happening.seesInterrupt earlier = count Happening.isInterrupt earlier)
      {ticks : Bool} (room : ticks = true ↔ ¬ Unread earlier) :
      Follows tick delays earlier time
        (.armed (.expiry ticks) (time + delayAt delays (count Happening.arms earlier)))
  | ended (working : count Happening.ends earlier = 0) : Follows tick delays earlier time .ended
  | item (unread : Unread earlier) :
      Follows tick delays earlier time (.received (.item (Event.ofTick tick)))
  | pending (read : ¬ Unread earlier) (working : count Happening.ends earlier = 0) :
      Follows tick delays earlier time (.received .pending)
  | closed (read : ¬ Unread earlier) (ended : 0 < count Happening.ends earlier) :
      Follows tick delays earlier time (.received .closed)

/-- A history that begins with the first wait, and in which everything follows on what was before. -/
inductive Lawful (tick : Tick) (delays : δ) : List Mark → Prop
  | start (now : Nat) : Lawful tick delays [⟨now, .armed .start (now + delayAt delays 0)⟩]
  | next {earlier : List Mark} {time : Nat} {what : Happening} (before : Lawful tick delays earlier)
      (late : ∀ mark ∈ earlier, mark.time ≤ time) (follows : Follows tick delays earlier time what) :
      Lawful tick delays (⟨time, what⟩ :: earlier)

namespace Lawful

variable {tick : Tick} {delays : δ}

/-- What holds of a history held of it at all times. -/
theorem of_append (h : Lawful tick delays (later ++ mark :: earlier)) :
    Lawful tick delays (mark :: earlier) := by
  induction later with
  | nil => exact h
  | cons last later ih =>
    -- only the first mark stands alone
    cases hrest : later ++ mark :: earlier with
    | nil => simp at hrest
    | cons second rest =>
      rw [List.cons_append, hrest] at h
      cases h with
      | next before => exact ih (hrest ▸ before)

/-- The first wait is the first thing to happen, and whatever else happens follows on something. -/
theorem cons_cases (h : Lawful tick delays (mark :: earlier)) :
    earlier = [] ∧ mark = ⟨mark.time, .armed .start (mark.time + delayAt delays 0)⟩ ∨
      Lawful tick delays earlier ∧ (∀ past ∈ earlier, past.time ≤ mark.time) ∧
        Follows tick delays earlier mark.time mark.what := by
  cases h with
  | start now => exact Or.inl ⟨rfl, rfl⟩
  | next before late follows => exact Or.inr ⟨before, late, follows⟩

theorem pairwise (h : Lawful tick delays history) :
    history.Pairwise fun mark past => past.time ≤ mark.time := by
  induction h with
  | start now => exact List.pairwise_singleton _ _
  | next before late follows ih => exact List.pairwise_cons.mpr ⟨late, ih⟩

/-- There has been a wait from the start. -/
theorem count_arms_pos (h : Lawful tick delays history) : 0 < count Happening.arms history := by
  induction h with
  | start now => exact Nat.one_pos
  | next before late follows ih =>
    rw [count_cons]
    omega

/-- No tick is taken that has not been put on the stream, and none is put there before the last has been
taken. -/
theorem ticks_le (h : Lawful tick delays history) :
    count Happening.takes history ≤ count Happening.ticks history ∧
      count Happening.ticks history ≤ count Happening.takes history + 1 := by
  induction h with
  | start now => exact ⟨Nat.le_refl 0, Nat.zero_le 1⟩
  | next before late follows ih =>
    cases follows with
    | @expired working due last passed quiet ticks room =>
      cases ticks with
      | true =>
        have hread := room.mp rfl
        unfold Unread at hread
        simp [Happening.takes, Happening.ticks]
        omega
      | false => simpa [Happening.takes, Happening.ticks] using ih
    | item unread =>
      unfold Unread at unread
      simp [Happening.takes, Happening.ticks]
      omega
    | interrupted | seen | ended | pending | closed =>
      simpa [Happening.takes, Happening.ticks] using ih

/-- No interrupt is seen that has not been sent. -/
theorem seesInterrupt_le (h : Lawful tick delays history) :
    count Happening.seesInterrupt history ≤ count Happening.isInterrupt history := by
  induction h with
  | start now => exact Nat.le_refl 0
  | next before late follows ih =>
    rw [count_cons, count_cons]
    cases follows with
    | seen working sent => exact sent
    | interrupted => exact Nat.le_succ_of_le ih
    | expired | ended | item | pending | closed => exact ih

/-- With delays that are not below some least one, the last wait is not over until that long after every
wait has started. -/
theorem add_le_due (h : Lawful tick delays history) {least : Nat}
    (hleast : ∀ j, least ≤ delayAt delays j) :
    ∃ due, due? history = some due ∧
      ∀ mark ∈ history, mark.what.arms = true → mark.time + least ≤ due := by
  induction h with
  | start now =>
    refine ⟨_, rfl, fun mark hmark _ => ?_⟩
    rw [List.mem_singleton.mp hmark]
    exact Nat.add_le_add_left (hleast 0) now
  | @next earlier time what before late follows ih =>
    have hnew : ∀ j, ∀ mark ∈ (⟨time, what⟩ : Mark) :: earlier,
        mark.time + least ≤ time + delayAt delays j := by
      intro j mark hmark
      have htime : mark.time ≤ time := by
        rcases List.mem_cons.mp hmark with rfl | hmark
        · exact Nat.le_refl _
        · exact late mark hmark
      exact Nat.add_le_add htime (hleast j)
    have hold : what.arms = false → due? (⟨time, what⟩ :: earlier) = due? earlier →
        ∃ due, due? (⟨time, what⟩ :: earlier) = some due ∧
          ∀ mark ∈ (⟨time, what⟩ : Mark) :: earlier, mark.what.arms = true →
            mark.time + least ≤ due := by
      intro hwhat hdue
      obtain ⟨due, hlast, hall⟩ := ih
      refine ⟨due, hdue.trans hlast, fun mark hmark harms => ?_⟩
      rcases List.mem_cons.mp hmark with rfl | hmark
      · rw [hwhat] at harms
        cases harms
      · exact hall mark hmark harms
    cases follows with
    | seen | expired => exact ⟨_, rfl, fun mark hmark _ => hnew _ mark hmark⟩
    | interrupted | ended | item | pending | closed => exact hold rfl rfl

/-- The first wait starts with the ticker, and every wait takes the next delay. -/
theorem armed {time : Nat} {cause : Cause} {deadline : Nat}
    (h : Lawful tick delays (⟨time, .armed cause deadline⟩ :: earlier)) :
    (cause = .start ↔ earlier = []) ∧
      deadline = time + delayAt delays (count Happening.arms earlier) := by
  cases h with
  | start now => exact ⟨⟨fun _ => rfl, fun _ => rfl⟩, rfl⟩
  | next before late follows =>
    have hbefore : earlier ≠ [] := by
      rintro rfl
      exact Nat.lt_irrefl 0 before.count_arms_pos
    cases follows with
    | seen | expired => exact ⟨⟨nofun, fun hnone => absurd hnone hbefore⟩, rfl⟩

/-- A wait ends when its time has come and all interrupts have been seen, and ticks if there is room. -/
theorem expired {time : Nat} {ticks : Bool} {deadline : Nat}
    (h : Lawful tick delays (⟨time, .armed (.expiry ticks) deadline⟩ :: earlier)) :
    (∃ due, due? earlier = some due ∧ due ≤ time) ∧
      count Happening.seesInterrupt earlier = count Happening.isInterrupt earlier ∧
      (ticks = true ↔ ¬ Unread earlier) ∧
      ∀ least, (∀ j, least ≤ delayAt delays j) →
        ∀ mark ∈ earlier, mark.what.arms = true → mark.time + least ≤ time := by
  cases h with
  | next before late follows =>
    cases follows with
    | expired working last passed quiet room =>
      refine ⟨⟨_, last, passed⟩, quiet, room, ?_⟩
      intro least hleast mark hmark harms
      obtain ⟨due, hdue, hall⟩ := before.add_le_due hleast
      obtain rfl := Option.some.inj (hdue.symm.trans last)
      exact Nat.le_trans (hall mark hmark harms) passed

/-- Whoever reads the stream takes the tick that waits there. -/
theorem received {time : Nat} {item : Received Event}
    (h : Lawful tick delays (⟨time, .received item⟩ :: earlier)) :
    item = if Unread earlier then .item (Event.ofTick tick)
      else if 0 < count Happening.ends earlier then .closed else .pending := by
  cases h with
  | next before late follows =>
    cases follows with
    | item unread => rw [if_pos unread]
    | pending read working => rw [if_neg read, if_neg (by omega)]
    | closed read ended => rw [if_neg read, if_pos ended]

/-- Once the task has ended no wait starts, and nobody finds anything but the end of the stream and, before
that, a tick that has been left there. -/
theorem after_ended (h : Lawful tick delays (later ++ earlier))
    (hended : 0 < count Happening.ends earlier) :
    count Happening.arms later = 0 ∧ count Happening.ticks later = 0 ∧
      ((¬ Unread earlier ∧ count Happening.takes later = 0 ∧
          ∃ n, found later = List.replicate n .closed) ∨
        (Unread earlier ∧ count Happening.takes later = 0 ∧ found later = []) ∨
        (Unread earlier ∧ count Happening.takes later = 1 ∧
          ∃ n, found later = List.replicate n .closed ++ [.item (Event.ofTick tick)])) := by
  have hbound : count Happening.ticks earlier ≤ count Happening.takes earlier + 1 := by
    cases earlier with
    | nil => cases hended
    | cons mark earlier => exact h.of_append.ticks_le.2
  induction later with
  | nil =>
    refine ⟨rfl, rfl, ?_⟩
    by_cases hunread : Unread earlier
    · exact Or.inr (Or.inl ⟨hunread, rfl, rfl⟩)
    · exact Or.inl ⟨hunread, rfl, 0, rfl⟩
  | cons mark later ih =>
    obtain ⟨time, what⟩ := mark
    have hended' : 0 < count Happening.ends (later ++ earlier) := by
      rw [count_append]
      omega
    rw [List.cons_append] at h
    obtain ⟨hnone, -⟩ | ⟨hbefore, -, hfollows⟩ := h.cons_cases
    · rw [hnone] at hended'
      cases hended'
    replace hfollows : Follows tick delays (later ++ earlier) time what := hfollows
    obtain ⟨harms, hticks, hleft⟩ := ih hbefore
    have hunread : Unread (later ++ earlier) ↔
        count Happening.takes later + count Happening.takes earlier < count Happening.ticks earlier := by
      rw [Unread, count_append, count_append, hticks, Nat.zero_add]
    have hfound : ∀ n rest, found later = List.replicate n .closed ++ rest →
        found (⟨time, .received .closed⟩ :: later) = List.replicate (n + 1) .closed ++ rest := by
      intro n rest hrest
      rw [List.replicate_succ, List.cons_append, ← hrest]
      rfl
    cases hfollows with
    | interrupted => exact ⟨harms, hticks, hleft⟩
    | seen working | expired working | ended working | pending _ working => omega
    | item unread =>
      refine ⟨harms, hticks, ?_⟩
      rw [hunread] at unread
      obtain ⟨hread, htakes, -⟩ | ⟨hunread', htakes, hrest⟩ | ⟨-, htakes, -⟩ := hleft
      · rw [htakes, Nat.zero_add] at unread
        exact absurd unread hread
      · refine Or.inr (Or.inr ⟨hunread', ?_, 0, ?_⟩)
        · rw [count_cons, htakes]
          rfl
        · show _ :: found later = _
          rw [hrest]
          rfl
      · omega
    | closed read =>
      refine ⟨harms, hticks, ?_⟩
      rw [hunread] at read
      obtain ⟨hread, htakes, n, hrest⟩ | ⟨hunread', htakes, -⟩ | ⟨hunread', htakes, n, hrest⟩ := hleft
      · refine Or.inl ⟨hread, htakes, n + 1, ?_⟩
        rw [← List.append_nil (List.replicate n _)] at hrest
        rw [hfound n _ hrest, List.append_nil]
      · rw [htakes, Nat.zero_add] at read
        exact absurd hunread' read
      · exact Or.inr (Or.inr ⟨hunread', htakes, n + 1, hfound n _ hrest⟩)

end Lawful

/-! ## Moves -/

/-- What may be done to a ticker, or next to it. -/
inductive Move where
  /-- Time goes by. -/
  | advance (time : Nat)
  /-- Somebody sends an interrupt. -/
  | interrupt
  /-- Somebody reads the stream. -/
  | receive
  /-- The task goes through one round of its loop. -/
  | look
  /-- The task runs until it has to wait. -/
  | poll
  /-- The task is told to stop, by whoever holds the ticker, or lets go of it, or holds what it depends on. -/
  | stop
deriving DecidableEq

/-- A ticker at some time, and what has happened to it so far. -/
structure Course (δ : Type) where
  ticker : Ticker δ
  now : Nat
  history : List Mark

/-- What is written down of a round that finds something. -/
def Sight.happening (before after : Ticker δ) : Sight → Happening
  | .stop => .ended
  | .interrupt => .armed .interrupt after.deadline
  | .expiry => .armed (.expiry (!before.waiting)) after.deadline

namespace Course

/-- A ticker that starts at `now`. -/
def start (delays : δ) (now : Nat) : Course δ :=
  let ticker := Ticker.start delays now
  ⟨ticker, now, [⟨now, .armed .start ticker.deadline⟩]⟩

/-- Something happens that makes the ticker what it is then. -/
def record (c : Course δ) (ticker : Ticker δ) (what : Happening) : Course δ :=
  ⟨ticker, c.now, ⟨c.now, what⟩ :: c.history⟩

/-- The task goes through one round. -/
def look (c : Course δ) : Course δ :=
  match c.ticker.sight? c.now with
  | some sight =>
    let ticker := c.ticker.act c.now sight
    c.record ticker (sight.happening c.ticker ticker)
  | none => c

/-- What a move does.  When the task is polled, what is written down is what its rounds find. -/
def step (tick : Tick) (c : Course δ) : Move → Course δ
  | .advance time => { c with now := c.now + time }
  | .interrupt => c.record c.ticker.interrupt .interrupted
  | .receive =>
    let (found, ticker) := c.ticker.receive
    c.record ticker (.received (found.map fun _ => Event.ofTick tick))
  | .look => c.look
  | .poll => { Nat.repeat look (c.ticker.interrupts + 1) c with ticker := c.ticker.poll c.now }
  | .stop => { c with ticker := c.ticker.stop }

/-- What some moves do one after the other, to a ticker that starts at `begins`. -/
def run (tick : Tick) (delays : δ) (begins : Nat) (moves : List Move) : Course δ :=
  moves.foldl (step tick) (start delays begins)

variable {c : Course δ} {tick : Tick} {delays : δ}

theorem ticker_look (c : Course δ) : c.look.ticker = c.ticker.look c.now ∧ c.look.now = c.now := by
  unfold look Ticker.look
  cases c.ticker.sight? c.now with
  | some sight => exact ⟨rfl, rfl⟩
  | none => exact ⟨rfl, rfl⟩

theorem ticker_repeat_look (c : Course δ) (rounds : Nat) :
    (Nat.repeat look rounds c).ticker =
        Nat.repeat (fun t : Ticker δ => t.look c.now) rounds c.ticker ∧
      (Nat.repeat look rounds c).now = c.now := by
  induction rounds with
  | zero => exact ⟨rfl, rfl⟩
  | succ rounds ih =>
    obtain ⟨hticker, hnow⟩ := (Nat.repeat look rounds c).ticker_look
    rw [Nat.repeat, hticker, hnow, ih.1, ih.2]
    exact ⟨rfl, rfl⟩

/-- The rounds that are written down are those that the task goes through when it is polled. -/
theorem step_poll (tick : Tick) (c : Course δ) :
    c.step tick .poll = Nat.repeat look (c.ticker.interrupts + 1) c := by
  have hticker := (c.ticker_repeat_look (c.ticker.interrupts + 1)).1
  rw [← poll_eq_repeat_look] at hticker
  unfold step
  rw [← hticker]

/-- What a ticker and its history have to do with one another. -/
structure Sound (tick : Tick) (delays : δ) (c : Course δ) : Prop where
  lawful : Lawful tick delays c.history
  past : ∀ mark ∈ c.history, mark.time ≤ c.now
  source : c.ticker.delays = sourceAfter delays (count Happening.arms c.history)
  due : due? c.history = some c.ticker.deadline
  sent : count Happening.seesInterrupt c.history + c.ticker.interrupts =
    count Happening.isInterrupt c.history
  unread : c.ticker.waiting = true ↔ Unread c.history
  ended : c.ticker.ended = true ↔ 0 < count Happening.ends c.history

theorem sound_start (tick : Tick) (delays : δ) (now : Nat) : (start delays now).Sound tick delays := by
  constructor
  · exact .start now
  · intro mark hmark
    rw [List.mem_singleton.mp hmark]
    exact Nat.le_refl now
  · rfl
  · rfl
  · rfl
  · exact ⟨nofun, fun h => absurd h (Nat.lt_irrefl 0)⟩
  · exact ⟨nofun, fun h => absurd h (Nat.lt_irrefl 0)⟩

namespace Sound

variable (h : c.Sound tick delays)
include h

/-- What follows on the history may be written down, if the ticker keeps up with it. -/
theorem record {ticker : Ticker δ} {what : Happening}
    (hfollows : Follows tick delays c.history c.now what)
    (hsource : ticker.delays =
      sourceAfter delays (count Happening.arms c.history + if what.arms then 1 else 0))
    (hdue : due? (⟨c.now, what⟩ :: c.history) = some ticker.deadline)
    (hsent : (count Happening.seesInterrupt c.history + if what.seesInterrupt then 1 else 0) +
      ticker.interrupts = count Happening.isInterrupt c.history + if what.isInterrupt then 1 else 0)
    (hunread : ticker.waiting = true ↔
      (count Happening.takes c.history + if what.takes then 1 else 0) <
        count Happening.ticks c.history + if what.ticks then 1 else 0)
    (hended : ticker.ended = true ↔
      0 < count Happening.ends c.history + if what.ends then 1 else 0) :
    (c.record ticker what).Sound tick delays := by
  constructor
  · exact .next h.lawful h.past hfollows
  · intro mark hmark
    rcases List.mem_cons.mp hmark with rfl | hmark
    · exact Nat.le_refl _
    · exact h.past mark hmark
  · simpa only [Course.record, count_cons] using hsource
  · exact hdue
  · simpa only [Course.record, count_cons] using hsent
  · simpa only [Course.record, Unread, count_cons] using hunread
  · simpa only [Course.record, count_cons] using hended

/-- A wait that starts takes the next delay. -/
theorem rearm :
    (c.ticker.rearm c.now).deadline = c.now + delayAt delays (count Happening.arms c.history) ∧
      (c.ticker.rearm c.now).delays = sourceAfter delays (count Happening.arms c.history + 1) := by
  rw [deadline_rearm, delays_rearm, h.source]
  exact ⟨rfl, rfl⟩

theorem working (hended : c.ticker.ended = false) : count Happening.ends c.history = 0 := by
  refine Nat.eq_zero_of_not_pos fun hsome => ?_
  rw [h.ended.mpr hsome] at hended
  cases hended

theorem look : c.look.Sound tick delays := by
  unfold Course.look
  cases hsight : c.ticker.sight? c.now with
  | none => exact h
  | some sight =>
    obtain ⟨hended, hfinds⟩ := of_sight? hsight
    obtain ⟨hdeadline, hdelays⟩ := h.rearm
    have hworking := h.working hended
    have hsent := h.sent
    cases sight with
    | stop =>
      exact h.record (.ended hworking) h.source h.due h.sent h.unread
        ⟨fun _ => Nat.succ_pos _, fun _ => rfl⟩
    | interrupt =>
      obtain ⟨-, hinterrupts⟩ := hfinds
      have hfollows : Follows tick delays c.history c.now
          (.armed .interrupt (c.ticker.rearm c.now).deadline) := by
        rw [hdeadline]
        exact .seen hworking (by omega)
      refine h.record hfollows hdelays rfl ?_ h.unread h.ended
      show count Happening.seesInterrupt c.history + 1 + (c.ticker.interrupts - 1) =
        count Happening.isInterrupt c.history
      omega
    | expiry =>
      obtain ⟨-, hquiet, hover⟩ := hfinds
      have hroom : (!c.ticker.waiting) = true ↔ ¬ Unread c.history := by
        rw [← h.unread]
        cases c.ticker.waiting <;> decide
      have hfollows : Follows tick delays c.history c.now
          (.armed (.expiry (!c.ticker.waiting)) (c.ticker.rearm c.now).deadline) := by
        rw [hdeadline]
        exact .expired hworking h.due hover (by omega) hroom
      refine h.record hfollows hdelays rfl h.sent ⟨fun _ => ?_, fun _ => rfl⟩ h.ended
      -- there was a tick before, or there is one now
      show count Happening.takes c.history <
        count Happening.ticks c.history + if (!c.ticker.waiting) = true then 1 else 0
      have htaken := h.lawful.ticks_le.1
      by_cases hunread : Unread c.history
      · exact Nat.lt_of_lt_of_le hunread (Nat.le_add_right _ _)
      · rw [if_pos (hroom.mpr hunread)]
        omega

theorem receive : (c.step tick .receive).Sound tick delays := by
  have hstep : c.step tick .receive = c.record c.ticker.receive.2
      (.received (c.ticker.receive.1.map fun _ => Event.ofTick tick)) := rfl
  rw [hstep, Ticker.receive]
  by_cases hwaiting : c.ticker.waiting = true
  · rw [if_pos hwaiting]
    have hbound := h.lawful.ticks_le.2
    refine h.record (.item (h.unread.mp hwaiting)) h.source h.due h.sent ⟨nofun, fun hmore => ?_⟩ h.ended
    have hmore' : count Happening.takes c.history + 1 < count Happening.ticks c.history := hmore
    omega
  · have hread : ¬ Unread c.history := mt h.unread.mpr hwaiting
    rw [if_neg hwaiting]
    by_cases hended : c.ticker.ended = true
    · rw [if_pos hended]
      exact h.record (.closed hread (h.ended.mp hended)) h.source h.due h.sent h.unread h.ended
    · rw [if_neg hended]
      have hworking := h.working (Bool.eq_false_iff.mpr hended)
      exact h.record (.pending hread hworking) h.source h.due h.sent h.unread h.ended

/-- **Every move keeps a ticker and its history together.** -/
theorem step (move : Move) : (c.step tick move).Sound tick delays := by
  cases move with
  | advance time =>
    exact { h with past := fun mark hmark => Nat.le_add_right_of_le (h.past mark hmark) }
  | interrupt =>
    exact h.record .interrupted h.source h.due (congrArg (· + 1) h.sent) h.unread h.ended
  | receive => exact h.receive
  | look => exact h.look
  | poll =>
    rw [step_poll]
    generalize c.ticker.interrupts + 1 = rounds
    induction rounds with
    | zero => exact h
    | succ rounds ih => exact ih.look
  | stop => exact { h with }

end Sound

theorem sound_run (tick : Tick) (delays : δ) (begins : Nat) (moves : List Move) :
    (run tick delays begins moves).Sound tick delays := by
  have hmoves : ∀ c : Course δ, c.Sound tick delays → (moves.foldl (step tick) c).Sound tick delays := by
    induction moves with
    | nil => exact fun c h => h
    | cons move moves ih => exact fun c h => ih _ (h.step move)
  exact hmoves _ (sound_start tick delays begins)

end Course

/-! ## All courses -/

/-- **The law of a ticker's course**, for every source of delays and every order of moves.

* Nothing is written down that happens before what has been written down already.
* The first wait starts with the ticker and every other when an interrupt or the end of a wait is seen.  Each
  takes the next delay, and ends that long after the time at which it starts.
* That a wait is over is seen no earlier than the last wait that has started ends, and only after all the
  interrupts sent so far have been seen.  It puts a tick on the stream unless one waits there already.
* With delays that are not below some least one, as a fixed delay is not below itself, that long has passed
  since every wait before it has started.  So two ticks are at least that far apart, and a tick is at least
  that far from an interrupt that was seen.
* At no time does more than one tick wait to be taken, or have more interrupts been seen than sent.  Whoever
  reads the stream takes the tick that waits there, and finds the end only once the task has ended.
* When the task has ended no wait starts and so no tick is put on the stream.  Whoever reads it takes the tick
  that waits there, if one does, and after that finds the end for ever. -/
theorem run_law (tick : Tick) (delays : δ) (begins : Nat) (moves : List Move) :
    let history := (Course.run tick delays begins moves).history
    history.Pairwise (fun mark past => past.time ≤ mark.time) ∧
    (∀ later earlier time cause deadline,
      history = later ++ ⟨time, .armed cause deadline⟩ :: earlier →
        (cause = .start ↔ earlier = []) ∧
        deadline = time + delayAt delays (count Happening.arms earlier)) ∧
    (∀ later earlier time ticks deadline,
      history = later ++ ⟨time, .armed (.expiry ticks) deadline⟩ :: earlier →
        (∃ due, due? earlier = some due ∧ due ≤ time) ∧
        count Happening.seesInterrupt earlier = count Happening.isInterrupt earlier ∧
        (ticks = true ↔ ¬ Unread earlier) ∧
        ∀ least, (∀ j, least ≤ delayAt delays j) →
          ∀ mark ∈ earlier, mark.what.arms = true → mark.time + least ≤ time) ∧
    (∀ later earlier, history = later ++ earlier →
      count Happening.takes earlier ≤ count Happening.ticks earlier ∧
      count Happening.ticks earlier ≤ count Happening.takes earlier + 1 ∧
      count Happening.seesInterrupt earlier ≤ count Happening.isInterrupt earlier) ∧
    (∀ later earlier time item,
      history = later ++ ⟨time, .received item⟩ :: earlier →
        item = if Unread earlier then .item (Event.ofTick tick)
          else if 0 < count Happening.ends earlier then .closed else .pending) ∧
    (∀ later earlier time, history = later ++ ⟨time, .ended⟩ :: earlier →
      count Happening.arms later = 0 ∧
      ((¬ Unread earlier ∧ ∃ n, found later = List.replicate n .closed) ∨
        (Unread earlier ∧ (found later = [] ∨
          ∃ n, found later = List.replicate n .closed ++ [.item (Event.ofTick tick)])))) := by
  intro history
  have hlawful : Lawful tick delays history := (Course.sound_run tick delays begins moves).lawful
  have hrest : ∀ later mark earlier, history = later ++ mark :: earlier →
      Lawful tick delays (mark :: earlier) := by
    intro later mark earlier hsplit
    rw [hsplit] at hlawful
    exact hlawful.of_append
  refine ⟨hlawful.pairwise, ?_, ?_, ?_, ?_, ?_⟩
  · intro later earlier time cause deadline hsplit
    exact (hrest _ _ _ hsplit).armed
  · intro later earlier time ticks deadline hsplit
    exact (hrest _ _ _ hsplit).expired
  · intro later earlier hsplit
    cases earlier with
    | nil => exact ⟨Nat.le_refl 0, Nat.zero_le 1, Nat.le_refl 0⟩
    | cons mark earlier =>
      obtain ⟨htaken, hput⟩ := (hrest _ _ _ hsplit).ticks_le
      exact ⟨htaken, hput, (hrest _ _ _ hsplit).seesInterrupt_le⟩
  · intro later earlier time item hsplit
    exact (hrest _ _ _ hsplit).received
  · intro later earlier time hsplit
    have hended : 0 < count Happening.ends (⟨time, .ended⟩ :: earlier) := by
      rw [count_cons]
      exact Nat.succ_pos _
    have hsame : Unread (⟨time, .ended⟩ :: earlier) ↔ Unread earlier := by
      rw [Unread, count_cons, count_cons]
      rfl
    rw [hsplit] at hlawful
    obtain ⟨harms, -, hleft⟩ := hlawful.after_ended hended
    rw [hsame] at hleft
    refine ⟨harms, ?_⟩
    obtain ⟨hread, -, hfound⟩ | ⟨hunread, -, hfound⟩ | ⟨hunread, -, hfound⟩ := hleft
    · exact Or.inl ⟨hread, hfound⟩
    · exact Or.inr ⟨hunread, Or.inl hfound⟩
    · exact Or.inr ⟨hunread, Or.inr hfound⟩

/-! ## Fixed delays -/

theorem delayAt_fixed {σ : Type} [WordSource σ] (delay : Duration) (source : σ) (j : Nat) :
    delayAt (Interval.fixed delay source) j = delay.nanoseconds := by
  have hsame : ∀ j, sourceAfter (Interval.fixed delay source) j = Interval.fixed delay source := by
    intro j
    induction j with
    | zero => rfl
    | succ j ih => rw [sourceAfter, ih]; rfl
  rw [delayAt, hsame]
  rfl

def sampleDelays : Interval ChaCha :=
  Interval.fixed (Duration.ofNanoseconds 100) (ChaCha.ofSeed 0)

def sampleMoves : List Move :=
  [.advance 60, .interrupt, .poll, .advance 60, .poll, .advance 45, .poll, .advance 100, .poll,
    .receive, .stop, .poll, .receive, .receive]

/-- A ticker with a fixed delay of a hundred is interrupted at sixty.  It puts a tick on its stream no sooner
than a hundred later, finds it still there when the next is due, and is stopped. -/
theorem run_law_sample :
    let history := (Course.run .election sampleDelays 0 sampleMoves).history
    history =
      [⟨265, .received .closed⟩, ⟨265, .received .closed⟩, ⟨265, .ended⟩,
        ⟨265, .received (.item .electionTimeout)⟩, ⟨265, .armed (.expiry false) 365⟩,
        ⟨165, .armed (.expiry true) 265⟩, ⟨60, .armed .interrupt 160⟩, ⟨60, .interrupted⟩,
        ⟨0, .armed .start 100⟩] ∧
      ∀ mark ∈ history.drop 6, mark.what.arms = true → mark.time + 100 ≤ 165 := by
  intro history
  have hhistory : history =
      [⟨265, .received .closed⟩, ⟨265, .received .closed⟩, ⟨265, .ended⟩,
        ⟨265, .received (.item .electionTimeout)⟩, ⟨265, .armed (.expiry false) 365⟩] ++
      ⟨165, .armed (.expiry true) 265⟩ :: history.drop 6 := by
    decide +kernel
  obtain ⟨-, -, hexpired, -⟩ := run_law .election sampleDelays 0 sampleMoves
  obtain ⟨-, -, -, hapart⟩ := hexpired _ _ _ _ _ hhistory
  refine ⟨by decide +kernel, hapart 100 fun j => ?_⟩
  rw [sampleDelays, delayAt_fixed]
  decide

end Ticker

end RaftReplica
