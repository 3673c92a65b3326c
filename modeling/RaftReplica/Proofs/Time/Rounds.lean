import RaftReplica.Time.Ticker

/-!
# The rounds of a ticker's task

The task of a ticker goes round in a loop.  In every round it looks at three things in a fixed order, acts on
the first of them that there is, and starts over; when there is none it waits.  `Ticker.poll` says what comes
of all the rounds that the task goes through until then.  What happens to a ticker between two rounds, such
as an interrupt that comes while others are being seen, can only be told from the rounds themselves.

* `Ticker.sight?` is what a round finds, with `of_sight?` for what must be there then, and `Ticker.look`
  what the round makes of the ticker.
* `Ticker.poll_eq_repeat_look`: to poll the task is to let it go through one round for every interrupt, and
  one more.
-/

namespace RaftReplica.Ticker

/-- What a round finds. -/
inductive Sight where
  /-- The task has been told to stop. -/
  | stop
  | interrupt
  /-- The wait is over. -/
  | expiry
deriving DecidableEq

variable {δ : Type}

/-- What the task finds first at `now`, unless it has to wait or has ended. -/
def sight? (ticker : Ticker δ) (now : Nat) : Option Sight :=
  if ticker.ended then none
  else if ticker.stopping then some .stop
  else if 0 < ticker.interrupts then some .interrupt
  else if ticker.deadline ≤ now then some .expiry
  else none

/-- A task that finds something has not ended, and what it finds is there. -/
theorem of_sight? {ticker : Ticker δ} {now : Nat} {sight : Sight}
    (h : ticker.sight? now = some sight) :
    ticker.ended = false ∧
      match sight with
      | .stop => ticker.stopping = true
      | .interrupt => ticker.stopping = false ∧ 0 < ticker.interrupts
      | .expiry =>
        ticker.stopping = false ∧ ticker.interrupts = 0 ∧ ticker.deadline ≤ now := by
  unfold sight? at h
  split at h
  · cases h
  · rename_i hended
    refine ⟨Bool.eq_false_iff.mpr hended, ?_⟩
    split at h
    · rename_i hstopping
      cases h
      exact hstopping
    · rename_i hstopping
      have hstopping' := Bool.eq_false_iff.mpr hstopping
      split at h
      · rename_i hinterrupts
        cases h
        exact ⟨hstopping', hinterrupts⟩
      · rename_i hinterrupts
        split at h
        · rename_i hover
          cases h
          exact ⟨hstopping', Nat.eq_zero_of_not_pos hinterrupts, hover⟩
        · cases h

variable [DelaySource δ]

/-- What the task does about what it has found. -/
def act (ticker : Ticker δ) (now : Nat) : Sight → Ticker δ
  | .stop => { ticker with ended := true }
  | .interrupt => { ticker.rearm now with interrupts := ticker.interrupts - 1 }
  | .expiry => { ticker.rearm now with waiting := true }

/-- One round at `now`. -/
def look (ticker : Ticker δ) (now : Nat) : Ticker δ :=
  match ticker.sight? now with
  | some sight => ticker.act now sight
  | none => ticker

section

variable (ticker : Ticker δ) (now : Nat)

@[simp] theorem interrupts_rearm : (ticker.rearm now).interrupts = ticker.interrupts := rfl

@[simp] theorem stopping_rearm : (ticker.rearm now).stopping = ticker.stopping := rfl

@[simp] theorem ended_rearm : (ticker.rearm now).ended = ticker.ended := rfl

@[simp] theorem waiting_rearm : (ticker.rearm now).waiting = ticker.waiting := rfl

theorem delays_rearm :
    (ticker.rearm now).delays = (DelaySource.delay ticker.delays).2 := rfl

theorem deadline_rearm :
    (ticker.rearm now).deadline = now + (DelaySource.delay ticker.delays).1.nanoseconds := rfl

end

variable {ticker : Ticker δ} {now : Nat}

theorem look_of_ended (h : ticker.ended = true) : ticker.look now = ticker := by
  rw [look, sight?, if_pos h]

theorem look_of_stopping (hended : ticker.ended = false) (h : ticker.stopping = true) :
    ticker.look now = { ticker with ended := true } := by
  simp [look, sight?, act, hended, h]

theorem look_of_interrupt (hended : ticker.ended = false) (hstopping : ticker.stopping = false)
    (h : 0 < ticker.interrupts) :
    ticker.look now = { ticker.rearm now with interrupts := ticker.interrupts - 1 } := by
  simp [look, sight?, act, hended, hstopping, h]

theorem look_of_quiet (hended : ticker.ended = false) (hstopping : ticker.stopping = false)
    (h : ticker.interrupts = 0) : ticker.look now = ticker.observeExpiry now := by
  by_cases hover : ticker.deadline ≤ now
  · simp [look, sight?, act, observeExpiry, hended, hstopping, h, hover]
  · simp [look, sight?, observeExpiry, hended, hstopping, h, hover]

/-- A task that has ended goes through no more rounds. -/
theorem repeat_look_of_ended (h : ticker.ended = true) (rounds : Nat) :
    Nat.repeat (fun t : Ticker δ => t.look now) rounds ticker = ticker := by
  induction rounds with
  | zero => rfl
  | succ rounds ih => rw [Nat.repeat, ih, look_of_ended h]

/-- A task that is to stop goes through one round. -/
theorem repeat_look_of_stopping (hended : ticker.ended = false) (h : ticker.stopping = true)
    (rounds : Nat) :
    Nat.repeat (fun t : Ticker δ => t.look now) (rounds + 1) ticker = { ticker with ended := true } := by
  induction rounds with
  | zero => exact look_of_stopping hended h
  | succ rounds ih => rw [Nat.repeat, ih, look_of_ended rfl]

/-- Several waits that start at one time leave everything but the wait alone. -/
theorem repeat_rearm (ticker : Ticker δ) (now count : Nat) :
    let t := Nat.repeat (fun t : Ticker δ => t.rearm now) count ticker
    t.interrupts = ticker.interrupts ∧ t.stopping = ticker.stopping ∧ t.ended = ticker.ended := by
  induction count with
  | zero => exact ⟨rfl, rfl, rfl⟩
  | succ count ih => exact ih

/-- The first rounds see one interrupt each. -/
theorem repeat_look_interrupts (hended : ticker.ended = false) (hstopping : ticker.stopping = false)
    {rounds : Nat} (hrounds : rounds ≤ ticker.interrupts) :
    Nat.repeat (fun t : Ticker δ => t.look now) rounds ticker =
      { Nat.repeat (fun t : Ticker δ => t.rearm now) rounds ticker with
        interrupts := ticker.interrupts - rounds } := by
  induction rounds with
  | zero => rfl
  | succ rounds ih =>
    obtain ⟨-, hstopping', hended'⟩ := repeat_rearm ticker now rounds
    rw [Nat.repeat, ih (by omega), look_of_interrupt]
    · rw [Nat.repeat]
      rfl
    · exact hended'.trans hended
    · exact hstopping'.trans hstopping
    · show 0 < ticker.interrupts - rounds
      omega

/-- **To poll the task is to let it go through its rounds**, one for every interrupt that it has not seen,
and one in which it looks whether the wait is over. -/
theorem poll_eq_repeat_look (ticker : Ticker δ) (now : Nat) :
    ticker.poll now =
      Nat.repeat (fun t : Ticker δ => t.look now) (ticker.interrupts + 1) ticker := by
  rcases Bool.eq_false_or_eq_true ticker.ended with hended | hended
  · rw [poll, if_pos hended, repeat_look_of_ended hended]
  rcases Bool.eq_false_or_eq_true ticker.stopping with hstopping | hstopping
  · rw [poll, hended, if_neg Bool.false_ne_true, if_pos hstopping,
      repeat_look_of_stopping hended hstopping]
  obtain ⟨-, hstopping', hended'⟩ := repeat_rearm ticker now ticker.interrupts
  rw [poll, hended, hstopping, if_neg Bool.false_ne_true, if_neg Bool.false_ne_true, Nat.repeat,
    repeat_look_interrupts hended hstopping (Nat.le_refl _), Nat.sub_self, look_of_quiet]
  · rfl
  · exact hended'.trans hended
  · exact hstopping'.trans hstopping
  · rfl

end RaftReplica.Ticker
