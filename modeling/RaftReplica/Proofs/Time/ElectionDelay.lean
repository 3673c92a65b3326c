import RaftReplica.Options
import RaftReplica.Proofs.Time.Delay
import RaftReplica.Proofs.Time.Scaling

/-!
# Election delays and heartbeats

Settings are accepted only if the heartbeat and the deadline of a call are below the shortest election timeout.
The delays that elections wait for are drawn from an interval whose lower end is computed in another way, so
that it can be below what was checked.

* `Settings.Accepted` is what the checks leave, as `Settings.validate_eq_ok_iff` says.
* `Interval.le_of_mem_delays`: no delay of an evenly spread interval is below its lower end.
* `Settings.election_delays_clear` says by how much the election delays stay above what was checked.
-/

namespace RaftReplica

namespace Duration

/-- As much of a duration as a word of nanoseconds holds. -/
def clamped (d : Duration) : Duration := ofNanoseconds d.nanosecondsClamped

/-- By how much the shortest election timeout can exceed a delay: one nanosecond for a fraction that is cut off,
and one more for each stretch of some days, since floats do not hold every nanosecond of a long time. -/
def roundingSlack (timeout : Duration) : ℕ := timeout.nanoseconds / 2 ^ 49 + 1

theorem nanoseconds_clamped (d : Duration) : d.clamped.nanoseconds = d.nanosecondsClamped :=
  nanoseconds_ofNanoseconds d.nanosecondsClamped_le

theorem nanoseconds_clamped_le (d : Duration) : d.clamped.nanoseconds ≤ wordMax :=
  d.nanoseconds_clamped.trans_le d.nanosecondsClamped_le

theorem clamped_eq {d : Duration} (hword : d.nanoseconds ≤ wordMax) : d.clamped = d := by
  have hnanoseconds : d.clamped.nanoseconds = d.nanoseconds :=
    d.nanoseconds_clamped.trans (Nat.min_eq_left hword)
  obtain ⟨n, hn⟩ := d
  exact (Duration.mk.injEq ..).mpr hnanoseconds

end Duration

namespace Interval

variable {σ : Type} [WordSource σ] {interval : Interval σ} {least most : ℕ}

theorem le_of_mem_delays (hstrategy : interval.strategy = .uniform least most) (hleast : least ≤ wordMax)
    (hmost : most ≤ wordMax) {count : ℕ} {d : Duration} (hd : d ∈ (interval.delays count).1) :
    least ≤ d.nanoseconds := by
  induction count generalizing interval with
  | zero => cases hd
  | succ count ih =>
    rcases List.mem_cons.mp hd with rfl | hrest
    · exact (spread_drawn hstrategy hleast hmost).le
    · exact ih ((strategy_delay interval).trans hstrategy) hrest

end Interval

namespace Settings

variable {settings : Settings} {options : Options}

/-- What the checks leave, with the shortest election timeout that they see. -/
structure Accepted (settings : Settings) (shortest : Duration) : Prop where
  heartbeat_ne : settings.heartbeat ≠ Duration.zero
  jitter_pos : 0 < settings.electionJitter
  jitter_le : settings.electionJitter ≤ 1
  shortest_eq : settings.minElectionTimeout? = some shortest
  heartbeat_lt : settings.heartbeat < shortest
  rpcTimeout_lt : settings.rpcTimeout < shortest
  bufferSize_ne : settings.bufferSize ≠ 0

theorem problem?_eq_none_iff : settings.problem? = none ↔ ∃ shortest, settings.Accepted shortest := by
  constructor
  · intro h
    simp only [problem?] at h
    split at h
    · cases h
    next hheartbeat =>
    split at h
    · cases h
    next hjitter =>
    split at h
    · cases h
    next shortest hshortest =>
    split at h
    · cases h
    next hlong =>
    split at h
    · cases h
    next hrpc =>
    split at h
    · cases h
    next hbuffer =>
    obtain ⟨hpos, hle⟩ := not_not.mp hjitter
    exact ⟨shortest, hheartbeat, hpos, hle, hshortest, Nat.not_le.mp hlong, Nat.not_le.mp hrpc, hbuffer⟩
  · rintro ⟨shortest, h⟩
    have hjitter : ¬¬(0 < settings.electionJitter ∧ settings.electionJitter ≤ 1) :=
      not_not.mpr ⟨h.jitter_pos, h.jitter_le⟩
    have hlong : ¬shortest ≤ settings.heartbeat := Nat.not_le.mpr h.heartbeat_lt
    have hrpc : ¬shortest ≤ settings.rpcTimeout := Nat.not_le.mpr h.rpcTimeout_lt
    rw [problem?, if_neg h.heartbeat_ne, if_neg hjitter, h.shortest_eq]
    dsimp only
    rw [if_neg hlong, if_neg hrpc, if_neg h.bufferSize_ne]

/-- Validation fills in the defaults and succeeds if nothing is wrong with the outcome. -/
theorem validate_eq_ok_iff : validate options = .ok settings ↔
    settings = ofOptions options ∧ ∃ shortest, settings.Accepted shortest := by
  rw [validate, ← problem?_eq_none_iff]
  cases hproblem : (ofOptions options).problem? with
  | some problem =>
    dsimp only
    constructor
    · intro h
      cases h
    · rintro ⟨rfl, hnone⟩
      rw [hproblem] at hnone
      cases hnone
  | none =>
    dsimp only
    constructor
    · intro h
      cases h
      exact ⟨rfl, hproblem⟩
    · rintro ⟨rfl, -⟩
      rfl

namespace Accepted

variable {shortest : Duration}

/-- No heartbeat is shorter than a part of no time at all, so the timeout is not zero. -/
theorem electionTimeout_ne_zero (h : settings.Accepted shortest) :
    settings.electionTimeout ≠ Duration.zero := by
  intro hzero
  obtain ⟨g, hg, -, hle⟩ := exists_holds_one_sub h.jitter_pos h.jitter_le
  have hupper := Duration.scale?_le hg hle h.shortest_eq
  have hnanoseconds : settings.electionTimeout.nanoseconds = 0 := congrArg Duration.nanoseconds hzero
  have hshortest : shortest.nanoseconds = 0 := by
    rw [hnanoseconds, Nat.cast_zero, mul_zero, mul_zero, zero_add] at hupper
    have hlt : (shortest.nanoseconds : ℚ) < 1 := hupper.trans_lt (by norm_num)
    exact Nat.lt_one_iff.mp (by exact_mod_cast hlt)
  exact Nat.not_lt_zero _ (Nat.lt_of_lt_of_eq h.heartbeat_lt hshortest)

theorem electionInterval_strategy {σ : Type} (h : settings.Accepted shortest) (source : σ) :
    (settings.electionInterval source).strategy =
      .uniform (Interval.scaleBounds settings.electionTimeout.nanosecondsClamped settings.electionJitter).1
        (Interval.scaleBounds settings.electionTimeout.nanosecondsClamped settings.electionJitter).2 := by
  rw [electionInterval, Interval.jitter, if_neg h.electionTimeout_ne_zero,
    if_pos ⟨h.jitter_pos, h.jitter_le⟩]

/-- Election delays are hardly shorter than the shortest timeout, worked out as the check does, of as much of
the timeout as a word of nanoseconds holds. -/
theorem le_add_roundingSlack {σ : Type} [WordSource σ] {source : σ} {count : ℕ} {scaled d : Duration}
    (h : settings.Accepted shortest)
    (hscaled : settings.electionTimeout.clamped.scale? (1 - settings.electionJitter) = some scaled)
    (hd : d ∈ ((settings.electionInterval source).delays count).1) :
    scaled.nanoseconds ≤ d.nanoseconds + settings.electionTimeout.clamped.roundingSlack := by
  have hclose := Duration.scale?_le_scaleBounds h.jitter_pos h.jitter_le
    settings.electionTimeout.nanoseconds_clamped_le hscaled
  rw [Duration.nanoseconds_clamped] at hclose
  have hdelay := Interval.le_of_mem_delays (h.electionInterval_strategy source) (Binary64.floorWord_le _)
    (Binary64.ceilWord_le _) hd
  rw [Duration.roundingSlack, Duration.nanoseconds_clamped]
  omega

end Accepted

/-- Election delays against the heartbeat and the deadline of a call.  The check rounds the shortest timeout to
the nearest nanosecond and takes a timeout of any length; the interval of the delays cuts the fraction off and
takes only as much of the timeout as a word holds.  So a delay can be below the shortest part of that much by
the slack, and what lies further below is below every delay. -/
theorem election_delays_clear (h : validate options = .ok settings) :
    ∃ shortest, settings.electionTimeout.clamped.scale? (1 - settings.electionJitter) = some shortest ∧
      (settings.electionTimeout.nanoseconds ≤ wordMax →
        settings.minElectionTimeout? = some shortest ∧ settings.heartbeat < shortest ∧
          settings.rpcTimeout < shortest) ∧
      ∀ (σ : Type) [WordSource σ] (source : σ) (count : ℕ),
        ∀ d ∈ ((settings.electionInterval source).delays count).1,
          let slack := settings.electionTimeout.clamped.roundingSlack
          shortest.nanoseconds ≤ d.nanoseconds + slack ∧
            (settings.heartbeat.nanoseconds + slack < shortest.nanoseconds → settings.heartbeat < d) ∧
            (settings.rpcTimeout.nanoseconds + slack < shortest.nanoseconds → settings.rpcTimeout < d) ∧
            (settings.electionTimeout.nanoseconds < 2 ^ 49 →
              settings.heartbeat ≤ d ∧ settings.rpcTimeout ≤ d) := by
  obtain ⟨-, checked, haccepted⟩ := validate_eq_ok_iff.mp h
  obtain ⟨g, hg, -, hle⟩ := exists_holds_one_sub haccepted.jitter_pos haccepted.jitter_le
  obtain ⟨shortest, hshortest⟩ :=
    Duration.exists_scale?_eq settings.electionTimeout.nanoseconds_clamped_le hg hle
  have hchecked (hword : settings.electionTimeout.nanoseconds ≤ wordMax) : checked = shortest := by
    rw [Duration.clamped_eq hword] at hshortest
    exact Option.some.inj (haccepted.shortest_eq.symm.trans hshortest)
  refine ⟨shortest, hshortest, ?_, ?_⟩
  · intro hword
    rw [← hchecked hword]
    exact ⟨haccepted.shortest_eq, haccepted.heartbeat_lt, haccepted.rpcTimeout_lt⟩
  · intro σ _ source count d hd
    have hclose := haccepted.le_add_roundingSlack hshortest hd
    refine ⟨hclose, fun hlt => ?_, fun hlt => ?_, fun hshort => ?_⟩
    · change settings.heartbeat.nanoseconds < d.nanoseconds
      omega
    · change settings.rpcTimeout.nanoseconds < d.nanoseconds
      omega
    · have hword : settings.electionTimeout.nanoseconds ≤ wordMax := hshort.le.trans (by decide)
      have hheartbeat : settings.heartbeat.nanoseconds < shortest.nanoseconds :=
        hchecked hword ▸ haccepted.heartbeat_lt
      have hrpc : settings.rpcTimeout.nanoseconds < shortest.nanoseconds :=
        hchecked hword ▸ haccepted.rpcTimeout_lt
      rw [Duration.clamped_eq hword, Duration.roundingSlack, Nat.div_eq_of_lt hshort] at hclose
      exact ⟨Nat.le_of_lt_succ (hheartbeat.trans_le hclose), Nat.le_of_lt_succ (hrpc.trans_le hclose)⟩

/-- By default a delay always lasts longer than a heartbeat and a call. -/
theorem election_delays_clear_default :
    validate .default = .ok (ofOptions .default) ∧
      ∀ (σ : Type) [WordSource σ] (source : σ) (count : ℕ),
        ∀ d ∈ (((ofOptions .default).electionInterval source).delays count).1,
          (ofOptions .default).heartbeat < d ∧ (ofOptions .default).rpcTimeout < d := by
  have haccepted : validate .default = .ok (ofOptions .default) := rfl
  obtain ⟨shortest, hshortest, -, hclear⟩ := election_delays_clear haccepted
  have hhalf : (ofOptions .default).electionTimeout.clamped.scale? (1 - (ofOptions .default).electionJitter) =
      some (Duration.ofMilliseconds 500) := by decide +kernel
  obtain rfl := Option.some.inj (hhalf.symm.trans hshortest)
  refine ⟨haccepted, fun σ _ source count d hd => ?_⟩
  obtain ⟨-, hheartbeat, hrpc, -⟩ := hclear σ source count d hd
  exact ⟨hheartbeat (by decide), hrpc (by decide)⟩

/-- The nominal timeout is three nanoseconds and the jitter takes off two fifths of it.  Its shortest part, one
nanosecond and four fifths, is two nanoseconds for the check, but a delay can be the one nanosecond of the
heartbeat. -/
def hasty : Options where
  heartbeat := some (Duration.ofNanoseconds 1)
  electionTimeout := some (Duration.ofNanoseconds 3)
  electionJitter := some 0.4
  rpcTimeout := some (Duration.ofNanoseconds 1)
  aggregate := none
  bufferSize := none
  seed := some 3
  connect := none

/-- Elections can be due after no more than a heartbeat. -/
theorem election_delay_of_heartbeat :
    ¬∀ (options : Options) (settings : Settings), validate options = .ok settings →
      ∀ (σ : Type) [WordSource σ] (source : σ) (count : ℕ),
        ∀ d ∈ ((settings.electionInterval source).delays count).1,
          settings.heartbeat < d ∧ settings.rpcTimeout < d := by
  intro hclear
  have haccepted : validate hasty = .ok (ofOptions hasty) := rfl
  have hdelays : (((ofOptions hasty).electionInterval (ChaCha.ofSeed 3)).delays 1).1 =
      [Duration.ofNanoseconds 1] := by decide +kernel
  have hlt := (hclear hasty _ haccepted ChaCha (ChaCha.ofSeed 3) 1 (Duration.ofNanoseconds 1)
    (hdelays ▸ List.mem_singleton.mpr rfl)).1
  exact absurd hlt (by decide)

end Settings

end RaftReplica
