import RaftReplica.Proofs.Number.Binary64
import RaftReplica.Proofs.Random.Uniform
import RaftReplica.Random.ChaCha
import RaftReplica.Time.Interval

/-!
# Where delays lie

Whatever is done with an interval, its copies included, its delays are chosen in the way it was built with; only
the source of random words changes.  So it is enough to say where the delays of each strategy lie on any source.

* `Use` is what can be done with intervals, and `Pool.Keeps` what is left by it; `keeps_inUse` follows a pool
  through all its uses.
* `Drawn.Spread` is a delay of an evenly spread interval, and `Drawn.Centred` one of an interval that is spread
  normally. `spread_drawn` and `centred_drawn` are about single draws.
* `delays_in_range` puts this together for intervals of all kinds.
-/

namespace RaftReplica

open Binary64 Rounding

variable {σ : Type} [WordSource σ]

namespace Normal

/-- The next samples and the source after them. -/
def samples : ℕ → σ → List Float × σ
  | 0, source => ([], source)
  | count + 1, source =>
    let (z, source) := draw source
    let (rest, source) := samples count source
    (z :: rest, source)

theorem fst_samples_add (count rest : ℕ) (source : σ) : (samples (count + rest) source).1 =
    (samples count source).1 ++ (samples rest (samples count source).2).1 := by
  induction count generalizing source with
  | zero => rw [Nat.zero_add, samples, List.nil_append]
  | succ count ih =>
    rcases hdraw : draw source with ⟨z, next⟩
    rw [Nat.add_right_comm, samples, samples, hdraw]
    exact congrArg (z :: ·) (ih next)

end Normal

/-- As many of the nanoseconds as a word holds, as a float. -/
def Duration.toFloat (d : Duration) : Float := d.nanosecondsClamped.toUInt64.toFloat

namespace Interval

variable {interval : Interval σ}

/-! ## Intervals in use -/

/-- What is done with intervals, each known by its place. -/
inductive Use (σ : Type) where
  | draw (place : ℕ)
  | copy (place : ℕ)
  | reseed (place : ℕ) (source : σ)

/-- A delay with the sources before and after it. -/
structure Drawn (σ : Type) where
  before : σ
  delay : Duration
  after : σ

/-- Intervals and the delays that have been drawn from them. -/
structure Pool (σ : Type) where
  intervals : List (Interval σ)
  drawn : List (Drawn σ)

/-- The next delay that is drawn. -/
def drawn (interval : Interval σ) : Drawn σ := ⟨interval.source, interval.delay.1, interval.delay.2.source⟩

/-- A copy takes the next free place. What is asked of a place without an interval comes to nothing. -/
def Pool.perform (pool : Pool σ) : Use σ → Pool σ
  | .draw place =>
    match pool.intervals[place]? with
    | some interval => ⟨pool.intervals.set place interval.delay.2, pool.drawn ++ [interval.drawn]⟩
    | none => pool
  | .copy place => { pool with intervals := pool.intervals ++ pool.intervals[place]?.toList }
  | .reseed place source => { pool with intervals := pool.intervals.modify place (·.withSource source) }

/-- An interval after some uses. -/
def inUse (interval : Interval σ) (uses : List (Use σ)) : Pool σ := uses.foldl Pool.perform ⟨[interval], []⟩

/-- All intervals follow the strategy, and all delays were drawn from intervals that do. -/
structure Pool.Keeps (pool : Pool σ) (strategy : Strategy) : Prop where
  intervals : ∀ interval ∈ pool.intervals, interval.strategy = strategy
  drawn : ∀ draw ∈ pool.drawn, ∃ interval : Interval σ, interval.strategy = strategy ∧ interval.drawn = draw

/-- Drawing a delay does not change how delays are chosen. -/
theorem strategy_delay (interval : Interval σ) : interval.delay.2.strategy = interval.strategy := by
  fun_cases delay interval <;> rfl

/-- Single uses keep to the strategy. -/
theorem Pool.Keeps.perform {pool : Pool σ} {strategy : Strategy} (h : pool.Keeps strategy) (use : Use σ) :
    (pool.perform use).Keeps strategy := by
  cases use with
  | draw place =>
    simp only [Pool.perform]
    split
    · next interval hplace =>
      have hstrategy := h.intervals interval (List.mem_of_getElem? hplace)
      constructor
      · intro other hother
        rcases List.mem_or_eq_of_mem_set hother with hmem | rfl
        · exact h.intervals other hmem
        · exact (strategy_delay interval).trans hstrategy
      · intro draw hdraw
        rcases List.mem_append.mp hdraw with hmem | hmem
        · exact h.drawn draw hmem
        · exact ⟨interval, hstrategy, (List.mem_singleton.mp hmem).symm⟩
    · exact h
  | copy place =>
    refine ⟨fun interval hinterval => ?_, h.drawn⟩
    rcases List.mem_append.mp hinterval with hmem | hmem
    · exact h.intervals interval hmem
    · exact h.intervals interval (List.mem_of_getElem? (Option.mem_toList.mp hmem))
  | reseed place source =>
    refine ⟨fun interval hinterval => ?_, h.drawn⟩
    obtain ⟨index, hindex⟩ := List.mem_iff_getElem?.mp hinterval
    rw [show (pool.perform (.reseed place source)).intervals = pool.intervals.modify place (·.withSource source)
      from rfl, List.getElem?_modify, Option.map_eq_map, Option.map_eq_some_iff] at hindex
    obtain ⟨other, hother, rfl⟩ := hindex
    have hstrategy := h.intervals other (List.mem_of_getElem? hother)
    split <;> exact hstrategy

/-- Nothing that is done with an interval makes it or its copies choose delays in another way. -/
theorem keeps_inUse (interval : Interval σ) (uses : List (Use σ)) :
    (interval.inUse uses).Keeps interval.strategy := by
  have hstart : (⟨[interval], []⟩ : Pool σ).Keeps interval.strategy := by
    refine ⟨fun other hother => ?_, fun _ hdraw => absurd hdraw List.not_mem_nil⟩
    rw [List.mem_singleton.mp hother]
  rw [inUse]
  -- the induction is on the uses, so it has to be about any pool that they start from
  generalize (⟨[interval], []⟩ : Pool σ) = pool at hstart ⊢
  induction uses generalizing pool with
  | nil => exact hstart
  | cons use uses ih => exact ih _ (hstart.perform use)

/-! ## Even delays -/

/-- A delay of an interval from `least` up to but not including `most` nanoseconds.  What is added to `least` is
what the first word of the source that is accepted stands for, or nothing if as many words as the draw takes are
refused before it.  With no limit to how many are refused it would stay below `most` too. -/
structure Drawn.Spread (draw : Drawn σ) (least most : ℕ) : Prop where
  within : least < most → least ≤ draw.delay.nanoseconds ∧ draw.delay.nanoseconds < most
  sampled : least < most →
    (∃ refused < WordSource.maxRefusals, ∃ offset,
      Uniform.Sampled (most - least) refused draw.before offset draw.after ∧
        draw.delay.nanoseconds = least + offset) ∨
    (∀ {refused offset : ℕ} {last : σ}, Uniform.Sampled (most - least) refused draw.before offset last →
      WordSource.maxRefusals ≤ refused) ∧ draw.delay.nanoseconds = least
  unlimited : least < most → ∀ {refused offset : ℕ} {last : σ},
    Uniform.Sampled (most - least) refused draw.before offset last → least + offset < most
  degenerate : most ≤ least → draw.delay.nanoseconds = least ∧ draw.after = draw.before

-- The source is that of the interval on both sides: spelt in two ways, the draws would be unfolded to compare them.
theorem delay_of_uniform {least most : ℕ} (h : interval.strategy = .uniform least most) :
    interval.delay =
      if most ≤ least then (Duration.ofNanoseconds least, interval)
      else
        (Duration.ofNanoseconds (least + (Uniform.draw (most - least) interval.source).1),
          { interval with source := (Uniform.draw (most - least) interval.source).2 }) := by
  rw [delay, h]

/-- With or without a range, a delay is not below the lower bound. -/
theorem Drawn.Spread.le {draw : Drawn σ} {least most : ℕ} (h : draw.Spread least most) :
    least ≤ draw.delay.nanoseconds := by
  rcases Nat.lt_or_ge least most with hlt | hle
  · exact (h.within hlt).1
  · exact (h.degenerate hle).1.ge

theorem spread_drawn {least most : ℕ} (h : interval.strategy = .uniform least most) (hleast : least ≤ wordMax)
    (hmost : most ≤ wordMax) : interval.drawn.Spread least most := by
  rw [drawn, delay_of_uniform h]
  by_cases hle : most ≤ least
  · rw [if_pos hle]
    refine ⟨fun hlt => absurd hlt hle.not_gt, fun hlt => absurd hlt hle.not_gt,
      fun hlt => absurd hlt hle.not_gt, fun _ => ⟨?_, rfl⟩⟩
    exact Duration.nanoseconds_ofNanoseconds hleast
  · rw [if_neg hle]
    have hpos : 0 < most - least := by omega
    have hlt := Uniform.draw_lt hpos interval.source
    have hcases := Uniform.draw_cases (most - least) interval.source
    generalize (Uniform.draw (most - least) interval.source).1 = offset at hlt hcases ⊢
    generalize (Uniform.draw (most - least) interval.source).2 = after at hcases ⊢
    have hnanoseconds : (Duration.ofNanoseconds (least + offset)).nanoseconds = least + offset :=
      Duration.nanoseconds_ofNanoseconds (by omega)
    refine ⟨fun _ => ?within, fun _ => ?sampled, fun _ _ _ _ hsampled => ?unlimited, fun hle' => absurd hle' hle⟩
    case within =>
      show least ≤ (Duration.ofNanoseconds (least + offset)).nanoseconds ∧
        (Duration.ofNanoseconds (least + offset)).nanoseconds < most
      omega
    case sampled =>
      obtain ⟨refused, hrefused, hsampled⟩ | ⟨hlong, rfl⟩ := hcases
      · exact .inl ⟨refused, hrefused, offset, hsampled, hnanoseconds⟩
      · exact .inr ⟨hlong, hnanoseconds⟩
    case unlimited =>
      have hoffset := hsampled.lt hpos
      omega

/-! ## Normal delays -/

section Normal

variable {mean deviation : Duration} {source : σ}

/-- What is rounded to the nanoseconds of a delay. -/
def sample (mean deviation : Duration) (z : Float) : Float := z * deviation.toFloat + mean.toFloat

/-- The sample is rounded to a positive number of nanoseconds. -/
def Suits (mean deviation : Duration) (z : Float) : Prop := 0.5 ≤ sample mean deviation z

theorem suits_iff {z : Float} : Suits mean deviation z ↔ 0 < nearestWord (sample mean deviation z) :=
  (nearestWord_pos_iff _).symm

/-- The number is that of the nanoseconds of a duration, rounded to a float, or the largest word if it is more. -/
def Rounds (d : Duration) (n : ℕ) : Prop :=
  ∃ rounded : ℕ, Holds d.toFloat rounded ∧ Near rounded d.nanosecondsClamped ∧ n = min rounded wordMax

theorem rounds_floorWord (mean : Duration) : Rounds mean (floorWord mean.toFloat) := by
  obtain ⟨rounded, hholds, hnear⟩ := exists_whole_toFloat mean.nanosecondsClamped.toUInt64
  rw [UInt64.toNat_ofNat_of_lt' (Nat.lt_of_le_of_lt mean.nanosecondsClamped_le (by decide))] at hnear
  refine ⟨rounded, hholds, hnear, ?_⟩
  exact (floorWord_eq hholds).trans (by rw [Nat.floor_natCast])

/-- A positive number of nanoseconds is not rounded to zero. -/
theorem Rounds.pos {n : ℕ} (h : Rounds mean n) (hmean : mean ≠ Duration.zero) : 0 < n := by
  obtain ⟨rounded, -, hnear, rfl⟩ := h
  have hnanoseconds : 1 ≤ mean.nanosecondsClamped := by
    have hne : mean.nanoseconds ≠ 0 := fun hzero => hmean ((Duration.mk.injEq ..).mpr hzero)
    show 1 ≤ min mean.nanoseconds (2 ^ 64 - 1)
    omega
  have hone : (1 : ℚ) ≤ mean.nanosecondsClamped := by exact_mod_cast hnanoseconds
  have hlower := hnear.sub_le
  have hpos : (0 : ℚ) < rounded := by
    norm_num at hlower
    linarith
  exact lt_min (by exact_mod_cast hpos) (by decide)

/-- Samples are drawn until one suits, or until there have been so many, and give a number of nanoseconds: what
the sample that suits is rounded to, or the mean.  A sample is whatever `Normal.draw` gives, which settles for a
fixed one when so many points as `WordSource.maxRefusals` have been refused, where with no limit to them it would
go on.  Nothing here depends on what the samples are. -/
def Attempted (mean deviation : Duration) (limit : ℕ) (before : σ) (n : ℕ) (after : σ) : Prop :=
  ∃ refused z, refused.length < limit ∧
    Normal.samples (refused.length + 1) before = (refused ++ [z], after) ∧
    (∀ y ∈ refused, ¬Suits mean deviation y) ∧
    (Suits mean deviation z ∧ n = nearestWord (sample mean deviation z) ∨
      ¬Suits mean deviation z ∧ refused.length + 1 = limit ∧ Rounds mean n)

/-- A delay of an interval that is spread normally around a mean. -/
structure Drawn.Centred (draw : Drawn σ) (mean deviation : Duration) : Prop where
  positive : 0 < draw.delay.nanoseconds
  attempted : Attempted mean deviation 4 draw.before draw.delay.nanoseconds draw.after
  fallback : (∀ z ∈ (Normal.samples 4 draw.before).1, ¬Suits mean deviation z) →
    Rounds mean draw.delay.nanoseconds

section Attempts

variable {z : Float} {next after : σ} {n : ℕ} (hdraw : Normal.draw source = (z, next))

include hdraw

theorem samples_succ (count : ℕ) : Normal.samples (count + 1) source =
    (z :: (Normal.samples count next).1, (Normal.samples count next).2) := by
  rw [Normal.samples, hdraw]

theorem normalNanoseconds_of_suits (h : Suits mean deviation z) (attempts : ℕ) :
    normalNanoseconds (attempts + 1) mean.toFloat deviation.toFloat source =
      (nearestWord (sample mean deviation z), next) := by
  rw [normalNanoseconds, hdraw]
  exact if_pos (suits_iff.mp h)

theorem normalNanoseconds_of_not_suits (h : ¬Suits mean deviation z) (attempts : ℕ) :
    normalNanoseconds (attempts + 1) mean.toFloat deviation.toFloat source =
      normalNanoseconds attempts mean.toFloat deviation.toFloat next := by
  rw [normalNanoseconds, hdraw]
  exact if_neg fun hpos => h (suits_iff.mpr hpos)

theorem attempted_of_suits (h : Suits mean deviation z) (limit : ℕ) :
    Attempted mean deviation (limit + 1) source (nearestWord (sample mean deviation z)) next :=
  ⟨[], z, Nat.succ_pos limit, samples_succ hdraw 0, fun _ hmem => absurd hmem List.not_mem_nil, .inl ⟨h, rfl⟩⟩

theorem attempted_of_last (h : ¬Suits mean deviation z) (hmean : Rounds mean n) :
    Attempted mean deviation 1 source n next :=
  ⟨[], z, Nat.one_pos, samples_succ hdraw 0, fun _ hmem => absurd hmem List.not_mem_nil, .inr ⟨h, rfl, hmean⟩⟩

theorem Attempted.of_not_suits {limit : ℕ} (hnext : Attempted mean deviation limit next n after)
    (h : ¬Suits mean deviation z) : Attempted mean deviation (limit + 1) source n after := by
  obtain ⟨refused, last, hlength, hsamples, hrefused, hend⟩ := hnext
  refine ⟨z :: refused, last, Nat.succ_lt_succ hlength, ?_, List.forall_mem_cons.mpr ⟨h, hrefused⟩, ?_⟩
  · rw [List.length_cons, samples_succ hdraw, hsamples]
    rfl
  · exact hend.imp_right fun ⟨hlast, hlimit, hmean⟩ => ⟨hlast, congrArg (· + 1) hlimit, hmean⟩

end Attempts

/-- The samples of a draw, by induction on the attempts that are left after the first one. -/
theorem attempted_normalNanoseconds (attempts : ℕ) (source : σ) :
    Attempted mean deviation (attempts + 1) source
      (normalNanoseconds (attempts + 1) mean.toFloat deviation.toFloat source).1
      (normalNanoseconds (attempts + 1) mean.toFloat deviation.toFloat source).2 := by
  induction attempts generalizing source with
  | zero =>
    rcases hdraw : Normal.draw source with ⟨z, next⟩
    by_cases hsuits : Suits mean deviation z
    · rw [normalNanoseconds_of_suits hdraw hsuits]
      exact attempted_of_suits hdraw hsuits 0
    · rw [normalNanoseconds_of_not_suits hdraw hsuits]
      exact attempted_of_last hdraw hsuits (rounds_floorWord mean)
  | succ attempts ih =>
    rcases hdraw : Normal.draw source with ⟨z, next⟩
    by_cases hsuits : Suits mean deviation z
    · rw [normalNanoseconds_of_suits hdraw hsuits]
      exact attempted_of_suits hdraw hsuits (attempts + 1)
    · rw [normalNanoseconds_of_not_suits hdraw hsuits]
      exact (ih next).of_not_suits hdraw hsuits

/-- If no sample suits, the mean is left. -/
theorem Attempted.rounds_of_none {limit n : ℕ} {after : σ} (h : Attempted mean deviation limit source n after)
    (hnone : ∀ z ∈ (Normal.samples limit source).1, ¬Suits mean deviation z) : Rounds mean n := by
  obtain ⟨refused, z, hlength, hsamples, -, ⟨hsuits, -⟩ | ⟨-, -, hrounds⟩⟩ := h
  · obtain ⟨rest, rfl⟩ := Nat.exists_eq_add_of_le (Nat.succ_le_of_lt hlength)
    refine absurd hsuits (hnone z ?_)
    rw [Normal.fst_samples_add, hsamples]
    exact List.mem_append_left _ List.mem_concat_self
  · exact hrounds

theorem delay_of_normal {center width : Float} (h : interval.strategy = .normal center width) :
    interval.delay =
      (Duration.ofNanoseconds (normalNanoseconds maxNormalAttempts center width interval.source).1,
        { interval with source := (normalNanoseconds maxNormalAttempts center width interval.source).2 }) := by
  rw [delay, h]

theorem Attempted.le_wordMax {limit n : ℕ} {after : σ} (h : Attempted mean deviation limit source n after) :
    n ≤ wordMax := by
  obtain ⟨refused, z, -, -, -, ⟨-, rfl⟩ | ⟨-, -, rounded, -, -, rfl⟩⟩ := h
  · exact nearestWord_le _
  · exact Nat.min_le_right _ _

theorem Attempted.pos {limit n : ℕ} {after : σ} (h : Attempted mean deviation limit source n after)
    (hmean : mean ≠ Duration.zero) : 0 < n := by
  obtain ⟨refused, z, -, -, -, ⟨hsuits, rfl⟩ | ⟨-, -, hrounds⟩⟩ := h
  · exact suits_iff.mp hsuits
  · exact hrounds.pos hmean

theorem centred_drawn (h : interval.strategy = .normal mean.toFloat deviation.toFloat)
    (hmean : mean ≠ Duration.zero) : interval.drawn.Centred mean deviation := by
  have hattempted : Attempted mean deviation 4 interval.source
      (normalNanoseconds maxNormalAttempts mean.toFloat deviation.toFloat interval.source).1
      (normalNanoseconds maxNormalAttempts mean.toFloat deviation.toFloat interval.source).2 :=
    attempted_normalNanoseconds 3 interval.source
  rw [drawn, delay_of_normal h]
  generalize (normalNanoseconds maxNormalAttempts mean.toFloat deviation.toFloat interval.source).1 = n
    at hattempted ⊢
  generalize (normalNanoseconds maxNormalAttempts mean.toFloat deviation.toFloat interval.source).2 = after
    at hattempted ⊢
  have hnanoseconds : (Duration.ofNanoseconds n).nanoseconds = n :=
    Duration.nanoseconds_ofNanoseconds hattempted.le_wordMax
  constructor
  · exact hnanoseconds.symm ▸ hattempted.pos hmean
  · exact hnanoseconds.symm ▸ hattempted
  · exact fun hnone => hnanoseconds.symm ▸ hattempted.rounds_of_none hnone

end Normal

/-! ## Intervals of all kinds -/

omit [WordSource σ] in
theorem strategy_jitter {delay : Duration} {factor : Float} {source : σ}
    (h : jitter delay factor source = .ok interval) :
    interval.strategy = .uniform (scaleBounds delay.nanosecondsClamped factor).1
      (scaleBounds delay.nanosecondsClamped factor).2 := by
  rw [jitter] at h
  split at h
  · cases h
  · split at h
    · cases h
      rfl
    · cases h

omit [WordSource σ] in
theorem strategy_normal {mean deviation : Duration} {source : σ}
    (h : normal mean deviation source = .ok interval) :
    mean ≠ Duration.zero ∧ interval.strategy = .normal mean.toFloat deviation.toFloat := by
  rw [normal] at h
  split at h
  · cases h
  · next hmean =>
    split at h
    · cases h
    · cases h
      exact ⟨hmean, rfl⟩

/-- Delays lie where their interval is built to have them, whatever words its sources give and however it is
drawn from, copied and given other sources.  A fixed delay is always the same.  An even one lies from the lower
bound up to but not including the upper one, and is the lower one if that leaves nothing.  A normal one is never
zero; it takes four samples at the most, whatever they are, and is the mean if none of them is rounded to a
positive number.  Even delays are drawn by widening multiplication, in which each result is that of a row of
words, all rows have one length, and no more than half of the words are left out. -/
theorem delays_in_range (source : σ) (uses : List (Use σ)) :
    (∀ delay : Duration, ∀ draw ∈ ((fixed delay source).inUse uses).drawn, draw.delay = delay) ∧
    (∀ min max : Duration, ∀ draw ∈ ((uniform min max source).inUse uses).drawn,
      draw.Spread min.nanosecondsClamped max.nanosecondsClamped) ∧
    (∀ (delay : Duration) (factor : Float) (interval : Interval σ), jitter delay factor source = .ok interval →
      ∀ draw ∈ (interval.inUse uses).drawn, draw.Spread (scaleBounds delay.nanosecondsClamped factor).1
        (scaleBounds delay.nanosecondsClamped factor).2) ∧
    (∀ (mean deviation : Duration) (interval : Interval σ), normal mean deviation source = .ok interval →
      ∀ draw ∈ (interval.inUse uses).drawn, draw.Centred mean deviation) ∧
    ∀ range result : ℕ, result < range → range < 2 ^ 64 →
      2 ^ 63 ≤ range * Uniform.stretch range ∧
        Uniform.first range result + Uniform.stretch range ≤ 2 ^ 64 ∧
        ∀ word : UInt64, Uniform.accept? range word = some result ↔
          Uniform.first range result ≤ word.toNat ∧
            word.toNat < Uniform.first range result + Uniform.stretch range := by
  refine ⟨?fixed, ?uniform, ?jitter, ?normal, ?row⟩
  case fixed =>
    intro delay draw hdraw
    obtain ⟨interval, hstrategy, rfl⟩ := (keeps_inUse _ uses).drawn draw hdraw
    rw [drawn, Interval.delay, hstrategy]
    rfl
  case uniform =>
    intro min max draw hdraw
    obtain ⟨interval, hstrategy, rfl⟩ := (keeps_inUse _ uses).drawn draw hdraw
    exact spread_drawn hstrategy min.nanosecondsClamped_le max.nanosecondsClamped_le
  case jitter =>
    intro delay factor built hbuilt draw hdraw
    obtain ⟨interval, hstrategy, rfl⟩ := (keeps_inUse _ uses).drawn draw hdraw
    exact spread_drawn (hstrategy.trans (strategy_jitter hbuilt)) (floorWord_le _) (ceilWord_le _)
  case normal =>
    intro mean deviation built hbuilt draw hdraw
    obtain ⟨interval, hstrategy, rfl⟩ := (keeps_inUse _ uses).drawn draw hdraw
    obtain ⟨hmean, hnormal⟩ := strategy_normal hbuilt
    exact centred_drawn (hstrategy.trans hnormal) hmean
  case row =>
    intro range result hresult hword
    have hpos : 0 < range := Nat.zero_lt_of_lt hresult
    exact ⟨Uniform.le_mul_stretch hpos, Uniform.first_add_stretch_le hword hresult,
      fun word => Uniform.accept?_eq_some_iff_row hpos hword⟩

/-- Half a second and a half to either side, and half a second with a deviation of a fifth.  The copy goes on as
the interval does, and with the first source it starts again. -/
theorem delays_in_range_seeded :
    let source := ChaCha.ofSeed 42
    let uses := [.draw 0, .copy 0, .draw 1, .reseed 1 (ChaCha.ofSeed 42), .draw 1]
    ∃ jittered centred, jitter (Duration.ofMilliseconds 500) 0.5 source = .ok jittered ∧
      normal (Duration.ofMilliseconds 500) (Duration.ofMilliseconds 100) source = .ok centred ∧
      (jittered.inUse uses).drawn.map (·.delay.nanoseconds) = [513278704, 568232549, 513278704] ∧
      (∀ draw ∈ (jittered.inUse uses).drawn, draw.Spread 250000000 750000000) ∧
      Uniform.first 500000000 263278704 + Uniform.stretch 500000000 ≤ 2 ^ 64 ∧
      (centred.inUse uses).drawn.map (·.delay.nanoseconds) = [506942792, 513293812, 506942792] ∧
      ∀ draw ∈ (centred.inUse uses).drawn,
        draw.Centred (Duration.ofMilliseconds 500) (Duration.ofMilliseconds 100) := by
  intro source uses
  obtain ⟨-, -, hjitter, hnormal, hrow⟩ := delays_in_range source uses
  have hbounds : scaleBounds (Duration.ofMilliseconds 500).nanosecondsClamped 0.5 = (250000000, 750000000) := by
    decide +kernel
  refine ⟨_, _, rfl, rfl, ?_, ?_, (hrow 500000000 263278704 (by decide) (by decide)).2.1, ?_, ?_⟩
  · decide +kernel
  · have hspread := hjitter (Duration.ofMilliseconds 500) 0.5 _ rfl
    rw [hbounds] at hspread
    exact hspread
  · decide +kernel
  · exact hnormal (Duration.ofMilliseconds 500) (Duration.ofMilliseconds 100) _ rfl

end Interval

end RaftReplica
