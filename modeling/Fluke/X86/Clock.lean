import Fluke.Klib
import Fluke.Library.FixedPoint
import Fluke.Library.Outcome

/-!
# The clock

The time stamp counter counts ticks of an unknown length. At start-up the kernel divides twice to
get the length of a tick in nanoseconds as a 64.64 fixed-point number, and the clock multiplies
twice to get back to nanoseconds.
-/

namespace Fluke

open Outcome

/-- `struct Timer_calibration` -/
structure TimerCalibration where
  periodHigh : ℕ
  periodLow : ℕ
  frequency : ℕ
  offset : ℕ

/-- `udiv`, with the quotient and the remainder. The quotient of a `div` has to fit its register;
the processor faults when the upper word is not below the divisor. -/
def udiv (upper lower divisor : ℕ) : Except Panic (ℕ × ℕ) :=
  if upper < divisor then
    .ok ((upper * 2 ^ 64 + lower) / divisor, (upper * 2 ^ 64 + lower) % divisor)
  else .error .unhandledException

/-- `x86_64_tsc_init`, once the frequency `freq` is known; the counter stands at `rdtsc`. -/
def x86TscInit (freq rdtsc : ℕ) : Except Panic TimerCalibration := do
  let d1 ← udiv 0 1000000000 freq
  let periodHigh := d1.1
  let d2 ← udiv d1.2 0 freq
  let periodLow := d2.1
  .ok { frequency := freq, offset := rdtsc, periodHigh := periodHigh, periodLow := periodLow }

/-- `rdtsc() - tsc_calibration.offset` -/
def TimerCalibration.ticks (c : TimerCalibration) (rdtsc : ℕ) : ℕ := usub rdtsc c.offset

/-- A product of 128 bits -/
def umul128 (a b : ℕ) : ℕ := a * b % 2 ^ 128

/-- `nanoseconds`: the sum is taken with 128 bits and returned with 64. -/
def TimerCalibration.nanoseconds (c : TimerCalibration) (rdtsc : ℕ) : ℕ :=
  let ticks := c.ticks rdtsc
  (umul128 ticks c.periodHigh + umul128 ticks c.periodLow / 2 ^ 64) % 2 ^ 128 % 2 ^ 64

/-- No intermediate result of `nanoseconds` is reduced. -/
structure TimerCalibration.Exact (c : TimerCalibration) (rdtsc : ℕ) : Prop where
  high : c.ticks rdtsc * c.periodHigh < 2 ^ 128
  low : c.ticks rdtsc * c.periodLow < 2 ^ 128
  sum : c.ticks rdtsc * c.periodHigh + c.ticks rdtsc * c.periodLow / 2 ^ 64 < 2 ^ 64

lemma TimerCalibration.ticks_lt (c : TimerCalibration) (rdtsc : ℕ) : c.ticks rdtsc < 2 ^ 64 :=
  Nat.mod_lt _ (by decide)

lemma TimerCalibration.Exact.nanoseconds_eq {c : TimerCalibration} {rdtsc : ℕ}
    (h : c.Exact rdtsc) : c.nanoseconds rdtsc =
      c.ticks rdtsc * c.periodHigh + c.ticks rdtsc * c.periodLow / 2 ^ 64 := by
  have hsum : c.ticks rdtsc * c.periodHigh + c.ticks rdtsc * c.periodLow / 2 ^ 64 < 2 ^ 128 :=
    lt_trans h.sum (by decide)
  rw [TimerCalibration.nanoseconds, umul128, umul128, Nat.mod_eq_of_lt h.high,
    Nat.mod_eq_of_lt h.low, Nat.mod_eq_of_lt hsum, Nat.mod_eq_of_lt h.sum]

lemma udiv_of_lt {upper lower divisor : ℕ} (h : upper < divisor) :
    udiv upper lower divisor =
      .ok ((upper * 2 ^ 64 + lower) / divisor, (upper * 2 ^ 64 + lower) % divisor) :=
  if_pos h

/-- The two divisions do not fault. -/
lemma x86TscInit_eq {freq : ℕ} (hfreq : 0 < freq) (rdtsc : ℕ) :
    x86TscInit freq rdtsc = .ok
      { frequency := freq, offset := rdtsc, periodHigh := 1000000000 / freq,
        periodLow := 1000000000 % freq * 2 ^ 64 / freq } := by
  have hrem : 1000000000 % freq < freq := Nat.mod_lt _ hfreq
  rw [x86TscInit, udiv_of_lt hfreq, ok_bind, Nat.zero_mul, Nat.zero_add]
  dsimp only
  rw [udiv_of_lt hrem, ok_bind, Nat.add_zero]

section

variable {freq offset : ℕ} {c : TimerCalibration}

/-- The two words of the period make up one fixed-point factor. -/
lemma x86TscInit_period (hfreq : 0 < freq) (hc : x86TscInit freq offset = .ok c) (ticks : ℕ) :
    ticks * c.periodHigh + ticks * c.periodLow / 2 ^ 64 =
      FixedPoint.scale (2 ^ 64) (FixedPoint.factor (2 ^ 64) 1000000000 freq) ticks := by
  rw [x86TscInit_eq hfreq, Except.ok.injEq] at hc
  subst hc
  rw [FixedPoint.factor_eq hfreq, FixedPoint.scale_add (by decide)]

/-- Both words of the period fit their fields. -/
lemma x86TscInit_words (hfreq : 0 < freq) (hc : x86TscInit freq offset = .ok c) :
    c.periodHigh < 2 ^ 64 ∧ c.periodLow < 2 ^ 64 := by
  rw [x86TscInit_eq hfreq, Except.ok.injEq] at hc
  rw [← hc]
  constructor
  · exact lt_of_le_of_lt (Nat.div_le_self _ _) (by decide)
  · refine (Nat.div_lt_iff_lt_mul hfreq).mpr ?_
    rw [Nat.mul_comm]
    exact Nat.mul_lt_mul_of_pos_left (Nat.mod_lt _ hfreq) (by decide)

/-- As long as the time fits 64 bits, nothing overflows on the way to it. -/
lemma x86TscInit_exact (hfreq : 0 < freq) (hc : x86TscInit freq offset = .ok c) {rdtsc : ℕ}
    (h : c.ticks rdtsc * 1000000000 / freq < 2 ^ 64) : c.Exact rdtsc := by
  have hticks := c.ticks_lt rdtsc
  have hperiod := x86TscInit_period hfreq hc (c.ticks rdtsc)
  have hle := FixedPoint.scale_factor_le (B := 2 ^ 64) (a := 1000000000) (t := c.ticks rdtsc)
    (by decide) hfreq
  obtain ⟨hhigh, hlow⟩ := x86TscInit_words hfreq hc
  have hproduct : ∀ {word}, word < 2 ^ 64 → c.ticks rdtsc * word < 2 ^ 128 := by
    intro word hword
    have hlt : c.ticks rdtsc * word < 2 ^ 64 * 2 ^ 64 := Nat.mul_lt_mul'' hticks hword
    rwa [← pow_add] at hlt
  refine ⟨hproduct hhigh, hproduct hlow, ?_⟩
  rw [hperiod]
  exact lt_of_le_of_lt hle h

/-- What the clock shows is the exact time in nanoseconds or one less. -/
lemma x86TscInit_accurate (hfreq : 0 < freq) (hc : x86TscInit freq offset = .ok c) {rdtsc : ℕ}
    (h : c.ticks rdtsc * 1000000000 / freq < 2 ^ 64) :
    c.nanoseconds rdtsc ≤ c.ticks rdtsc * 1000000000 / freq ∧
      c.ticks rdtsc * 1000000000 / freq ≤ c.nanoseconds rdtsc + 1 := by
  rw [(x86TscInit_exact hfreq hc h).nanoseconds_eq, x86TscInit_period hfreq hc]
  exact ⟨FixedPoint.scale_factor_le (by decide) hfreq,
    FixedPoint.le_scale_factor_succ (by decide) hfreq (c.ticks_lt rdtsc).le⟩

lemma x86TscInit_monotone (hfreq : 0 < freq) (hc : x86TscInit freq offset = .ok c)
    {rdtsc rdtsc' : ℕ} (h : c.ticks rdtsc' * 1000000000 / freq < 2 ^ 64)
    (hle : c.ticks rdtsc ≤ c.ticks rdtsc') : c.nanoseconds rdtsc ≤ c.nanoseconds rdtsc' := by
  have h' : c.ticks rdtsc * 1000000000 / freq < 2 ^ 64 :=
    lt_of_le_of_lt (Nat.div_le_div_right (Nat.mul_le_mul_right _ hle)) h
  rw [(x86TscInit_exact hfreq hc h).nanoseconds_eq, (x86TscInit_exact hfreq hc h').nanoseconds_eq,
    x86TscInit_period hfreq hc, x86TscInit_period hfreq hc]
  exact FixedPoint.scale_mono _ hle

end

/-- The clock never goes back. -/
def TimerCalibration.MonotoneUpTo (c : TimerCalibration) (rdtsc : ℕ) : Prop :=
  ∀ earlier, c.ticks earlier ≤ c.ticks rdtsc → c.nanoseconds earlier ≤ c.nanoseconds rdtsc

/-- The calibration does not fault. The clock that it sets up is accurate to a nanosecond and
never goes back, as long as the time fits 64 bits. -/
theorem clock_accurate {freq : ℕ} (hfreq : 1 ≤ freq) (offset : ℕ) :
    ∃ c, x86TscInit freq offset = .ok c ∧ c.offset = offset ∧
      ∀ rdtsc, c.ticks rdtsc * 1000000000 / freq < 2 ^ 64 →
        c.Exact rdtsc ∧
        c.nanoseconds rdtsc ≤ c.ticks rdtsc * 1000000000 / freq ∧
        c.ticks rdtsc * 1000000000 / freq ≤ c.nanoseconds rdtsc + 1 ∧
        c.MonotoneUpTo rdtsc := by
  obtain ⟨c, hc⟩ : ∃ c, x86TscInit freq offset = .ok c := ⟨_, x86TscInit_eq hfreq offset⟩
  have hoffset : c.offset = offset := by
    rw [x86TscInit_eq hfreq, Except.ok.injEq] at hc
    rw [← hc]
  refine ⟨c, hc, hoffset, fun rdtsc h => ?_⟩
  obtain ⟨hle, hge⟩ := x86TscInit_accurate hfreq hc h
  exact ⟨x86TscInit_exact hfreq hc h, hle, hge, fun _ => x86TscInit_monotone hfreq hc h⟩

/-- A counter of three gigahertz -/
theorem clock_accurate_three_gigahertz :
    ∃ c, x86TscInit 3000000000 0 = .ok c ∧ c.offset = 0 ∧
      ∀ rdtsc, c.ticks rdtsc * 1000000000 / 3000000000 < 2 ^ 64 →
        c.Exact rdtsc ∧
        c.nanoseconds rdtsc ≤ c.ticks rdtsc * 1000000000 / 3000000000 ∧
        c.ticks rdtsc * 1000000000 / 3000000000 ≤ c.nanoseconds rdtsc + 1 ∧
        c.MonotoneUpTo rdtsc :=
  clock_accurate (by decide) 0

end Fluke
