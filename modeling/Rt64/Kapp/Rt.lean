import Rt64.Kernel.Lapic

/-!
# Sleeping until a point in time

`tssleepto` turns the time up to a deadline into a number of timer ticks.  It
takes what is left of the current tick from the time and rounds the rest up to
whole ticks, and the tick that is going on is not counted among them.  So the
sleep ends one tick early, except when the deadline lies in the current tick.
A deadline that has passed wraps around before it is scaled, where the test of
the sign no longer sees it.
-/

namespace Rt64.Kapp.Rt

open Rt64.Include.Defs
open Rt64.Kernel.Process
open Rt64.Kernel.Lapic

/-- `TSC_TO_LAPIC`. -/
def tscToLapic (i : BitVec 64) : BitVec 64 :=
  i * 5 / 13

/-- The variables that `tssleepto` sets for the message of `tsdelta`. -/
structure SleepRecord where
  sleepLapic : BitVec 64
  sleepTicks : BitVec 32
  deriving DecidableEq, Repr

/-- The part of `tssleepto` in timer counts; `now` is what `rdtsc` returns, and
`count` what `lapictimercnt` does. -/
def sleepLapic (tsc now : BitVec 64) (count : BitVec 32) : BitVec 64 :=
  let rem := tsc - now
  let rem := tscToLapic rem
  let rem := rem - count.setWidth 64
  if rem.toInt < 0 then 1 else rem

/-- The part of `tssleepto` that rounds up to ticks, as an `int`. -/
def sleepTicks (tsc now : BitVec 64) (count : BitVec 32) : BitVec 32 :=
  let rem := sleepLapic tsc now count
  let rem := (rem + period - 1) / period
  rem.setWidth 32

/-- `tssleepto`, called by the process `cur`. -/
def tssleepto (tsc now : BitVec 64) (count : BitVec 32) (cur : Nat) :
    SleepRecord × List Stmt :=
  ({ sleepLapic := sleepLapic tsc now count
     sleepTicks := sleepTicks tsc now count },
    sleep (sleepTicks tsc now count).toInt cur)

section Ticks

variable {tsc now : BitVec 64} {count : BitVec 32}

theorem tscToLapic_toNat (i : BitVec 64) :
    (tscToLapic i).toNat = i.toNat * 5 % 2 ^ 64 / 13 := by
  simp only [tscToLapic, BitVec.toNat_udiv, BitVec.toNat_mul]
  rfl

/-- The quotient is too small for the sign bit. -/
theorem tscToLapic_lt (i : BitVec 64) : (tscToLapic i).toNat < 2 ^ 61 := by
  rw [tscToLapic_toNat]
  omega

/-- The timer comes to the deadline in the current tick. -/
theorem sleepLapic_of_lt
    (soon : (tscToLapic (tsc - now)).toNat < count.toNat) :
    sleepLapic tsc now count = 1 := by
  have small := count.isLt
  have negative : (tscToLapic (tsc - now) - count.setWidth 64).toInt < 0 := by
    rw [BitVec.toInt_neg_iff, BitVec.toNat_sub, BitVec.toNat_setWidth]
    omega
  exact if_pos negative

theorem sleepLapic_of_ge
    (late : count.toNat ≤ (tscToLapic (tsc - now)).toNat) :
    (sleepLapic tsc now count).toNat =
      (tscToLapic (tsc - now)).toNat - count.toNat := by
  have small := count.isLt
  have bound := tscToLapic_lt (tsc - now)
  have difference : (tscToLapic (tsc - now) - count.setWidth 64).toNat =
      (tscToLapic (tsc - now)).toNat - count.toNat := by
    rw [BitVec.toNat_sub, BitVec.toNat_setWidth]
    omega
  have positive : ¬ (tscToLapic (tsc - now) - count.setWidth 64).toInt < 0 := by
    rw [BitVec.toInt_neg_iff, difference]
    omega
  show (if _ then _ else _ : BitVec 64).toNat = _
  rw [if_neg positive, difference]

/-- The ticks in the current tick's case and in the other. -/
theorem sleepTicks_of_lt
    (soon : (tscToLapic (tsc - now)).toNat < count.toNat) :
    sleepTicks tsc now count = 1 := by
  unfold sleepTicks
  rw [sleepLapic_of_lt soon]
  rfl

theorem sleepTicks_of_ge
    (late : count.toNat ≤ (tscToLapic (tsc - now)).toNat) :
    (sleepTicks tsc now count).toNat =
      ((tscToLapic (tsc - now)).toNat - count.toNat + (10000000 - 1)) /
        10000000 % 2 ^ 32 := by
  have bound := tscToLapic_lt (tsc - now)
  have rounded : (sleepLapic tsc now count + period - 1).toNat =
      (tscToLapic (tsc - now)).toNat - count.toNat + (10000000 - 1) := by
    rw [BitVec.toNat_sub, BitVec.toNat_add, sleepLapic_of_ge late]
    show (2 ^ 64 - 1 + (_ + 10000000) % 2 ^ 64) % 2 ^ 64 = _
    omega
  simp only [sleepTicks, BitVec.toNat_setWidth, BitVec.toNat_udiv, rounded]
  rfl

/-- A positive `int` is no more than the bits it was cut from. -/
theorem toInt_le_of_mod {ticks : BitVec 32} {whole : Nat}
    (cut : ticks.toNat = whole % 2 ^ 32) : ticks.toInt ≤ whole := by
  have fewer := Nat.mod_le whole (2 ^ 32)
  have same := BitVec.toInt_eq_toNat_cond ticks
  split at same <;> omega

/-- The counts up to the last of `whole` ticks, rounded up. -/
theorem short_of_rounded (rest : Nat) :
    (rest + (10000000 - 1)) / 10000000 = 0 ∨
      ((rest + (10000000 - 1)) / 10000000 - 1) * 10000000 < rest := by
  omega

end Ticks

/-- The `k`-th tick from now, which comes after the counts left in the current
tick and `k - 1` periods, is not before the deadline. -/
def WakesLate (tsc now : BitVec 64) (count : BitVec 32) (k : Int) : Prop :=
  1 ≤ k ∧ ((tsc.toNat - now.toNat : Int) * 5 ≤
    13 * (count.toNat + (k - 1) * lapicTimerPeriod.toNat))

instance (tsc now : BitVec 64) (count : BitVec 32) (k : Int) :
    Decidable (WakesLate tsc now count k) :=
  inferInstanceAs (Decidable (_ ∧ _))

theorem elapsed_toNat {tsc now : BitVec 64} (later : now < tsc)
    (range : (tsc.toNat - now.toNat) * 5 < 2 ^ 63) :
    (tscToLapic (tsc - now)).toNat = (tsc.toNat - now.toNat) * 5 / 13 := by
  have ahead : now.toNat < tsc.toNat := later
  rw [tscToLapic_toNat, BitVec.toNat_sub_of_le (BitVec.le_of_lt later)]
  omega

/--
For every deadline in the future and every timer count, the sleep that
`tssleepto` asks for ends at or after the deadline exactly when the deadline is
less than the current count away.
-/
theorem tssleepto_wakes_late_iff (tsc now : BitVec 64) (count : BitVec 32)
    (cur : Nat) (later : now < tsc)
    (range : (tsc.toNat - now.toNat) * 5 < 2 ^ 63) :
    ∃ k, (tssleepto tsc now count cur).2 = sleep k cur ∧
      (WakesLate tsc now count k ↔
        (tsc.toNat - now.toNat) * 5 / 13 < count.toNat) := by
  have elapsed := elapsed_toNat later range
  have ahead : now.toNat < tsc.toNat := later
  refine ⟨(sleepTicks tsc now count).toInt, rfl, ?_, ?_⟩
  · -- a later deadline gets the rounded number of ticks, which is one too small
    rintro ⟨positive, notBefore⟩
    by_contra notSoon
    rw [← elapsed, Nat.not_lt] at notSoon
    have few := toInt_le_of_mod (sleepTicks_of_ge notSoon)
    have short := short_of_rounded
      ((tscToLapic (tsc - now)).toNat - count.toNat)
    have isPeriod : (lapicTimerPeriod.toNat : Int) = 10000000 := rfl
    rw [isPeriod] at notBefore
    omega
  · intro soon
    rw [← elapsed] at soon
    rw [sleepTicks_of_lt soon]
    refine ⟨le_of_eq rfl, ?_⟩
    show _ ≤ 13 * (_ + (1 - 1 : Int) * _)
    omega

/-- A deadline ten counts away, with half a tick to go. -/
theorem tssleepto_wakes_late_half_tick :
    ∃ k, (tssleepto 1026 1000 5000000 1).2 = sleep k 1 ∧
      WakesLate 1026 1000 5000000 k := by
  rcases tssleepto_wakes_late_iff 1026 1000 5000000 1 (by decide)
    (by decide) with ⟨k, asked, wakes⟩
  exact ⟨k, asked, wakes.mpr (by decide)⟩

/--
A deadline a million counts away, with a tenth of that left in the current tick:
the sleep is one tick and ends at the end of the current one.  With the deadline
just at the end of the current tick, there is no sleep at all.
-/
theorem tssleepto_wakes_early :
    (tssleepto 2601000 1000 100000 1).2 = sleep 1 1 ∧
      ¬ WakesLate 2601000 1000 100000 1 ∧
    (tssleepto 1026 1000 10 1).2 = sleep 0 1 ∧
      ¬ WakesLate 1026 1000 10 0 := by
  have one : sleepTicks 2601000 1000 100000 = 1 := by decide +kernel
  have none : sleepTicks 1026 1000 10 = 0 := by decide +kernel
  refine ⟨?_, by decide, ?_, by decide⟩
  · show sleep (sleepTicks 2601000 1000 100000).toInt 1 = _
    rw [one]
    rfl
  · show sleep (sleepTicks 1026 1000 10).toInt 1 = _
    rw [none]
    rfl

theorem toInt_zero_or_one_iff (ticks : BitVec 32) :
    (ticks.toInt = 0 ∨ ticks.toInt = 1) ↔ ticks.toNat ≤ 1 := by
  have small := ticks.isLt
  have same := BitVec.toInt_eq_toNat_cond ticks
  split at same <;> omega

/--
The deadlines that may be missed.  With `late` cycles since the deadline, five
times the time to it has wrapped around `wraps` times.  A thirteenth of the rest
must come, behind the count of the current tick, to at most one tick, or to at most
a tick before or after a multiple of the `2 ^ 32` ticks that an `int` cuts off.
-/
def MissedInTime (late count : Nat) : Prop :=
  ∃ wraps multiple : Nat,
    5 * late ≤ 2 ^ 64 * wraps ∧ 2 ^ 64 * wraps < 5 * late + 2 ^ 64 ∧
    2 ^ 64 * wraps <
      5 * late + 13 * (count + (2 ^ 32 * multiple + 1) * 10000000 + 1) ∧
    (multiple = 0 ∨
      5 * late + 13 * (count + (2 ^ 32 * multiple - 1) * 10000000 + 1) ≤
        2 ^ 64 * wraps)

theorem missedInTime_of_near {late wraps count : Nat}
    (above : 5 * late ≤ 2 ^ 64 * wraps) (below : 2 ^ 64 * wraps < 5 * late + 2 ^ 64)
    (near : 2 ^ 64 * wraps < 5 * late + 13 * (count + 10000000 + 1)) :
    MissedInTime late count :=
  ⟨wraps, 0, above, below, by simpa using near, Or.inl rfl⟩

theorem near_of_soon {late wraps count : Nat}
    (soon : (2 ^ 64 * wraps - 5 * late) / 13 < count) :
    2 ^ 64 * wraps < 5 * late + 13 * (count + 10000000 + 1) := by
  omega

/-- The time to a deadline that was missed, in timer counts. -/
theorem tscToLapic_missed (tsc now : BitVec 64) :
    ∃ wraps, 5 * (now - tsc).toNat ≤ 2 ^ 64 * wraps ∧
      2 ^ 64 * wraps < 5 * (now - tsc).toNat + 2 ^ 64 ∧
      (tscToLapic (tsc - now)).toNat =
        (2 ^ 64 * wraps - 5 * (now - tsc).toNat) / 13 := by
  have range := (now - tsc).isLt
  have opposite : (tsc - now).toNat = (2 ^ 64 - (now - tsc).toNat) % 2 ^ 64 := by
    bv_omega
  refine ⟨(5 * (now - tsc).toNat + (2 ^ 64 - 1)) / 2 ^ 64, by omega, by omega, ?_⟩
  rw [tscToLapic_toNat, opposite]
  omega

/-- How many wraps there are is given by the lateness. -/
theorem wraps_unique {late wraps wraps' : Nat}
    (above : 5 * late ≤ 2 ^ 64 * wraps) (below : 2 ^ 64 * wraps < 5 * late + 2 ^ 64)
    (above' : 5 * late ≤ 2 ^ 64 * wraps')
    (below' : 2 ^ 64 * wraps' < 5 * late + 2 ^ 64) : wraps = wraps' := by
  omega

/-- The rounded number of ticks is 0 or 1 above a multiple of `2 ^ 32`. -/
theorem rounded_mod_iff (rest : Nat) :
    (rest + (10000000 - 1)) / 10000000 % 2 ^ 32 ≤ 1 ↔
      ∃ multiple, rest ≤ (2 ^ 32 * multiple + 1) * 10000000 ∧
        (multiple = 0 ∨ (2 ^ 32 * multiple - 1) * 10000000 < rest) := by
  constructor
  · intro low
    exact ⟨(rest + (10000000 - 1)) / 10000000 / 2 ^ 32, by omega, by omega⟩
  · rintro ⟨multiple, above, first | below⟩
    · omega
    · omega

/--
For every deadline, with the cycles since it was missed, and every timer count: the
sleep that `tssleepto` asks for is none or one tick exactly for the deadlines of
`MissedInTime`.  Those include a deadline that is just reached, and none that was
missed by less than `4 * 10 ^ 15` cycles, which is more than a fortnight.
-/
theorem tssleepto_missed_iff (tsc now : BitVec 64) (count : BitVec 32)
    (cur : Nat) :
    let late := (now - tsc).toNat
    ∃ k, (tssleepto tsc now count cur).2 = sleep k cur ∧
      ((k = 0 ∨ k = 1) ↔ MissedInTime late count.toNat) ∧
      (late = 0 → k = 0 ∨ k = 1) ∧
      (0 < late → late < 4 * 10 ^ 15 → ¬ (k = 0 ∨ k = 1)) := by
  have small := count.isLt
  rcases tscToLapic_missed tsc now with ⟨wraps, above, below, isLapic⟩
  dsimp only
  generalize (now - tsc).toNat = late at above below isLapic ⊢
  have iff : ((sleepTicks tsc now count).toInt = 0 ∨
      (sleepTicks tsc now count).toInt = 1) ↔
        MissedInTime late count.toNat := by
    rcases Nat.lt_or_ge (tscToLapic (tsc - now)).toNat count.toNat with
      soon | notSoon
    · rw [sleepTicks_of_lt soon]
      rw [isLapic] at soon
      exact iff_of_true (Or.inr rfl)
        (missedInTime_of_near above below (near_of_soon soon))
    · rw [toInt_zero_or_one_iff, sleepTicks_of_ge notSoon, rounded_mod_iff]
      rw [isLapic] at notSoon ⊢
      constructor
      · rintro ⟨multiple, upper, lower⟩
        exact ⟨wraps, multiple, above, below, by omega,
          lower.imp_right fun less => by omega⟩
      · rintro ⟨wraps', multiple, above', below', upper, lower⟩
        rcases wraps_unique above below above' below' with rfl
        exact ⟨multiple, by omega, lower.imp_right fun least => by omega⟩
  refine ⟨_, rfl, iff, fun reached => iff.mpr ?_, fun missed short => ?_⟩
  · rw [reached]
    exact @missedInTime_of_near 0 0 count.toNat (by decide) (by decide) (by omega)
  · rw [iff]
    rintro ⟨wraps', multiple, above', below', upper, lower⟩
    obtain rfl : wraps' = 1 := by omega
    omega

/--
A deadline that was missed by one cycle: the sleep is `164110569` ticks, which is
about nineteen days.  For one that was missed by `2 ^ 52` cycles, the number of
ticks is negative, and `sleep` panics.
-/
theorem tssleepto_missed_long_sleep :
    (tssleepto 1000 1001 0 1).2 = sleep 164110569 1 ∧
    ∃ rest, (tssleepto 1000 (1000 + 2 ^ 52) 0 1).2 =
        .check .sleep "cannot sleep %d ticks" (fun _ => false) :: rest := by
  have long : sleepTicks 1000 1001 0 = 164110569 := by decide +kernel
  have negative : sleepTicks 1000 (1000 + 2 ^ 52) 0 = -9104802 := by
    decide +kernel
  refine ⟨?_, ?_⟩
  · show sleep (sleepTicks 1000 1001 0).toInt 1 = _
    rw [long]
    rfl
  · show ∃ rest, sleep (sleepTicks 1000 (1000 + 2 ^ 52) 0).toInt 1 = _
    rw [negative]
    exact ⟨_, rfl⟩

end Rt64.Kapp.Rt
