import Rt64.Kapp.Rt
import Rt64.Lib.Transition

/-!
# The cyclic test

`timerthread` of `kernctest.c` wants to be woken at points in time that are an
interval apart.  In each round it sleeps to the next of them, reads the time, and
keeps statistics of how late it is; then it goes on to the first point that is not in
the past.

A round is one step, with what the processor tells in it: the time and the timer's
count when `tssleepto` computes the sleep, and the time after it.
-/

namespace Rt64.Kapp.Kernctest

open Rt64.Lib.Transition
open Rt64.Kernel.Lapic
open Rt64.Kapp.Rt

/-! ## The code -/

/-- Why the thread does not go on. -/
inductive Fault where
  | panic (text : String)
  | assertion (text : String)
  | fuel
deriving DecidableEq, Repr

/-- The fault, unless the condition holds. -/
def require (fault : Fault) (condition : Prop) [Decidable condition] :
    Except Fault Unit :=
  if condition then .ok () else .error fault

/-- `struct timespec` is a time, in cycles. -/
abbrev Timespec : Type := BitVec 64

def tsinc (dst delta : Timespec) : Except Fault Timespec :=
  if dst < dst + delta then .ok (dst + delta)
  else .error (.assertion "dst->tsc + delta->tsc > dst->tsc")

abbrev tscFreq : BitVec 64 := 2600000000
abbrev usecPerSec : BitVec 64 := 1000000

def tssetus (us : BitVec 32) : Timespec :=
  (us.signExtend 64 * tscFreq).sdiv usecPerSec

/-- `tsdelta`, in microseconds. -/
def tsdelta (t1 t2 : Timespec) : Except Fault (BitVec 64) :=
  let d := t1 - t2
  if d.toInt ≤ 0 then
    .error (.panic ("invalid tsdelta %l = %l - %l\n" ++
      "old_now = %l, slnext = %l, sleep_ticks = %d\n" ++
      "sleep_lapic = %l\n"))
  else
    let d := (d + 2600 - 1).sdiv 2600
    if d ≠ 0 then .ok d else .error (.assertion "d != 0")

def tsgreater (a b : Timespec) : Bool :=
  decide (b < a)

/-- `struct thread_stat`. -/
structure ThreadStat where
  max : BitVec 64
  min : BitVec 64
  act : BitVec 64
  sum : BitVec 64
  cycles : BitVec 32
deriving DecidableEq, Repr

/-- The assignments of `ctestmain`. -/
def ThreadStat.init : ThreadStat where
  max := 0
  min := 100000
  act := 0
  sum := 0
  cycles := 0

/-- The statistics of a round. -/
def ThreadStat.update (stat : ThreadStat) (diff : BitVec 64) : ThreadStat where
  min := if diff.toInt < stat.min.toInt then diff else stat.min
  max := if stat.max.toInt < diff.toInt then diff else stat.max
  act := diff
  sum := stat.sum + diff
  cycles := stat.cycles + 1

/-- The variables of the thread, and those for the message of `tsdelta`. -/
structure Thread where
  now : Timespec
  next : Timespec
  oldNow : BitVec 64
  slnext : BitVec 64
  slept : SleepRecord
  stat : ThreadStat
deriving DecidableEq, Repr

/-- What the processor tells in a round. -/
structure Reading where
  tsc : BitVec 64
  count : BitVec 32
  now : BitVec 64

/-- The loop that goes on to a point that is not in the past. -/
def catchUp (interval now : Timespec) : Nat → Timespec → Except Fault Timespec
  | 0, _ => .error .fuel
  | fuel + 1, next =>
      if tsgreater now next then do
        let next ← tsinc next interval
        catchUp interval now fuel next
      else .ok next

/-- A round of `while (!shutdown)`.  `sleep` panics if the ticks are negative. -/
def round (interval : Timespec) (fuel : Nat) (reading : Reading)
    (thread : Thread) : Except Fault Thread := do
  let oldNow := thread.now
  let slnext := thread.next
  let slept : SleepRecord :=
    { sleepLapic := sleepLapic thread.next reading.tsc reading.count
      sleepTicks := sleepTicks thread.next reading.tsc reading.count }
  require (.panic "cannot sleep %d ticks") (0 ≤ slept.sleepTicks.toInt)
  let now := reading.now
  let diff ← tsdelta now thread.next
  require (.assertion "diff > 0") (0 < diff.toInt)
  let stat := thread.stat.update diff
  let next ← tsinc thread.next interval
  let next ← catchUp interval now fuel next
  return { now, next, oldNow, slnext, slept, stat }

def step (interval : Timespec) (fuel : Nat) (reading : Reading)
    (thread : Thread) : Option (Except Fault Thread) :=
  some (round interval fuel reading thread)

/-- `timerthread` up to its loop. -/
def start (interval now : Timespec) : Except Fault Thread := do
  let next ← tsinc now interval
  return { now, next, oldNow := 0, slnext := 0, slept := ⟨0, 0⟩, stat := .init }

/-! ## Times -/

section Times

theorem ok_bind {α β : Type} (value : α) (next : α → Except Fault β) :
    (Except.ok value >>= next) = next value :=
  rfl

theorem exists_of_bind {α β : Type} {first : Except Fault α}
    {next : α → Except Fault β} {result : β}
    (returns : (first >>= next) = .ok result) :
    ∃ value, first = .ok value ∧ next value = .ok result := by
  cases first with
  | error fault => cases returns
  | ok value => exact ⟨value, rfl, returns⟩

/-- The assertion of `tsinc` excludes a sum that wraps. -/
theorem tsinc_eq_ok_iff {dst delta next : Timespec} :
    tsinc dst delta = .ok next ↔
      0 < delta.toNat ∧ next.toNat = dst.toNat + delta.toNat := by
  unfold tsinc
  constructor
  · intro returns
    split at returns
    · rename_i grows
      cases returns
      bv_omega
    · cases returns
  · rintro ⟨positive, sum⟩
    have same : next = dst + delta := by bv_omega
    rw [if_pos (by bv_omega), same]

theorem toNat_sdiv_2600 {d : BitVec 64} (small : d.toNat < 2 ^ 63) :
    (d.sdiv 2600).toNat = d.toNat / 2600 := by
  have positive : d.msb = false := BitVec.msb_eq_false_iff_two_mul_lt.mpr (by omega)
  have divisor : BitVec.msb (2600 : BitVec 64) = false := by decide
  rw [BitVec.sdiv_eq, positive, divisor]
  exact BitVec.toNat_udiv

/-- How late a time is, in microseconds, rounded up. -/
def lateness (t1 t2 : Timespec) : Nat :=
  (t1.toNat - t2.toNat + 2599) / 2600

/-- `tsdelta` panics unless the first time is the later one. -/
theorem tsdelta_eq_ok_iff {t1 t2 : Timespec} {d : BitVec 64}
    (range : t1.toNat < 2 ^ 62) (range' : t2.toNat < 2 ^ 63) :
    tsdelta t1 t2 = .ok d ↔ t2.toNat < t1.toNat ∧ d.toNat = lateness t1 t2 := by
  unfold tsdelta lateness
  by_cases later : t2.toNat < t1.toNat
  · have difference : (t1 - t2).toNat = t1.toNat - t2.toNat := by bv_omega
    have positive : ¬ (t1 - t2).toInt ≤ 0 := by
      rw [BitVec.toInt_eq_toNat_cond]
      split <;> omega
    have rounded : (t1 - t2 + 2600 - 1).toNat = t1.toNat - t2.toNat + 2599 := by
      bv_omega
    have quotient : ((t1 - t2 + 2600 - 1).sdiv 2600).toNat =
        (t1.toNat - t2.toNat + 2599) / 2600 := by
      rw [toNat_sdiv_2600 (by omega), rounded]
    have nonzero : (t1 - t2 + 2600 - 1).sdiv 2600 ≠ 0 := by
      intro zero
      rw [zero] at quotient
      have : BitVec.toNat (0 : BitVec 64) = 0 := rfl
      omega
    simp only [if_neg positive, if_pos nonzero, later, true_and, Except.ok.injEq,
      ← quotient]
    exact ⟨fun same => same ▸ rfl, fun same => (BitVec.eq_of_toNat_eq same).symm⟩
  · have negative : (t1 - t2).toInt ≤ 0 := by
      rw [BitVec.toInt_eq_toNat_cond]
      split <;> bv_omega
    rw [if_pos negative]
    exact iff_of_false nofun fun ⟨after, _⟩ => later after

/-- The loop stops at the first point that is not in the past. -/
theorem catchUp_eq_ok {interval now next last : Timespec} {fuel : Nat}
    (returns : catchUp interval now fuel next = .ok last) :
    (∃ k, last.toNat = next.toNat + k * interval.toNat) ∧
      now.toNat ≤ last.toNat ∧
      (last = next ∨ last.toNat < now.toNat + interval.toNat) := by
  induction fuel generalizing next with
  | zero => cases returns
  | succ fuel induction =>
      rw [catchUp] at returns
      split at returns
      case isTrue past =>
        have behind : next.toNat < now.toNat := of_decide_eq_true past
        rcases exists_of_bind returns with ⟨middle, grows, rest⟩
        rcases tsinc_eq_ok_iff.mp grows with ⟨_, sum⟩
        rcases induction rest with ⟨⟨k, reached⟩, notPast, near⟩
        refine ⟨⟨k + 1, ?_⟩, notPast, Or.inr ?_⟩
        · rw [reached, sum, Nat.add_mul]
          omega
        · rcases near with rfl | near
          · omega
          · exact near
      case isFalse notPast =>
        have ahead : ¬ next.toNat < now.toNat := fun behind =>
          notPast (decide_eq_true behind)
        cases returns
        exact ⟨⟨0, by omega⟩, by omega, Or.inl rfl⟩

/-- With enough rounds and without a wrap, the loop comes to its end. -/
theorem exists_catchUp {interval now next : Timespec} {fuel : Nat}
    (positive : 0 < interval.toNat)
    (room : now.toNat + interval.toNat < 2 ^ 64)
    (enough : now.toNat ≤ next.toNat + fuel * interval.toNat) :
    ∃ last, catchUp interval now (fuel + 1) next = .ok last := by
  induction fuel generalizing next with
  | zero =>
      have notPast : ¬ tsgreater now next = true := by
        intro past
        have behind : next.toNat < now.toNat := of_decide_eq_true past
        omega
      exact ⟨next, if_neg notPast⟩
  | succ fuel induction =>
      rw [catchUp]
      by_cases past : tsgreater now next = true
      · have behind : next.toNat < now.toNat := of_decide_eq_true past
        have sum : (next + interval).toNat = next.toNat + interval.toNat := by
          bv_omega
        have grows := tsinc_eq_ok_iff.mpr ⟨positive, sum⟩
        rw [Nat.add_mul] at enough
        rcases @induction (next + interval) (by omega) with ⟨last, loops⟩
        refine ⟨last, ?_⟩
        rw [if_pos past, grows]
        exact loops
      · exact ⟨next, if_neg past⟩

end Times

/-! ## Rounds -/

section Rounds

variable {interval : Timespec} {fuel : Nat} {reading : Reading}
variable {before after : Thread}

/-- What a round that goes well has done. -/
structure Passed (interval : Timespec) (reading : Reading)
    (before after : Thread) : Prop where
  now : after.now = reading.now
  slnext : after.slnext = before.next
  late : before.next.toNat < reading.now.toNat
  stat : ∃ diff : BitVec 64, after.stat = before.stat.update diff ∧
    diff.toNat = lateness reading.now before.next
  grid : ∃ k, 0 < k ∧
    after.next.toNat = before.next.toNat + k * interval.toNat
  notPast : reading.now.toNat ≤ after.next.toNat
  near : after.next.toNat ≤ reading.now.toNat + interval.toNat

theorem passed_of_round (range : reading.now.toNat < 2 ^ 62)
    (range' : before.next.toNat < 2 ^ 63)
    (returns : round interval fuel reading before = .ok after) :
    Passed interval reading before after := by
  rcases exists_of_bind returns with ⟨_, _, returns⟩
  rcases exists_of_bind returns with ⟨diff, measured, returns⟩
  rcases exists_of_bind returns with ⟨_, _, returns⟩
  rcases exists_of_bind returns with ⟨middle, grows, returns⟩
  rcases exists_of_bind returns with ⟨last, loops, returns⟩
  cases returns
  rcases (tsdelta_eq_ok_iff range range').mp measured with ⟨late, rounded⟩
  rcases tsinc_eq_ok_iff.mp grows with ⟨_, sum⟩
  rcases catchUp_eq_ok loops with ⟨⟨k, reached⟩, notPast, near⟩
  refine ⟨rfl, rfl, late, ⟨diff, rfl, rounded⟩, ⟨k + 1, Nat.succ_pos k, ?_⟩,
    notPast, ?_⟩
  · show last.toNat = _
    rw [reached, sum, Nat.add_mul]
    omega
  · show last.toNat ≤ _
    rcases near with rfl | near
    · omega
    · omega

/-- A round in which the sleep ends late goes well. -/
theorem exists_round (positive : 0 < interval.toNat)
    (range : reading.now.toNat < 2 ^ 62)
    (range' : before.next.toNat < 2 ^ 63) (small : interval.toNat < 2 ^ 62)
    (sleeps : 0 ≤ (sleepTicks before.next reading.tsc reading.count).toInt)
    (late : before.next.toNat < reading.now.toNat)
    (enough : reading.now.toNat ≤ before.next.toNat + fuel * interval.toNat) :
    ∃ after, round interval (fuel + 1) reading before = .ok after ∧
      after.slept.sleepTicks =
        sleepTicks before.next reading.tsc reading.count := by
  have measured := (@tsdelta_eq_ok_iff reading.now before.next
    (BitVec.ofNat 64 (lateness reading.now before.next)) range range').mpr
      ⟨late, by
        rw [BitVec.toNat_ofNat, lateness]
        omega⟩
  have counted : 0 <
      (BitVec.ofNat 64 (lateness reading.now before.next)).toInt := by
    rw [BitVec.toInt_eq_toNat_cond, BitVec.toNat_ofNat, lateness]
    split <;> omega
  have sum : (before.next + interval).toNat =
      before.next.toNat + interval.toNat := by
    bv_omega
  have grows := tsinc_eq_ok_iff.mpr ⟨positive, sum⟩
  rcases @exists_catchUp interval reading.now (before.next + interval) fuel positive
    (by omega) (by omega) with ⟨last, loops⟩
  refine ⟨⟨reading.now, last, before.now, before.next,
    ⟨sleepLapic before.next reading.tsc reading.count,
      sleepTicks before.next reading.tsc reading.count⟩,
    before.stat.update (BitVec.ofNat 64 (lateness reading.now before.next))⟩, ?_,
    rfl⟩
  simp only [round, require, if_pos sleeps, ok_bind, measured, if_pos counted,
    grows, loops]
  rfl

end Rounds

/-! ## Statistics -/

/-- The statistics of a list of latencies. -/
def statOf (lates : List Nat) (stat : ThreadStat) : ThreadStat :=
  lates.foldl (fun stat late => stat.update (BitVec.ofNat 64 late)) stat

section Statistics

variable {lates : List Nat}

theorem statOf_cycles (stat : ThreadStat) :
    (statOf lates stat).cycles = stat.cycles + BitVec.ofNat 32 lates.length := by
  induction lates generalizing stat with
  | nil => exact (BitVec.add_zero _).symm
  | cons late lates induction =>
      rw [statOf, List.foldl_cons, ← statOf, induction, List.length_cons,
        Nat.add_comm lates.length, BitVec.ofNat_add, ← BitVec.add_assoc]
      rfl

theorem statOf_sum (stat : ThreadStat) :
    (statOf lates stat).sum = stat.sum + BitVec.ofNat 64 lates.sum := by
  induction lates generalizing stat with
  | nil => exact (BitVec.add_zero _).symm
  | cons late lates induction =>
      rw [statOf, List.foldl_cons, ← statOf, induction, List.sum_cons,
        BitVec.ofNat_add, ← BitVec.add_assoc]
      rfl

/-- A positive `long`. -/
theorem toInt_of_small {d : BitVec 64} (small : d.toNat < 2 ^ 63) :
    d.toInt = d.toNat := by
  rw [BitVec.toInt_eq_toNat_cond, if_pos (by omega)]

theorem statOf_max (small : ∀ late ∈ lates, late < 2 ^ 63) (stat : ThreadStat)
    (range : stat.max.toNat < 2 ^ 63) :
    (statOf lates stat).max.toNat = lates.foldl max stat.max.toNat := by
  induction lates generalizing stat with
  | nil => rfl
  | cons late lates induction =>
      have first := small late List.mem_cons_self
      have number : (BitVec.ofNat 64 late).toNat = late := by
        rw [BitVec.toNat_ofNat]
        omega
      have updated : (stat.update (BitVec.ofNat 64 late)).max.toNat =
          max stat.max.toNat late := by
        show (if _ then _ else _ : BitVec 64).toNat = _
        rw [toInt_of_small range, toInt_of_small (by omega), number]
        split <;> omega
      rw [statOf, List.foldl_cons, ← statOf, List.foldl_cons, ← updated]
      exact induction (fun next inside =>
        small next (List.mem_cons_of_mem _ inside)) _ (by omega)

theorem statOf_min (small : ∀ late ∈ lates, late < 2 ^ 63) (stat : ThreadStat)
    (range : stat.min.toNat < 2 ^ 63) :
    (statOf lates stat).min.toNat = lates.foldl min stat.min.toNat := by
  induction lates generalizing stat with
  | nil => rfl
  | cons late lates induction =>
      have first := small late List.mem_cons_self
      have number : (BitVec.ofNat 64 late).toNat = late := by
        rw [BitVec.toNat_ofNat]
        omega
      have updated : (stat.update (BitVec.ofNat 64 late)).min.toNat =
          min stat.min.toNat late := by
        show (if _ then _ else _ : BitVec 64).toNat = _
        rw [toInt_of_small range, toInt_of_small (by omega), number]
        split <;> omega
      rw [statOf, List.foldl_cons, ← statOf, List.foldl_cons, ← updated]
      exact induction (fun next inside =>
        small next (List.mem_cons_of_mem _ inside)) _ (by omega)

end Statistics

/-! ## Runs -/

/-- How late the thread was in each round of a run. -/
def lates (steps : List (Reading × Thread)) : List Nat :=
  steps.map fun entry => lateness entry.1.now entry.2.slnext

/-- The points that the rounds of a run have slept to. -/
def points (steps : List (Reading × Thread)) : List Nat :=
  steps.map fun entry => entry.2.slnext.toNat

/-- Between two rounds, the next point is at most an interval away. -/
structure Ready (interval : Timespec) (thread : Thread) : Prop where
  notPast : thread.now.toNat ≤ thread.next.toNat
  near : thread.next.toNat ≤ thread.now.toNat + interval.toNat
  range : thread.now.toNat < 2 ^ 62

section Runs

variable {interval : Timespec} {fuel : Nat} {first last : Thread}
variable {steps : List (Reading × Thread)}

/-- The points of a run lie on a grid. -/
structure Kept (interval : Timespec) (first last : Thread)
    (steps : List (Reading × Thread)) : Prop where
  ready : Ready interval last
  grid : ∃ k, steps.length ≤ k ∧
    last.next.toNat = first.next.toNat + k * interval.toNat
  late : ∀ entry ∈ steps, entry.2.slnext.toNat < entry.1.now.toNat ∧
    ∃ k, entry.2.slnext.toNat = first.next.toNat + k * interval.toNat
  ascending : (points steps ++ [last.next.toNat]).Pairwise (· < ·)
  stat : last.stat = statOf (lates steps) first.stat

/-- No point of a run is before the first one. -/
theorem Kept.first_le (kept : Kept interval first last steps) {point : Nat}
    (inside : point ∈ points steps ++ [last.next.toNat]) :
    first.next.toNat ≤ point := by
  rcases List.mem_append.mp inside with earlier | isLast
  · rcases List.mem_map.mp earlier with ⟨entry, entered, rfl⟩
    rcases (kept.late entry entered).2 with ⟨k, place⟩
    rw [place]
    exact Nat.le_add_right _ _
  · rcases kept.grid with ⟨k, -, place⟩
    rw [List.mem_singleton.mp isLast, place]
    exact Nat.le_add_right _ _

theorem kept_of_path (positive : 0 < interval.toNat)
    (small : interval.toNat < 2 ^ 62)
    (path : Path (step interval fuel) first steps last)
    (range : ∀ entry ∈ steps, entry.1.now.toNat < 2 ^ 62)
    (ready : Ready interval first) : Kept interval first last steps := by
  induction path with
  | nil thread =>
      exact ⟨ready, ⟨0, Nat.le_refl _, by omega⟩, by simp,
        List.pairwise_singleton _ _, rfl⟩
  | @cons first second last reading steps head rest induction =>
      have near := ready.near
      have inRange := ready.range
      have now := range _ List.mem_cons_self
      have passed := passed_of_round now (by omega) (Option.some.inj head)
      have kept := induction
        (fun entry inside => range entry (List.mem_cons_of_mem _ inside))
        ⟨passed.now ▸ passed.notPast, passed.now ▸ passed.near,
          passed.now ▸ now⟩
      rcases passed.grid with ⟨k, forward, next⟩
      rcases kept.grid with ⟨k', many, reached⟩
      refine ⟨kept.ready, ⟨k' + k, ?_, ?_⟩, ?_, ?_, ?_⟩
      · rw [List.length_cons]
        omega
      · rw [reached, next, Nat.add_mul]
        omega
      · intro entry inside
        rcases List.mem_cons.mp inside with rfl | later
        · show second.slnext.toNat < reading.now.toNat ∧
            ∃ k, second.slnext.toNat = _
          rw [passed.slnext]
          exact ⟨passed.late, 0, by omega⟩
        · rcases kept.late entry later with ⟨late, k'', point⟩
          refine ⟨late, k'' + k, ?_⟩
          rw [point, next, Nat.add_mul]
          omega
      · -- the later points are not before the one that this round goes on to
        refine List.pairwise_cons.mpr ⟨fun point later => ?_, kept.ascending⟩
        have after := kept.first_le later
        have moved : 0 < k * interval.toNat := Nat.mul_pos forward positive
        show second.slnext.toNat < point
        rw [passed.slnext]
        omega
      · rcases passed.stat with ⟨diff, updated, rounded⟩
        have number : diff =
            BitVec.ofNat 64 (lateness reading.now second.slnext) := by
          rw [passed.slnext, ← rounded, BitVec.ofNat_toNat, BitVec.setWidth_eq]
        rw [kept.stat, updated, number]
        rfl

end Runs

theorem kept_of_start {interval origin : Timespec} {fuel : Nat}
    {first last : Thread} {steps : List (Reading × Thread)}
    (small : interval.toNat < 2 ^ 62) (early : origin.toNat < 2 ^ 62)
    (started : start interval origin = .ok first)
    (path : Path (step interval fuel) first steps last)
    (range : ∀ entry ∈ steps, entry.1.now.toNat < 2 ^ 62) :
    Kept interval first last steps ∧ first.stat = .init ∧
      first.next.toNat = origin.toNat + interval.toNat ∧ 0 < interval.toNat := by
  rcases exists_of_bind started with ⟨next, grows, made⟩
  rcases tsinc_eq_ok_iff.mp grows with ⟨positive, sum⟩
  cases made
  refine ⟨kept_of_path positive small path range ⟨?_, ?_, early⟩, rfl, sum,
    positive⟩
  · show origin.toNat ≤ next.toNat
    omega
  · show next.toNat ≤ origin.toNat + interval.toNat
    omega

/--
In every run of the timer thread that has not panicked, the points it wants to be
woken at are whole intervals after its start, each one is later than all before it,
and each round has been late.  After a round the next point is not in the past and at
most an interval away.  The statistics are those of the latencies in microseconds,
rounded up, with 100000 among those that the minimum is taken of.
-/
theorem deadlines_on_grid {interval origin : Timespec} {fuel : Nat}
    {first last : Thread} {steps : List (Reading × Thread)}
    (small : interval.toNat < 2 ^ 62) (early : origin.toNat < 2 ^ 62)
    (started : start interval origin = .ok first)
    (path : Path (step interval fuel) first steps last)
    (range : ∀ entry ∈ steps, entry.1.now.toNat < 2 ^ 62) :
    (∃ k, steps.length < k ∧
      last.next.toNat = origin.toNat + k * interval.toNat) ∧
    last.now.toNat ≤ last.next.toNat ∧
    last.next.toNat ≤ last.now.toNat + interval.toNat ∧
    (∀ entry ∈ steps, entry.2.slnext.toNat < entry.1.now.toNat ∧
      ∃ k, 0 < k ∧ entry.2.slnext.toNat = origin.toNat + k * interval.toNat) ∧
    (points steps ++ [last.next.toNat]).Pairwise (· < ·) ∧
    last.stat.cycles = BitVec.ofNat 32 steps.length ∧
    last.stat.sum = BitVec.ofNat 64 (lates steps).sum ∧
    last.stat.max.toNat = (lates steps).foldl max 0 ∧
    last.stat.min.toNat = (lates steps).foldl min 100000 := by
  rcases kept_of_start small early started path range with
    ⟨kept, fresh, begins, _⟩
  have bounded : ∀ late ∈ lates steps, late < 2 ^ 63 := by
    intro late inside
    rcases List.mem_map.mp inside with ⟨entry, entered, rfl⟩
    have now := range entry entered
    rw [lateness]
    omega
  have stat : last.stat = statOf (lates steps) .init := fresh ▸ kept.stat
  refine ⟨?_, kept.ready.notPast, kept.ready.near, ?_, kept.ascending, ?_, ?_, ?_,
    ?_⟩
  · rcases kept.grid with ⟨k, many, reached⟩
    refine ⟨k + 1, by omega, ?_⟩
    rw [reached, begins, Nat.add_mul]
    omega
  · intro entry inside
    rcases kept.late entry inside with ⟨late, k, point⟩
    refine ⟨late, k + 1, Nat.succ_pos k, ?_⟩
    rw [point, begins, Nat.add_mul]
    omega
  · rw [stat, statOf_cycles, lates, List.length_map]
    exact BitVec.zero_add _
  · rw [stat, statOf_sum]
    exact BitVec.zero_add _
  · rw [stat]
    exact statOf_max bounded .init (by decide)
  · rw [stat]
    exact statOf_min bounded .init (by decide)

/-- Two rounds with an interval of a millisecond. -/
def sampleReadings : List Reading :=
  [⟨100, 9000000, 23400200⟩, ⟨23400300, 9999000, 49398000⟩]

def sampleThread : Thread where
  now := 0
  next := 2600000
  oldNow := 0
  slnext := 0
  slept := ⟨0, 0⟩
  stat := .init

theorem deadlines_on_grid_two_rounds :
    start (tssetus 1000) 0 = .ok sampleThread ∧
    ∃ last steps, Path (step (tssetus 1000) 16) sampleThread steps last ∧
      last.next.toNat = 19 * 2600000 ∧ lates steps = [8001, 9000] ∧
      points steps = [2600000, 26000000] ∧
      (points steps ++ [last.next.toNat]).Pairwise (· < ·) ∧
      last.stat.cycles = BitVec.ofNat 32 steps.length ∧
      last.stat.max.toNat = (lates steps).foldl max 0 := by
  have started : start (tssetus 1000) 0 = .ok sampleThread := by decide +kernel
  have ran : ((follow (step (tssetus 1000) 16) sampleReadings sampleThread).map
      fun run => (run.2.next.toNat, lates run.1, points run.1,
        run.1.all fun entry => entry.1.now.toNat < 2 ^ 62)) =
      some (19 * 2600000, [8001, 9000], [2600000, 26000000], true) := by
    decide +kernel
  rcases Option.map_eq_some_iff.mp ran with ⟨⟨steps, last⟩, ran', facts⟩
  rcases Prod.mk.inj facts with ⟨next, facts⟩
  rcases Prod.mk.inj facts with ⟨late, facts⟩
  rcases Prod.mk.inj facts with ⟨slept, range⟩
  have path := Path.of_follow ran'
  have run := deadlines_on_grid (by decide) (by decide) started path
    fun entry inside => of_decide_eq_true (List.all_eq_true.mp range entry inside)
  exact ⟨started, last, steps, path, next, late, slept, run.2.2.2.2.1,
    run.2.2.2.2.2.1, run.2.2.2.2.2.2.2.1⟩

/--
A round that starts after the last one, before its point and with more than an
interval to go to the next tick sleeps for one tick; when the tick has come, the
thread is late, it does not panic, and the round passes.
-/
theorem served_round_passes {interval origin : Timespec} {fuel : Nat}
    {first last : Thread} {steps : List (Reading × Thread)}
    (small : interval.toNat * 5 < 2 ^ 62) (early : origin.toNat < 2 ^ 62)
    (started : start interval origin = .ok first)
    (path : Path (step interval (fuel + 1)) first steps last)
    (range : ∀ entry ∈ steps, entry.1.now.toNat < 2 ^ 62) {reading : Reading}
    (later : last.now.toNat ≤ reading.tsc.toNat)
    (ahead : reading.tsc.toNat < last.next.toNat)
    (left : interval.toNat * 5 / 13 < reading.count.toNat)
    (woken : 13 * reading.count.toNat ≤
      5 * (reading.now.toNat - reading.tsc.toNat))
    (range' : reading.now.toNat < 2 ^ 62)
    (enough : reading.now.toNat ≤ last.next.toNat + fuel * interval.toNat) :
    ∃ after, step interval (fuel + 1) reading last = some (.ok after) ∧
      after.slept.sleepTicks = 1 ∧ Passed interval reading last after := by
  rcases kept_of_start (by omega) early started path range with
    ⟨kept, _, _, positive⟩
  have near := kept.ready.near
  have now := kept.ready.range
  have elapsed := elapsed_toNat (show reading.tsc < last.next from ahead)
    (by omega)
  -- the point is at most an interval away, and so the timer gets there first
  have soon : (tscToLapic (last.next - reading.tsc)).toNat <
      reading.count.toNat := by
    omega
  have one := sleepTicks_of_lt soon
  rcases @exists_round interval fuel reading last positive range' (by omega)
      (by omega) (by rw [one]; decide) (by omega) enough with
    ⟨after, passes, slept⟩
  exact ⟨after, congrArg some passes, slept.trans one,
    passed_of_round range' (by omega) passes⟩

theorem served_round_passes_first :
    ∃ after, step (tssetus 1000) 16 ⟨100, 9000000, 23400200⟩ sampleThread =
        some (.ok after) ∧ after.slept.sleepTicks = 1 := by
  rcases @served_round_passes (tssetus 1000) 0 15 _ _ _ (by decide) (by decide)
      (by decide +kernel : start (tssetus 1000) 0 = .ok sampleThread) (.nil _)
      (by simp) ⟨100, 9000000, 23400200⟩ (by decide) (by decide) (by decide)
      (by decide) (by decide) (by decide) with ⟨after, passes, one, _⟩
  exact ⟨after, passes, one⟩

end Rt64.Kapp.Kernctest
