import Rt64.Kernel.TimerInterrupts
import Rt64.Kernel.WaitingTime

/-!
# How much time passes before a waiting process runs

A process that is `RUNNABLE` waits for the statements of the idle process up to its
dispatch, for the turns of the processes in between, and for the timer traps.  The
kernel does not take the processor away from a process, so how long a turn takes is
up to the processes; if none of them keeps the processor for longer than a slice,
the wait is bounded, and the bound does not depend on what else happens.
-/

namespace Rt64.Kernel.ResponseTime

open Rt64.Lib.Transition
open Rt64.Lib.PeriodicTimer
open Rt64.Lib.PeriodicTimer.System
open Rt64.Include.Defs
open Rt64.Kernel.Process
open Rt64.Kernel.Processor
open Rt64.Kernel.Rounds
open Rt64.Kernel.Scheduler
open Rt64.Kernel.RoundRobin
open Rt64.Kernel.SleepAccounting
open Rt64.Kernel.IdleLoop
open Rt64.Kernel.InterruptLatency
open Rt64.Kernel.WaitingTime
open Rt64.Kernel.TimerInterrupts

/-! ## Turns -/

/--
No process keeps the processor for longer than `slice`; the turn that is going on
began at `start`.  A turn ends with the switch to the idle process.
-/
def Turns (slice : Nat) :
    Nat → Timed Machine → List (Happening Event × Timed Machine) → Prop
  | _, _, [] => True
  | start, timed, (_, next) :: rest =>
      if timed.state.thread = 0 then Turns slice next.now next rest
      else next.now ≤ start + slice ∧ Turns slice start next rest

instance decidableTurns (slice : Nat) :
    (start : Nat) → (timed : Timed Machine) →
      (steps : List (Happening Event × Timed Machine)) →
        Decidable (Turns slice start timed steps)
  | _, _, [] => isTrue trivial
  | start, timed, (_, next) :: rest =>
      have _ := decidableTurns slice next.now next rest
      have _ := decidableTurns slice start next rest
      inferInstanceAs (Decidable (if timed.state.thread = 0 then _ else _ ∧ _))

section Turns

variable {slice start : Nat} {timed next : Timed Machine}
variable {happening : Happening Event}
variable {steps : List (Happening Event × Timed Machine)}
variable (turns : Turns slice start timed ((happening, next) :: steps))
include turns

theorem Turns.early (process : timed.state.thread ≠ 0) :
    next.now ≤ start + slice := by
  rw [Turns, if_neg process] at turns
  exact turns.1

theorem Turns.rest :
    Turns slice (if timed.state.thread = 0 then next.now else start) next
      steps := by
  rw [Turns] at turns
  split at turns
  · rename_i idle
    rwa [if_pos idle]
  · rename_i process
    rw [if_neg process]
    exact turns.2

end Turns

/-- The turns that can still come before the dispatch, `n` statements of the idle
process away. -/
def turnsLeft (n : Nat) : Nat :=
  (n + 4) / 12

/-- The time by which a process is dispatched, `n` statements of the idle process
away, without the timer traps. -/
def due (quantum slice n start : Nat) (timed : Timed Machine) : Nat :=
  if timed.state.thread = 0 then
    timed.now + n * quantum + turnsLeft n * slice
  else start + n * quantum + (turnsLeft n + 1) * slice

theorem turnsLeft_mono {m n : Nat} (less : m ≤ n) :
    turnsLeft m ≤ turnsLeft n :=
  Nat.div_le_div_right (Nat.add_le_add_right less 4)

/-! ## One step -/

section Steps

variable {layout : Layout} {machine machine' : Machine} {q n : Nat}
variable {event : Event}

/-- A statement of the idle process; calls are made by processes only. -/
theorem event_of_idle (idle : machine.thread = 0) (looping : Looping machine)
    (stepped : step layout event machine = some (.ok machine'))
    (notTick : isTick event = false) : event = .run := by
  cases event with
  | run => rfl
  | tick => cases notTick
  | call op =>
      rcases looping.spot idle with ⟨spot, here⟩
      exact absurd (here.code.symm.trans (step_call stepped).1)
        (code_ne_nil spot)

/-- The idle process prints nothing. -/
theorem not_atMessage_of_spot {spot : Spot} (here : spot.At machine) :
    atMessage machine = false := by
  rw [atMessage, here.code]
  cases spot <;> rfl

/-- A dispatch uses up one of the turns. -/
theorem ranked_of_dispatch (ranked : Ranked q machine n)
    (idle : machine.thread = 0)
    (ran : step layout .run machine = some (.ok machine'))
    (leaves : machine'.thread ≠ 0) :
    ∃ m, Ranked q machine' m ∧ m + 1 ≤ n ∧
      turnsLeft m + 1 ≤ turnsLeft n := by
  cases ranked with
  | process process => exact absurd idle process
  | @idle spot _ here =>
      by_cases isSwitch : ∃ p, spot = .switch p
      · rcases isSwitch with ⟨p, rfl⟩
        rcases leaves_of_run here.code ran with rfl
        refine ⟨_, .process leaves, Nat.le_refl _, ?_⟩
        simp only [turnsLeft, rank]
        omega
      · rcases next_of_run here.code (fun p same => isSwitch ⟨p, same⟩) ran with
          ⟨spot', kernel, _, rfl⟩
        exact absurd idle leaves

variable {quantum message period slice start : Nat} {phase : Phase}
variable {timed timed' : Timed Machine} {happening : Happening Event}

/-- The machine has made a step, of `cost`, that was no timer trap. -/
theorem due_of_work {cost : Nat} (good : Good phase timed.state)
    (looping : Looping timed.state) (ranked : Ranked q timed.state n)
    (waits : (timed.state.kernel.procs q).state = .runnable)
    (waits' : (timed'.state.kernel.procs q).state = .runnable)
    (notTick : isTick event = false)
    (stepped : step layout event timed.state = some (.ok timed'.state))
    (now : timed'.now = timed.now + cost)
    (short : timed.state.thread = 0 → cost ≤ quantum)
    (early : timed.state.thread ≠ 0 → timed'.now ≤ start + slice) :
    ∃ m, Ranked q timed'.state m ∧
      due quantum slice m
          (if timed.state.thread = 0 then timed'.now else start) timed' ≤
        due quantum slice n start timed := by
  by_cases idle : timed.state.thread = 0
  · obtain rfl := event_of_idle idle looping stepped notTick
    have quick := short idle
    have later (m : Nat) (less : m + 1 ≤ n) :
        timed'.now + m * quantum ≤ timed.now + n * quantum := by
      have product := Nat.mul_le_mul_right quantum less
      rw [Nat.succ_mul] at product
      omega
    by_cases stays : timed'.state.thread = 0
    · rcases ranked.step good looping stepped waits waits' with
        ⟨m, ranked', less⟩
      rw [if_pos ⟨idle, rfl⟩, Nat.add_comm] at less
      have turns := Nat.mul_le_mul_right slice
        (turnsLeft_mono (Nat.le_of_succ_le less))
      have time := later m less
      refine ⟨m, ranked', ?_⟩
      rw [due, due, if_pos stays, if_pos idle]
      omega
    · rcases ranked_of_dispatch ranked idle stepped stays with
        ⟨m, ranked', less, turn⟩
      have turns := Nat.mul_le_mul_right slice turn
      have time := later m less
      refine ⟨m, ranked', ?_⟩
      rw [due, due, if_neg stays, if_pos idle, if_pos idle]
      omega
  · rcases ranked.step good looping stepped waits waits' with
      ⟨m, ranked', less⟩
    rw [if_neg fun onIdle => idle onIdle.1, Nat.zero_add] at less
    have turns := Nat.mul_le_mul_right slice (turnsLeft_mono less)
    have time := Nat.mul_le_mul_right quantum less
    have end' := early idle
    refine ⟨m, ranked', ?_⟩
    rw [due, due, if_neg idle, if_neg idle, Nat.succ_mul, Nat.succ_mul]
    split
    · omega
    · omega

/-- A timer trap is paid for by itself. -/
theorem due_of_tick {cost : Nat} (ranked : Ranked q timed.state n)
    (stepped : step layout .tick timed.state = some (.ok timed'.state))
    (now : timed'.now = timed.now + cost) (short : cost ≤ quantum) :
    Ranked q timed'.state n ∧
      due quantum slice n
          (if timed.state.thread = 0 then timed'.now else start) timed' ≤
        due quantum slice n start timed + quantum := by
  rcases step_tick stepped with ⟨_, after⟩
  have thread : timed'.state.thread = timed.state.thread := by rw [after]
  constructor
  · rw [after]
    cases ranked with
    | process process => exact .process process
    | idle idle here => exact .idle idle ⟨here.code, here.current⟩
  · rw [due, due, thread]
    split
    · omega
    · omega

theorem due_of_next (good : Good phase timed.state)
    (looping : Looping timed.state) (ranked : Ranked q timed.state n)
    (waits : (timed.state.kernel.procs q).state = .runnable)
    (waits' : (timed'.state.kernel.procs q).state = .runnable)
    (next : (timerSystem layout quantum message period).Next timed happening timed')
    (early : timed.state.thread ≠ 0 → timed'.now ≤ start + slice) :
    ∃ m k, Ranked q timed'.state m ∧ timed'.taken = timed.taken + k ∧
      due quantum slice m
          (if timed.state.thread = 0 then timed'.now else start) timed' ≤
        due quantum slice n start timed + k * quantum := by
  cases next with
  | expire expired =>
      refine ⟨n, 0, ranked, rfl, ?_⟩
      rw [due, due]
      simp only [Timed.expire]
      split
      · omega
      · omega
  | rest passes notDue resting =>
      have process : timed.state.thread ≠ 0 := by
        intro idle
        rcases looping.spot idle with ⟨spot, here⟩
        refine code_ne_nil spot (here.code.symm.trans ?_)
        exact List.isEmpty_iff.mp resting
      refine ⟨n, 0, ranked, rfl, ?_⟩
      rw [due, due]
      simp only [Timed.pass, if_neg process]
      omega
  | @interrupt cost state passes _ stepped =>
      rcases @due_of_tick layout q n quantum slice start timed
        { timed.pass cost with state, pending := false, taken := timed.taken + 1 }
        cost ranked stepped rfl passes.2 with ⟨ranked', later⟩
      exact ⟨n, 1, ranked', rfl, by rw [Nat.one_mul]; exact later⟩
  | @work event cost state passes notDue notInterrupt stepped =>
      have short : timed.state.thread = 0 → cost ≤ quantum := by
        intro idle
        have most := passes.2
        rcases looping.spot idle with ⟨spot, here⟩
        simp only [timerSystem, not_atMessage_of_spot here] at most
        exact most
      rcases @due_of_work layout q n _ quantum slice start phase timed _ _ good
        looping ranked waits waits' notInterrupt stepped rfl short early with
        ⟨m, ranked', later⟩
      exact ⟨m, 0, ranked', rfl, by rw [Nat.zero_mul, Nat.add_zero]; exact later⟩

end Steps

/-! ## A run -/

section Runs

variable {layout : Layout} {quantum message period slice start q n : Nat}
variable {timed timed' : Timed Machine}
variable {steps : List (Happening Event × Timed Machine)}

/-- The process stays `RUNNABLE`. -/
def StaysRunnable (q : Nat) (timed : Timed Machine)
    (steps : List (Happening Event × Timed Machine)) : Prop :=
  (timed.state.kernel.procs q).state = .runnable ∧
    ∀ entry ∈ steps, (entry.2.state.kernel.procs q).state = .runnable

instance (q : Nat) (timed : Timed Machine)
    (steps : List (Happening Event × Timed Machine)) :
    Decidable (StaysRunnable q timed steps) :=
  inferInstanceAs (Decidable (_ ∧ _))

theorem entered_of_next {window : Nat} {Left : Nat → Machine → Prop}
    {happening : Happening Event}
    (prompt : (timerSystem layout quantum message period).Prompt Entered Left window)
    (entered : Entered timed.state)
    (next : (timerSystem layout quantum message period).Next timed happening
      timed') : Entered timed'.state := by
  cases next with
  | expire => exact entered
  | rest => exact entered
  | interrupt _ _ stepped => exact prompt.good _ _ _ entered stepped
  | work _ _ _ stepped => exact prompt.good _ _ _ entered stepped

/-- What is due at the start of a run is not passed by its end, but for the timer
traps in between. -/
theorem due_of_path {window : Nat} {Left : Nat → Machine → Prop}
    (prompt : (timerSystem layout quantum message period).Prompt Entered Left window)
    (path : Path (timerSystem layout quantum message period).timedStep timed steps
      timed')
    (entered : Entered timed.state) (ranked : Ranked q timed.state n)
    (waits : StaysRunnable q timed steps) (turns : Turns slice start timed steps)
    (early : timed.state.thread ≠ 0 → timed.now ≤ start + slice) :
    ∃ k, timed'.taken = timed.taken + k ∧
      timed'.now ≤ due quantum slice n start timed + k * quantum := by
  induction path generalizing start n with
  | nil timed =>
      refine ⟨0, rfl, ?_⟩
      rw [due]
      split
      · omega
      · rename_i process
        have bound := early process
        rw [Nat.succ_mul]
        omega
  | @cons first second last happening steps head rest induction =>
      have next := next_of_step head
      have entered' := entered_of_next prompt entered next
      rcases entered with ⟨phase, good, settled⟩
      have waits' : (second.state.kernel.procs q).state = .runnable :=
        waits.2 _ List.mem_cons_self
      have later : StaysRunnable q second steps :=
        ⟨waits', fun entry member =>
          waits.2 entry (List.mem_cons_of_mem _ member)⟩
      have early' := turns.early
      have begun : second.state.thread ≠ 0 → second.now ≤
          (if first.state.thread = 0 then second.now else start) + slice := by
        intro _
        split
        · omega
        · rename_i process
          exact early' process
      rcases due_of_next good settled.looping ranked waits.1 waits' next early'
        with ⟨m, k, ranked', taken, bound⟩
      rcases induction entered' ranked' later turns.rest begun with
        ⟨k', taken', bound'⟩
      refine ⟨k + k', by rw [taken', taken, Nat.add_assoc], ?_⟩
      rw [Nat.add_mul]
      omega

/-- The longest way: around the whole table, with a turn for every process. -/
theorem due_le (ranked : Ranked q timed.state n) (target : q < maxProc) :
    due quantum slice n timed.now timed ≤
      timed.now + 99 * quantum + 8 * slice := by
  have size : maxProc = 8 := rfl
  have near := @gap_lt timed.state.kernel.cursor q target
  have scale (m turns : Nat) (few : m ≤ 99) (short : turns ≤ 8) :
      timed.now + m * quantum + turns * slice ≤
        timed.now + 99 * quantum + 8 * slice :=
    Nat.add_le_add (Nat.add_le_add_left (Nat.mul_le_mul_right _ few) _)
      (Nat.mul_le_mul_right _ short)
  cases ranked with
  | process process =>
      rw [due, if_neg process]
      apply scale
      · omega
      · rw [turnsLeft]
        omega
  | @idle spot idle here =>
      have bound := @rank_le timed.state.kernel.cursor q target spot
      rw [due, if_pos idle]
      apply scale
      · omega
      · rw [turnsLeft]
        omega

/-- Timer traps take no more than a thirteenth of the time, but for the first
three. -/
theorem traps_of_path {Left : Nat → Machine → Prop} {k : Nat}
    (prompt : (timerSystem layout quantum message period).Prompt Entered Left
      (window quantum message))
    (onTime : (timerSystem layout quantum message period).OnTime Entered Left
      (window quantum message) timed)
    (path : Path (timerSystem layout quantum message period).timedStep timed
      steps timed')
    (fits : 13 * quantum + 2 * message < period)
    (taken : timed'.taken = timed.taken + k) :
    13 * (k * quantum) + timed.now ≤ timed'.now + 39 * quantum := by
  have time : timed'.now + timed.expiries * period + timed.clock =
      timed.now + timed'.expiries * period + timed'.clock :=
    (elapsed_of_path path).time
  have clock : timed.clock ≤
      period + (12 * quantum + 2 * message + quantum) := onTime.clock.clock_le
  have balance := onTime.expiries prompt path
  have latched := timed'.pending.toNat_le
  have expiries : timed.expiries + k ≤ timed'.expiries + 1 := by
    have latched' := timed.pending.toNat_le
    omega
  have later := now_le_of_path path
  rcases Nat.lt_or_ge k 3 with few | many
  · have small := Nat.mul_le_mul_right quantum (Nat.le_of_lt few)
    omega
  · obtain ⟨j, rfl⟩ := Nat.exists_eq_add_of_le many
    have product := Nat.mul_le_mul_right period
      (show timed.expiries + 2 + j ≤ timed'.expiries by omega)
    have rate := Nat.mul_le_mul_left j
      (show 13 * quantum ≤ period by omega)
    rw [Nat.mul_left_comm] at rate
    rw [Nat.add_mul, Nat.add_mul] at product
    rw [Nat.add_mul]
    omega

end Runs

end Rt64.Kernel.ResponseTime
