import Rt64.Kernel.InterruptLatency
import Rt64.Kernel.RoundRobin

/-!
# How long the scheduler lets a process wait

While a process is `RUNNABLE`, every statement of the idle process brings its
dispatch nearer.  The distance is measured by the entries between the cursor and
the process, at most twelve statements each, and by the place in the loop.  The
entries are counted around a table of `MAX_PROC` entries, so that the distance
does not grow when processes are created meanwhile.
-/

namespace Rt64.Kernel.WaitingTime

open Rt64.Lib.Transition
open Rt64.Include.Defs
open Rt64.Kernel.Process
open Rt64.Kernel.Processor
open Rt64.Kernel.Rounds
open Rt64.Kernel.Scheduler
open Rt64.Kernel.RoundRobin
open Rt64.Kernel.IdleLoop
open Rt64.Kernel.InterruptLatency

/-! ## The distance -/

/-- The steps from the cursor to `q` around the full table. -/
def gap (cursor q : Nat) : Nat :=
  if cursor ≤ q then q - cursor else q + maxProc - cursor

theorem gap_self (q : Nat) : gap q q = 0 := by
  rw [gap, if_pos le_rfl, Nat.sub_self]

theorem gap_lt {cursor q : Nat} (target : q < maxProc) :
    gap cursor q < maxProc := by
  unfold gap
  split <;> omega

/-- A step around the table that does not pass `q` comes nearer to it. -/
theorem gap_next {cursor q size : Nat} (inside : cursor < size)
    (target : q < size) (bounded : size ≤ maxProc) (other : cursor ≠ q) :
    gap ((cursor + 1) % size) q + 1 ≤ gap cursor q := by
  unfold gap
  rcases next_cases inside with step | ⟨full, step⟩ <;> rw [step]
  · split <;> split <;> omega
  · rw [if_pos (Nat.zero_le q), if_neg (by omega)]
    omega

/--
The statements of the idle process up to the dispatch of `q`.  The idle process
may be about to pass `q` if `q` has become `RUNNABLE` after it was looked at.
-/
def rank (cursor q : Nat) : Spot → Nat
  | .back => 12 * gap cursor q + 7
  | .loop => 12 * gap cursor q + 6
  | .sti => 12 * gap cursor q + 5
  | .probe => 12 * gap cursor q + 4
  | .skip => if cursor = q then 12 * maxProc + 3 else 12 * gap cursor q + 3
  | .found _ => 12 * gap cursor q + 3
  | .chosen p => if p = q then 2 else 12 * gap cursor q + 14
  | .take p => if p = q then 1 else 12 * gap cursor q + 13
  | .send p => if p = q then 0 else 12 * gap cursor q + 12
  | .loadRoot _ => 12 * gap cursor q + 11
  | .checkIdle _ => 12 * gap cursor q + 10
  | .loadTss _ => 12 * gap cursor q + 9
  | .switch _ => 12 * gap cursor q + 8

theorem rank_le {cursor q : Nat} (target : q < maxProc) (spot : Spot) :
    rank cursor q spot ≤ 12 * maxProc + 3 := by
  have near := @gap_lt cursor q target
  unfold rank
  split <;> try split
  all_goals omega

/-- The distance in a state of the machine. -/
inductive Ranked (q : Nat) (machine : Machine) : Nat → Prop where
  | process (process : machine.thread ≠ 0) :
      Ranked q machine (12 * gap machine.kernel.cursor q + 7)
  | idle {spot : Spot} (idle : machine.thread = 0)
      (here : spot.At machine) :
      Ranked q machine (rank machine.kernel.cursor q spot)

theorem ranked_of_looping {machine : Machine} (looping : Looping machine)
    {q : Nat} (target : q < maxProc) :
    ∃ n ≤ 12 * maxProc + 3, Ranked q machine n := by
  by_cases idle : machine.thread = 0
  · rcases looping.spot idle with ⟨spot, here⟩
    exact ⟨_, rank_le target spot, .idle idle here⟩
  · have near := @gap_lt machine.kernel.cursor q target
    exact ⟨_, by omega, .process idle⟩

/-! ## One step -/

section Steps

variable {layout : Layout} {event : Event} {phase : Phase}
variable {machine machine' : Machine} {q : Nat}

/-- Each statement of the loop lowers the distance. -/
theorem rank_next {spot spot' : Spot} {kernel : KernelState}
    (good : Good phase machine) (here : spot.At machine)
    (next : Spot.Next machine.kernel spot spot' kernel)
    (waits : (machine.kernel.procs q).state = .runnable)
    (waits' : (kernel.procs q).state = .runnable) :
    1 + rank kernel.cursor q spot' ≤ rank machine.kernel.cursor q spot := by
  have target : q < machine.kernel.nproc := runnable_lt good.fits.holds waits
  have inside : machine.kernel.cursor < machine.kernel.nproc :=
    good.fits.holds.cursor
  have bounded : machine.kernel.nproc ≤ maxProc := good.fits.holds.bounded
  have typed := good.typed
  rw [here.code] at typed
  cases next with
  | miss notRunnable =>
      have other : machine.kernel.cursor ≠ q := by
        intro same
        rw [same] at notRunnable
        exact notRunnable waits
      simp only [rank, if_neg other]
      omega
  | skip =>
      have near := @gap_lt ((machine.kernel.cursor + 1) % machine.kernel.nproc) q
        (target.trans_le bounded)
      simp only [rank]
      split
      · omega
      · rename_i other
        have nearer := gap_next inside target bounded other
        omega
  | found p =>
      cases typed with
      | found _ =>
          obtain rfl : machine.kernel.cursor = p := good.fits.holds.extra.2
          simp only [rank]
          split
          · rename_i same
            rw [same, gap_self]
          · rename_i other
            have nearer := gap_next inside target bounded other
            omega
  | send p =>
      have other : p ≠ q := by
        rintro rfl
        simp [KernelState.setProc, here.current p rfl] at waits'
      simp only [rank, if_neg other, KernelState.setProc]
      omega
  | chosen p =>
      simp only [rank]
      split <;> omega
  | take p =>
      simp only [rank]
      split <;> omega
  | _ =>
      simp only [rank]
      omega

/-- A statement of the idle process. -/
def OnIdle (before : Machine) (event : Event) (_ : Machine) : Prop :=
  before.thread = 0 ∧ isRun event = true

instance (before : Machine) (event : Event) (after : Machine) :
    Decidable (OnIdle before event after) :=
  inferInstanceAs (Decidable (_ ∧ _))

/-- Only the idle process moves the cursor. -/
theorem cursor_of_process (good : Good phase machine)
    (process : machine.thread ≠ 0)
    (stepped : step layout event machine = some (.ok machine')) :
    machine'.kernel.cursor = machine.kernel.cursor := by
  rw [good.thread] at process
  rcases (good.step stepped).2 machine' rfl with ⟨phase', _, next⟩
  have cursor : (core machine'.kernel).cursor = (core machine.kernel).cursor := by
    generalize core machine'.kernel = after at next ⊢
    cases next with
    | tick => rfl
    | move _ move =>
        cases move with
        | skip => exact absurd rfl process
        | choose => exact absurd rfl process
        | _ => rfl
  exact cursor

/-- The switch to the idle process is the only way off the processor. -/
theorem ranked_of_process (good : Good phase machine) (looping : Looping machine)
    (process : machine.thread ≠ 0)
    (stepped : step layout event machine = some (.ok machine')) :
    Ranked q machine' (12 * gap machine.kernel.cursor q + 7) := by
  rw [← cursor_of_process good process stepped]
  cases event with
  | tick =>
      rcases step_tick stepped with ⟨_, rfl⟩
      exact .process process
  | call op =>
      rcases step_call stepped with ⟨_, _, rfl⟩
      exact .process process
  | run =>
      rcases run_of_process good process stepped with
        ⟨thread, _⟩ | ⟨old, rest, _, _, rfl⟩
      · exact .process (thread ▸ process)
      · exact @Ranked.idle q _ .back rfl ⟨looping.back process, by simp⟩

/-- No step raises the distance while `q` waits. -/
theorem Ranked.step {n : Nat} (ranked : Ranked q machine n)
    (good : Good phase machine) (looping : Looping machine)
    (stepped : step layout event machine = some (.ok machine'))
    (waits : (machine.kernel.procs q).state = .runnable)
    (waits' : (machine'.kernel.procs q).state = .runnable) :
    ∃ m, Ranked q machine' m ∧
      (if OnIdle machine event machine' then 1 else 0) + m ≤ n := by
  cases ranked with
  | process process =>
      refine ⟨_, ranked_of_process good looping process stepped, ?_⟩
      rw [if_neg fun onIdle => process onIdle.1, Nat.zero_add]
  | @idle spot idle here =>
      cases event with
      | tick =>
          rcases step_tick stepped with ⟨_, rfl⟩
          refine ⟨rank machine.kernel.cursor q spot,
            .idle idle ⟨here.code, here.current⟩, ?_⟩
          simp [OnIdle, isRun]
      | call op =>
          exact absurd (here.code.symm.trans (step_call stepped).1)
            (code_ne_nil spot)
      | run =>
          rw [if_pos ⟨idle, rfl⟩]
          by_cases isSwitch : ∃ p, spot = .switch p
          · rcases isSwitch with ⟨p, rfl⟩
            have process := curproc_of_switch good here.code
            rcases leaves_of_run here.code stepped with rfl
            exact ⟨_, .process process, by simp only [rank]; omega⟩
          · have notSwitch : ∀ p, spot ≠ .switch p :=
              fun p same => isSwitch ⟨p, same⟩
            rcases next_of_run here.code notSwitch stepped with
              ⟨spot', kernel, next, rfl⟩
            exact ⟨_, .idle idle next.at,
              rank_next good here next waits waits'⟩

end Steps

/-- How many statements of the idle process a run has. -/
def idleStatements (first : Machine) (steps : List (Event × Machine)) : Nat :=
  count OnIdle first steps

end Rt64.Kernel.WaitingTime
