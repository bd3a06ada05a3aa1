import Rt64.Lib.PeriodicTimer
import Rt64.Kernel.InterruptLatency
import Rt64.Kernel.SleepReturn

/-!
# The kernel and its timer

`lapicinit` makes the local APIC's timer periodic.  An expiry is latched there
until the processor takes the interrupt, which is at once if interrupts are on;
the handler counts it and acknowledges it.  Every statement, the handler and every
piece of a process's own code take at most a quantum; a message has a bound of
its own.

Interrupts are off for at most twelve statements and two messages, so a period of
more than thirteen quanta and two messages suffices for every expiry to be counted,
and for `sleep` to take what its declaration says.
-/

namespace Rt64.Kernel.TimerInterrupts

open Rt64.Lib.Transition
open Rt64.Lib.PeriodicTimer
open Rt64.Lib.PeriodicTimer.System
open Rt64.Include.Defs
open Rt64.Kernel.Process
open Rt64.Kernel.Processor
open Rt64.Kernel.Rounds
open Rt64.Kernel.Scheduler
open Rt64.Kernel.SleepAccounting
open Rt64.Kernel.SleepReturn
open Rt64.Kernel.IdleLoop
open Rt64.Kernel.InterruptLatency

/-- The kernel next to a timer with the given period; `message` is what a message
takes at most. -/
def timerSystem (layout : Layout) (quantum message period : Nat) :
    System Machine Event Halt where
  step := step layout
  interrupt := .tick
  isInterrupt := isTick
  enabled machine := machine.kernel.interruptible
  -- between two kernel functions a process runs code of its own
  resting machine := machine.code.isEmpty
  allowance machine := if atMessage machine then message else quantum
  quantum := quantum
  period := period

/-- The states of the kernel and the timer after `procinit`; the timer has been
running for some time, and may have expired. -/
def Booted (layout : Layout) (quantum message period : Nat) (timed : Timed Machine) :
    Prop :=
  ∃ index heap image first,
    first.state = boot layout index heap image ∧ first.clock ≤ period ∧
      Reaches (timerSystem layout quantum message period).timedStep first timed

/-- The time for which interrupts may be off. -/
abbrev window (quantum message : Nat) : Nat :=
  12 * quantum + 2 * message

/-- After at most `time` interrupts are on. -/
def Left (quantum message time : Nat) (machine : Machine) : Prop :=
  ∃ n k, Closing n k machine.code ∧ n * quantum + k * message = time

/-- The idle loop has been entered. -/
def Entered (machine : Machine) : Prop :=
  ∃ phase, Good phase machine ∧ Settled machine

section Booted

variable {layout : Layout} {quantum message period : Nat}

theorem left_of_settled {machine : Machine} (settled : Settled machine)
    (off : machine.kernel.interruptible = false) :
    ∃ time ≤ window quantum message, Left quantum message time machine := by
  rcases settled.off off with ⟨n, fewer, k, few, closing⟩
  exact ⟨_, Nat.add_le_add (Nat.mul_le_mul_right _ fewer)
    (Nat.mul_le_mul_right _ few), n, k, closing, rfl⟩

/-- A step with interrupts off uses up what it may take. -/
theorem left_of_nearer {n k : Nat} {before after : Machine}
    (nearer : Nearer n k before after) :
    ∃ rest, (timerSystem layout quantum message period).allowance before + rest ≤
        n * quantum + k * message ∧
      (after.kernel.interruptible = true ∨
        after.kernel.interruptible = false ∧ Left quantum message rest after) := by
  simp only [timerSystem]
  cases nearer with
  | last quick on =>
      refine ⟨0, ?_, Or.inl on⟩
      rw [quick, if_neg Bool.false_ne_true]
      omega
  | @statement n k _ _ quick off closing =>
      refine ⟨n * quantum + k * message, ?_, Or.inr ⟨off, n, k, closing, rfl⟩⟩
      rw [quick, if_neg Bool.false_ne_true, Nat.succ_mul]
      omega
  | @message n k _ _ isMessage off closing =>
      refine ⟨n * quantum + k * message, ?_, Or.inr ⟨off, n, k, closing, rfl⟩⟩
      rw [isMessage, if_pos rfl, Nat.succ_mul]
      omega

theorem prompt_timerSystem (fits : 13 * quantum + 2 * message < period) :
    (timerSystem layout quantum message period).Prompt Entered
      (Left quantum message) (window quantum message) where
  good := by
    rintro event before after ⟨phase, good, settled⟩ stepped
    rcases (good.step stepped).2 after rfl with ⟨phase', good', _⟩
    exact ⟨phase', good', settled.step good stepped⟩
  disabled := by
    rintro machine ⟨phase, good, settled⟩ off
    exact left_of_settled settled off
  nearer := by
    rintro time event before after ⟨phase, good, settled⟩ off
      ⟨n, k, closing, rfl⟩ stepped
    obtain rfl := event_of_closing off closing stepped
    rcases @run_of_closing layout _ _ _ _ good settled.looping off closing with
      ⟨after', ran, nearer⟩
    rw [show step layout .run before = some (.ok after) from stepped] at ran
    rcases Except.ok.inj (Option.some.inj ran) with rfl
    exact left_of_nearer nearer
  quick := by
    rintro machine ⟨phase, good, settled⟩ on
    exact le_of_eq (if_neg (by simp [not_atMessage_of_silent (settled.on on)]))
  resting := by
    rintro machine ⟨phase, good, settled⟩ resting
    cases flag : machine.kernel.interruptible with
    | true => exact flag
    | false =>
        rcases settled.off flag with ⟨n, _, k, _, closing⟩
        rw [List.isEmpty_iff.mp resting] at closing
        cases closing
  fits := by
    show 12 * quantum + 2 * message + quantum < period
    omega

theorem reachable_of_booted {timed : Timed Machine}
    (booted : Booted layout quantum message period timed) :
    Reachable layout timed.state := by
  rcases booted with ⟨index, heap, image, first, state, _, steps, path⟩
  rcases untimed_of_path rfl path with ⟨events, path', _, _⟩
  rw [state] at path'
  exact ⟨index, heap, image, events, path'⟩

/-- Once interrupts are on and no expiry waits, the kernel keeps up. -/
theorem onTime_of_booted {timed : Timed Machine}
    (booted : Booted layout quantum message period timed)
    (on : timed.state.kernel.interruptible = true)
    (empty : timed.pending = false) :
    (timerSystem layout quantum message period).OnTime Entered
      (Left quantum message) (window quantum message) timed where
  good := settled_of_on (reachable_of_booted booted) on
  clock := by
    rcases booted with ⟨_, _, _, first, _, early, steps, path⟩
    refine .enabled on (clock_le_of_path ?_ ?_ path
      (early.trans (Nat.le_add_right _ _)))
    · intro machine
      show (if atMessage machine = true then message else quantum) ≤
        12 * quantum + 2 * message + quantum
      split <;> omega
    · exact Nat.le_add_left _ _
  waits := by simp [empty]

/-- `ticks` counts the timer traps, modulo its width. -/
theorem ticks_of_path {machine machine' : Machine}
    {steps : List (Event × Machine)}
    (path : Path (step layout) machine steps machine') :
    machine'.kernel.ticks =
      machine.kernel.ticks + BitVec.ofNat 32 (ticks machine steps) := by
  induction path with
  | nil machine => exact (BitVec.add_zero _).symm
  | @cons first second last event steps head rest induction =>
      rw [induction]
      by_cases isTrap : event = .tick
      · subst isTrap
        rcases step_tick head with ⟨_, rfl⟩
        rw [ticks_tick, BitVec.ofNat_add, ← BitVec.add_assoc]
        rfl
      · rw [ticks_of_not_tick isTrap, ticks_of_other isTrap head]

end Booted

/-- The timer starts with the machine. -/
def sampleTimed : Timed Machine where
  state := sampleBoot
  pending := false
  clock := 0
  now := 0
  expiries := 0
  merged := 0
  taken := 0

/-- Steps that take no time. -/
def atOnce (events : List Event) : List (Happening Event) :=
  events.map (.work · 0)

abbrev sampleStep : Happening Event → Timed Machine →
    Option (Except Halt (Timed Machine)) :=
  (timerSystem sampleLayout 1 10 34).timedStep

theorem booted_of_follow {happenings : List (Happening Event)}
    {steps : List (Happening Event × Timed Machine)} {timed : Timed Machine}
    (followed : follow sampleStep happenings sampleTimed =
      some (steps, timed)) : Booted sampleLayout 1 10 34 timed :=
  ⟨0, sampleHeap, _, sampleTimed, rfl, by decide, steps,
    Path.of_follow followed⟩

section Sleeping

variable {layout : Layout} {machine machine' : Machine}
variable {steps : List (Event × Machine)} {p count : Nat} {nticks : Int}

/-- A process that sleeps throughout a run has been accounted for all traps. -/
theorem asleep_of_path (asleep : Asleep p nticks count machine)
    (path : Path (step layout) machine steps machine')
    (sleeps : ∀ entry ∈ steps, (entry.2.kernel.procs p).state = .sleeping) :
    Asleep p nticks (count + ticks machine steps) machine' := by
  induction path generalizing count with
  | nil machine => exact asleep
  | @cons first second last event steps head rest induction =>
      have later : ∀ entry ∈ steps,
          (entry.2.kernel.procs p).state = .sleeping :=
        fun entry member => sleeps entry (List.mem_cons_of_mem _ member)
      by_cases isTrap : event = .tick
      · subst isTrap
        have next := asleep.tick head
        rw [ticks_tick, ← Nat.add_assoc]
        split at next
        · rw [sleeps _ List.mem_cons_self] at next
          cases next
        · exact induction next later
      · rw [ticks_of_not_tick isTrap]
        exact induction (asleep.other isTrap head) later

/-- The statement of `sleep` that stores the count. -/
theorem asleep_of_store {phase : Phase} (good : Good phase machine)
    (code : machine.code = .setCurSleeprem nticks :: sched p)
    (positive : 0 < nticks)
    (ran : step layout .run machine = some (.ok machine')) :
    Asleep p nticks 0 machine' := by
  rcases (good.step ran).2 machine' rfl with ⟨phase', good', _⟩
  rcases exec_of_run code rfl ran with ⟨kernel, more, executed, rfl⟩
  rcases Prod.mk.inj (Except.ok.inj executed) with ⟨rfl, rfl⟩
  have typed := good.typed
  rw [code] at typed
  cases typed with
  | @setSleeprem t _ _ after =>
      rcases left_of_sched [] after with ⟨how, same⟩
      obtain rfl : t = p := (Phase.left.inj same).1
      have current : machine.kernel.curproc = t := good.fits.holds.curproc
      have state : (machine.kernel.procs t).state = .sleeping :=
        good.fits.holds.extra.2
      rcases left_of_sched [] good'.typed with ⟨how', rfl⟩
      refine ⟨⟨_, good', by simp⟩, ?_, ?_, ?_⟩
      · simp [KernelState.setProc, current, state]
      · simp [KernelState.setProc, current]
      · have most : 1 ≤ nticks := positive
        simpa [KernelState.setProc, current] using most

end Sleeping

end Rt64.Kernel.TimerInterrupts
