import Rt64.Kernel.Scheduler

/-!
# Sleep accounting

`sleep` turns interrupts off, stores the state and the count, and gives up the
processor.  Once the count is stored, it and the timer traps delivered from then on
add up to the argument of `sleep`, and the trap that brings the count to zero
makes the process runnable.  Nothing else touches its entry.

A timer trap that comes after the call but before interrupts are off is not part
of the sum, as `trap_before_cli_not_counted` shows.
-/

namespace Rt64.Kernel.SleepAccounting

open Rt64.Lib.Transition
open Rt64.Include.Defs
open Rt64.Kernel.Process
open Rt64.Kernel.Processor
open Rt64.Kernel.Rounds
open Rt64.Kernel.Scheduler

def isTick : Event → Bool
  | .tick => true
  | _ => false

/-- The timer traps delivered in a run. -/
def ticks (machine : Machine) (steps : List (Event × Machine)) : Nat :=
  count (fun _ event _ => isTick event = true) machine steps

theorem ticks_tick (machine machine' : Machine)
    (steps : List (Event × Machine)) :
    ticks machine ((.tick, machine') :: steps) = 1 + ticks machine' steps :=
  rfl

theorem ticks_of_not_tick {event : Event} (notTick : event ≠ .tick)
    (machine machine' : Machine) (steps : List (Event × Machine)) :
    ticks machine ((event, machine') :: steps) = ticks machine' steps := by
  cases event with
  | tick => exact absurd rfl notTick
  | run => exact Nat.zero_add _
  | call op => exact Nat.zero_add _

/-! ## A sleeping entry -/

/-- What a timer trap does to a sleeping process. -/
theorem tick_sleeping {phase : Phase} {before : Core} {q : Nat}
    (holds : Holds phase before) (asleep : before.state q = .sleeping) :
    before.tick.procs q =
      if (before.procs q).sleeprem = 1 then
        { before.procs q with sleeprem := 0, state := .runnable }
      else
        { before.procs q with
          sleeprem := (before.procs q).sleeprem - 1 } := by
  have inTable : q < before.nproc :=
    holds.lt_nproc (by simp [asleep]) (by simp [asleep])
  have state : (before.procs q).state = .sleeping := asleep
  rw [before.tick_procs, if_pos inTable, tickEntry, if_pos state]
  by_cases one : (before.procs q).sleeprem = 1
  · rw [if_pos (by omega), if_pos one, one]
    rfl
  · rw [if_neg (by omega), if_neg one]

/-! ## A sleeping process -/

/--
How the process stands when `count` timer traps have come since it stored its
count: as long as they are fewer than it asked for, it sleeps and the count is
what is left, and the trap that is due wakes it.
-/
structure Accounts (layout : Layout) (p : Nat) (nticks : Int) (count : Nat)
    (machine : Machine) : Prop where
  sleeps : (count : Int) < nticks →
    (machine.kernel.procs p).state = .sleeping ∧
      1 ≤ (machine.kernel.procs p).sleeprem ∧
        (machine.kernel.procs p).sleeprem + count = nticks
  wakes : (count : Int) + 1 = nticks → ∀ machine',
    step layout .tick machine = some (.ok machine') →
      (machine'.kernel.procs p).state = .runnable

/-- Once the traps are all there, nothing more is claimed. -/
theorem accounts_of_le {layout : Layout} {p count : Nat} {nticks : Int}
    (machine : Machine) (all : nticks ≤ count) :
    Accounts layout p nticks count machine where
  sleeps few := by omega
  wakes due := by omega

/-- The process has stored its count and sleeps. -/
structure Asleep (p : Nat) (nticks : Int) (count : Nat) (machine : Machine) :
    Prop where
  good : ∃ phase, Good phase machine ∧ ∀ how, phase ≠ .stored p how
  state : (machine.kernel.procs p).state = .sleeping
  left : (machine.kernel.procs p).sleeprem + count = nticks
  positive : 1 ≤ (machine.kernel.procs p).sleeprem

section Asleep

variable {layout : Layout} {p count : Nat} {nticks : Int}
variable {machine machine' : Machine} {event : Event}
variable (asleep : Asleep p nticks count machine)
include asleep

theorem Asleep.other (notTick : event ≠ .tick)
    (stepped : step layout event machine = some (.ok machine')) :
    Asleep p nticks count machine' := by
  rcases asleep.good with ⟨phase, good, counted⟩
  rcases (good.step stepped).2 machine' rfl with ⟨phase', good', next⟩
  generalize after : core machine'.kernel = core' at next
  have procs' : machine'.kernel.procs = core'.procs :=
    congrArg Core.procs after
  cases next with
  | tick => exact absurd rfl notTick
  | move _ move =>
      rcases good.fits.holds.alone move (Or.inl asleep.state) counted with
        ⟨same, counted'⟩
      have same' : machine'.kernel.procs p = machine.kernel.procs p := by
        rw [procs']
        exact same
      refine ⟨⟨phase', good', counted'⟩, ?_, ?_, ?_⟩ <;> rw [same']
      · exact asleep.state
      · exact asleep.left
      · exact asleep.positive

theorem Asleep.tick
    (stepped : step layout .tick machine = some (.ok machine')) :
    if (machine.kernel.procs p).sleeprem = 1 then
      (machine'.kernel.procs p).state = .runnable
    else
      Asleep p nticks (count + 1) machine' := by
  rcases asleep.good with ⟨phase, good, counted⟩
  rcases (good.step stepped).2 machine' rfl with ⟨phase', good', next⟩
  generalize after : core machine'.kernel = core' at next
  have procs' : machine'.kernel.procs = core'.procs :=
    congrArg Core.procs after
  cases next with
  | move notTick => exact absurd rfl notTick
  | tick unmasked =>
      have entry : machine'.kernel.procs p =
          if (machine.kernel.procs p).sleeprem = 1 then
            { machine.kernel.procs p with sleeprem := 0, state := .runnable }
          else
            { machine.kernel.procs p with
              sleeprem := (machine.kernel.procs p).sleeprem - 1 } := by
        rw [procs']
        exact tick_sleeping good.fits.holds asleep.state
      have positive := asleep.positive
      have left := asleep.left
      split
      · rename_i one
        rw [entry, if_pos one]
      · rename_i more
        rw [if_neg more] at entry
        refine ⟨⟨phase, good', counted⟩, ?_, ?_, ?_⟩ <;> rw [entry]
        · exact asleep.state
        · show (machine.kernel.procs p).sleeprem - 1 +
            ((count + 1 : Nat) : Int) = nticks
          omega
        · show 1 ≤ (machine.kernel.procs p).sleeprem - 1
          omega

theorem Asleep.accounts : Accounts layout p nticks count machine where
  sleeps _ := ⟨asleep.state, asleep.positive, asleep.left⟩
  wakes := by
    intro due machine' stepped
    have left := asleep.left
    have woken := asleep.tick stepped
    rwa [if_pos (by omega)] at woken

/-- A whole run of a sleeping process. -/
theorem Asleep.path {steps : List (Event × Machine)}
    (path : Path (step layout) machine steps machine') :
    Accounts layout p nticks (count + ticks machine steps) machine' := by
  induction path generalizing count with
  | nil machine => exact asleep.accounts
  | @cons first second last event steps head rest induction =>
      by_cases isTrap : event = .tick
      · subst isTrap
        rw [ticks_tick, ← Nat.add_assoc]
        have next := asleep.tick head
        have left := asleep.left
        split at next
        · rename_i one
          exact accounts_of_le _ (by omega)
        · exact induction next
      · rw [ticks_of_not_tick isTrap]
        exact induction (asleep.other isTrap head)

end Asleep

/-! ## Inside the call -/

/-- The statements of `sleep` from the given one on. -/
def sleepFrom (nticks : Int) (p k : Nat) : List Stmt :=
  (Process.sleep nticks p).drop k

/--
The process has `k` statements of its call behind it: the two checks, the `cli`,
the store of the state and the store of the count.
-/
structure Inside (p : Nat) (nticks : Int) (k : Nat) (machine : Machine) :
    Prop where
  thread : machine.thread = p
  curproc : machine.kernel.curproc = p
  code : machine.code = sleepFrom nticks p k
  masked : 3 ≤ k → machine.kernel.interruptible = false
  state : (machine.kernel.procs p).state = if k ≤ 3 then .running else .sleeping
  stored : k = 5 → (machine.kernel.procs p).sleeprem = nticks

theorem sleep_eq {nticks : Int} (positive : 0 < nticks) (p : Nat) :
    Process.sleep nticks p =
      .check .sleep "cannot sleep %d ticks" (fun _ => decide (0 ≤ nticks)) ::
      .check .sleep "curproc->state == RUNNING" KernelState.curRunning ::
      .cli :: .setCurState .sleeping :: .setCurSleeprem nticks :: sched p := by
  unfold Process.sleep
  rw [if_neg (by omega)]
  rfl

section Inside

variable {layout : Layout} {p k : Nat} {nticks : Int}
variable {machine machine' : Machine} {event : Event}

/-- A timer trap during the checks leaves the caller running. -/
theorem Inside.tick (inside : Inside p nticks k machine) (early : k ≤ 2) :
    Inside p nticks k
      { machine with kernel := timerTrap machine.kernel } where
  thread := inside.thread
  curproc := inside.curproc
  code := inside.code
  masked late := by omega
  state := by
    have runs := inside.state
    rw [if_pos (by omega)] at runs ⊢
    exact @Core.tick_state_of_ne (core machine.kernel) p _ runs (by simp)
  stored last := by omega

theorem Inside.check (inside : Inside p nticks k machine) (early : k + 1 ≤ 2)
    (code : machine'.code = sleepFrom nticks p (k + 1))
    (thread : machine'.thread = machine.thread)
    (kernel : machine'.kernel = machine.kernel) :
    Inside p nticks (k + 1) machine' where
  thread := thread.trans inside.thread
  curproc := kernel ▸ inside.curproc
  code := code
  masked late := by omega
  state := by
    have runs := inside.state
    rw [if_pos (by omega)] at runs ⊢
    rw [kernel]
    exact runs
  stored last := by omega

/-- One step of a process inside its call: a trap, if interrupts are still on,
or the next statement. -/
theorem Inside.step_cases (positive : 0 < nticks)
    (inside : Inside p nticks k machine) (early : k ≤ 4)
    (stepped : step layout event machine = some (.ok machine')) :
    event = .tick ∧ k ≤ 2 ∧ Inside p nticks k machine' ∨
      event = .run ∧ Inside p nticks (k + 1) machine' := by
  have shape := inside.code
  have off := inside.masked
  rw [sleepFrom, sleep_eq positive] at shape
  have unmasked : machine.kernel.interruptible = true → k ≤ 2 := by
    intro interruptible
    by_contra late
    rw [off (by omega)] at interruptible
    cases interruptible
  have tail : sleepFrom nticks p (k + 1) =
      (Process.sleep nticks p).drop (k + 1) := rfl
  rw [sleep_eq positive] at tail
  obtain rfl | rfl | rfl | rfl | rfl :
    k = 0 ∨ k = 1 ∨ k = 2 ∨ k = 3 ∨ k = 4 := by omega
  all_goals
    rcases step_of_code shape rfl stepped with
      ⟨rfl, interruptible, rfl⟩ | ⟨rfl, kernel, more, success, rfl⟩
    · have soon := unmasked interruptible
      exact Or.inl ⟨rfl, soon, inside.tick soon⟩
    refine Or.inr ⟨rfl, ?_⟩
  · rw [Stmt.exec, assert_bind_eq_ok] at success
    rcases Prod.mk.inj (Except.ok.inj success.2) with ⟨rfl, rfl⟩
    exact inside.check (by omega) tail.symm rfl rfl
  · rw [Stmt.exec, assert_bind_eq_ok] at success
    rcases Prod.mk.inj (Except.ok.inj success.2) with ⟨rfl, rfl⟩
    exact inside.check (by omega) tail.symm rfl rfl
  · rcases Prod.mk.inj (Except.ok.inj success) with ⟨rfl, rfl⟩
    exact ⟨inside.thread, inside.curproc, tail.symm, fun _ => rfl,
      inside.state, by simp⟩
  · rcases Prod.mk.inj (Except.ok.inj success) with ⟨rfl, rfl⟩
    refine ⟨inside.thread, inside.curproc, tail.symm,
      fun _ => off le_rfl, ?_, by simp⟩
    simp [KernelState.setProc, inside.curproc]
  · rcases Prod.mk.inj (Except.ok.inj success) with ⟨rfl, rfl⟩
    refine ⟨inside.thread, inside.curproc, tail.symm,
      fun _ => off (by omega), ?_, fun _ => ?_⟩
    · have asleep := inside.state
      simpa [KernelState.setProc, inside.curproc] using asleep
    · simp [KernelState.setProc, inside.curproc]

end Inside

/-- The call is complete but for `sched`. -/
theorem Inside.asleep {p : Nat} {nticks : Int} {phase : Phase}
    {machine : Machine} (inside : Inside p nticks 5 machine)
    (good : Good phase machine) (positive : 0 < nticks) :
    Asleep p nticks 0 machine := by
  have typed := good.typed
  rw [inside.code, sleepFrom, sleep_eq positive] at typed
  rcases left_of_sched [] typed with ⟨how, rfl⟩
  have stored := inside.stored rfl
  refine ⟨⟨_, good, nofun⟩, inside.state, ?_, ?_⟩ <;> rw [stored]
  · exact Int.add_zero nticks
  · omega

/-- Every state of the run is inside the call, before the store of the count. -/
def Entering (p : Nat) (nticks : Int) (steps : List (Event × Machine)) : Prop :=
  ∀ entry ∈ steps, ∃ k ≤ 4, Inside p nticks k entry.2

theorem Entering.cons {p k : Nat} {nticks : Int} {event : Event}
    {machine : Machine} {steps : List (Event × Machine)}
    (inside : Inside p nticks k machine) (early : k ≤ 4)
    (entering : Entering p nticks steps) :
    Entering p nticks ((event, machine) :: steps) := by
  intro entry member
  rcases List.mem_cons.mp member with rfl | later
  · exact ⟨k, early, inside⟩
  · exact entering entry later

/--
How the call stands after the steps of a run: the caller is still on its way to
the store of the count, or it has stored it and the traps from then on are
accounted for.
-/
def SleepRun (layout : Layout) (p : Nat) (nticks : Int)
    (steps : List (Event × Machine)) (last : Machine) : Prop :=
  (Entering p nticks steps ∧ ∃ k ≤ 4, Inside p nticks k last) ∨
    ∃ front stored back, steps = front ++ (.run, stored) :: back ∧
      Entering p nticks front ∧ Inside p nticks 5 stored ∧
        Accounts layout p nticks (ticks stored back) last

theorem SleepRun.cons {layout : Layout} {p k : Nat} {nticks : Int}
    {event : Event} {machine last : Machine} {steps : List (Event × Machine)}
    (inside : Inside p nticks k machine) (early : k ≤ 4)
    (run : SleepRun layout p nticks steps last) :
    SleepRun layout p nticks ((event, machine) :: steps) last := by
  rcases run with ⟨entering, here⟩ | ⟨front, stored, back, rfl, entering, rest⟩
  · exact Or.inl ⟨entering.cons inside early, here⟩
  · exact Or.inr ⟨(event, machine) :: front, stored, back, rfl,
      entering.cons inside early, rest⟩

/-- A whole run from inside the call. -/
theorem Inside.path {layout : Layout} {p k : Nat} {nticks : Int}
    {machine last : Machine} {steps : List (Event × Machine)} {phase : Phase}
    (inside : Inside p nticks k machine) (early : k ≤ 4)
    (positive : 0 < nticks) (good : Good phase machine)
    (path : Path (step layout) machine steps last) :
    SleepRun layout p nticks steps last := by
  induction path generalizing k phase with
  | nil machine => exact Or.inl ⟨nofun, k, early, inside⟩
  | @cons first second last event steps head rest induction =>
      rcases (good.step head).2 second rfl with ⟨phase', good', _⟩
      rcases inside.step_cases positive early head with
        ⟨rfl, _, inside'⟩ | ⟨rfl, inside'⟩
      · exact (induction inside' early good').cons inside' early
      · by_cases more : k + 1 ≤ 4
        · exact (induction inside' more good').cons inside' more
        · -- the step was the store of the count
          obtain rfl : k = 4 := by omega
          have accounts := (inside'.asleep good' positive).path rest
          rw [Nat.zero_add] at accounts
          exact Or.inr ⟨[], second, steps, rfl, nofun, inside', accounts⟩

/-- The state right after a call of `sleep`. -/
theorem inside_of_call {layout : Layout} {nticks : Int} {phase : Phase}
    {before called : Machine} (good : Good phase before)
    (call : step layout (.call (.sleep nticks)) before = some (.ok called)) :
    0 < nticks ∧ Inside before.kernel.curproc nticks 0 called := by
  rcases step_call call with ⟨idle, allowed, rfl⟩
  rw [Op.allowed, Bool.and_eq_true, decide_eq_true_iff] at allowed
  have typed := good.typed
  rw [idle] at typed
  cases typed with
  | done t =>
      obtain rfl : before.kernel.curproc = t := good.fits.holds.curproc
      have runs : (before.kernel.procs before.kernel.curproc).state =
          .running := (good.fits.holds.running _).mpr (Or.inr rfl)
      exact ⟨allowed.2, good.thread, rfl, rfl, by simp, runs, by simp⟩

/--
In every run, for every process and every positive count: after a call of
`sleep` the process is in the checks and stores of that call until it has stored
its count, with interrupts off from its `cli` on.  From then on, as long as
fewer timer traps than it asked for have come, whatever else happens, it sleeps,
its count is positive, and the count and the traps make up what it asked for;
the trap that completes them makes it runnable.
-/
theorem sleep_accounts_for_traps {layout : Layout} {nticks : Int}
    {before called last : Machine} {steps : List (Event × Machine)}
    (reachable : Reachable layout before)
    (call : step layout (.call (.sleep nticks)) before = some (.ok called))
    (path : Path (step layout) called steps last) :
    SleepRun layout before.kernel.curproc nticks steps last := by
  rcases good_of_reachable reachable with ⟨phase, good⟩
  rcases inside_of_call good call with ⟨positive, inside⟩
  rcases (good.step call).2 called rfl with ⟨phase', good', _⟩
  exact inside.path (by omega) positive good' path

/-- The process sleeps on after the first of two traps. -/
theorem sleep_accounts_for_traps_once :
    ∃ before called last steps, Reachable sampleLayout before ∧
      step sampleLayout (.call (.sleep 2)) before = some (.ok called) ∧
      Path (step sampleLayout) called steps last ∧
      (last.kernel.procs 1).sleeprem = 1 ∧
      SleepRun sampleLayout before.kernel.curproc 2 steps last := by
  -- the call, the switch to the idle process, its `sti`, and a trap
  have ran : ((follow (step sampleLayout) sampleEvents sampleBoot).bind
      fun run => (follow (step sampleLayout)
        (.call (.sleep 2) :: List.replicate 13 .run ++ [.tick]) run.2).map
          fun run' => (run'.2.kernel.procs 1).sleeprem) = some 1 := rfl
  rcases Option.bind_eq_some_iff.mp ran with ⟨⟨_, before⟩, booted, ran'⟩
  rcases Option.map_eq_some_iff.mp ran' with ⟨⟨_, last⟩, followed, left⟩
  rcases follow_cons followed with ⟨called, steps, call, followed', _⟩
  have reachable := reachable_of_follow booted
  have path := Path.of_follow followed'
  exact ⟨before, called, last, steps, reachable, call, path, left,
    sleep_accounts_for_traps reachable call path⟩

/-- A trap between the call and its `cli` comes on top of the sum: the process
is asleep and off the processor. -/
theorem trap_before_cli_not_counted :
    ∃ before called last steps, Reachable sampleLayout before ∧
      step sampleLayout (.call (.sleep 1)) before = some (.ok called) ∧
      Path (step sampleLayout) called steps last ∧
      before.kernel.curproc = 1 ∧ last.thread = 0 ∧
      (last.kernel.procs 1).state = .sleeping ∧
      (last.kernel.procs 1).sleeprem + ticks called steps = 2 := by
  have ran : ((follow (step sampleLayout) sampleEvents sampleBoot).bind
      fun run => (follow (step sampleLayout)
        (.call (.sleep 1) :: .tick :: List.replicate 10 .run) run.2).map
          fun run' => (run.2.kernel.curproc, run'.2.thread,
            (run'.2.kernel.procs 1).state,
            (run'.2.kernel.procs 1).sleeprem, ticks run.2 run'.1)) =
      some (1, 0, .sleeping, 1, 1) := by decide +kernel
  rcases Option.bind_eq_some_iff.mp ran with ⟨⟨_, before⟩, booted, ran'⟩
  rcases Option.map_eq_some_iff.mp ran' with ⟨⟨_, last⟩, followed, facts⟩
  rcases follow_cons followed with ⟨called, steps, call, followed', rfl⟩
  simp only [Prod.mk.injEq] at facts
  rcases facts with ⟨current, off, asleep, left, trapped⟩
  rw [ticks_of_not_tick Event.noConfusion] at trapped
  refine ⟨before, called, last, steps, reachable_of_follow booted, call,
    Path.of_follow followed', current, off, asleep, ?_⟩
  rw [left, trapped]
  rfl

end Rt64.Kernel.SleepAccounting
