import Rt64.Kapp.Minctest
import Rt64.Kernel.SleepReturn

/-!
# The assertion of the timer thread

Between two of its readings of `ticks` the timer thread makes one call of
`sleep`, which takes exactly one timer trap while the thread sleeps.  Traps that
come while it waits for the processor, or has it, are in the next reading as well,
and nothing in the kernel excludes them.  So the assertion holds in the runs in
which no such trap comes, and in which the counter is not at the largest `int`
when one is counted.
-/

namespace Rt64.Kapp.MinctestTiming

open Rt64.Lib.ByteMemory
open Rt64.Lib.Transition
open Rt64.Include.Defs
open Rt64.Kernel
open Rt64.Kernel.Process
open Rt64.Kernel.Processor (Machine)
open Rt64.Kernel.Rounds
open Rt64.Kernel.Scheduler
open Rt64.Kernel.SleepReturn
open Rt64.Kapp.Minctest

/-! ## Runs that are not disturbed -/

/-- The timer thread has read `ticks` before. -/
def hasRead : TimerPoint → Bool
  | .start | .firstSleep | .firstTicks => false
  | _ => true

abbrev intMax : BitVec 32 :=
  0x7FFFFFFF

/-- A timer trap that does not find the timer thread asleep, or the counter at
its maximum. -/
def Disturbs (before : System) (event : Event) : Prop :=
  event = .tick ∧ hasRead before.timer = true ∧
    ((before.machine.kernel.procs 2).state ≠ .sleeping ∨
      before.machine.kernel.ticks = intMax)

instance (before : System) (event : Event) :
    Decidable (Disturbs before event) :=
  inferInstanceAs (Decidable (_ ∧ _ ∧ (_ ∨ _)))

/-- The steps of a run without such a trap. -/
def Undisturbed (first : System) (steps : List (Event × System)) : Prop :=
  count (fun before event _ => Disturbs before event) first steps = 0

instance (first : System) (steps : List (Event × System)) :
    Decidable (Undisturbed first steps) :=
  inferInstanceAs (Decidable (_ = 0))

/-- The machine without these traps. -/
def calmStep (layout : Layout) (symbols : Symbols) (event : Event)
    (before : System) : Option (Except Fault System) :=
  if Disturbs before event then none else step layout symbols event before

theorem calmStep_eq_ok {layout : Layout} {symbols : Symbols} {event : Event}
    {before after : System}
    (stepped : calmStep layout symbols event before = some (.ok after)) :
    ¬ Disturbs before event ∧
      step layout symbols event before = some (.ok after) := by
  unfold calmStep at stepped
  split at stepped
  · cases stepped
  · rename_i calm
    exact ⟨calm, stepped⟩

/-! ## The sleep between two readings -/

/-- The `int` counter and its value as a `u64` go on together, except at the
maximum. -/
theorem signExtend_add_one {base : BitVec 32} (below : base ≠ intMax) :
    (base + 1).signExtend 64 = base.signExtend 64 + 1 := by
  have value : base.toInt ≠ 2147483647 := fun same =>
    below (BitVec.eq_of_toInt_eq same)
  have upper := @BitVec.two_mul_toInt_lt 32 base
  have lower := @BitVec.le_two_mul_toInt 32 base
  have next : (base + 1).toInt = base.toInt + 1 := by
    rw [BitVec.toInt_add, show (1 : BitVec 32).toInt = 1 by decide]
    exact Int.bmod_eq_of_le (by omega) (by omega)
  rw [BitVec.signExtend, BitVec.signExtend, next, BitVec.ofInt_add]
  rfl

/-- The timer thread is in its call of `sleep`; it has read `base`, and `count`
traps have come since. -/
structure Waiting (base : BitVec 32) (count : Nat) (machine : Machine) :
    Prop where
  call : SleepCall 2 1 count machine
  ticks : machine.kernel.ticks = base + BitVec.ofNat 32 count
  below : 0 < count → base ≠ intMax

section Sleep

variable {layout : Layout} {phase : Phase} {machine machine' : Machine}
variable {base : BitVec 32} {count : Nat}

theorem Waiting.other {event : Processor.Event}
    (waiting : Waiting base count machine) (good : Good phase machine)
    (notTick : event ≠ .tick)
    (notCall : ∀ op, event = .call op → machine.thread ≠ 2)
    (stepped : Processor.step layout event machine = some (.ok machine')) :
    Waiting base count machine' where
  call := waiting.call.other good notTick notCall stepped Int.one_pos
  ticks := (ticks_of_other notTick stepped).trans waiting.ticks
  below := waiting.below

theorem Waiting.tick (waiting : Waiting base count machine)
    (good : Good phase machine)
    (sleeping : (machine.kernel.procs 2).state = .sleeping)
    (below : machine.kernel.ticks ≠ intMax)
    (ticked : Processor.step layout .tick machine = some (.ok machine')) :
    Waiting base (count + 1) machine' where
  call := waiting.call.tick_asleep good Int.one_pos sleeping ticked
  ticks := by
    rcases Processor.step_tick ticked with ⟨_, rfl⟩
    show machine.kernel.ticks + 1 = _
    rw [waiting.ticks, BitVec.add_assoc, BitVec.ofNat_add]
    rfl
  below := by
    intro _
    by_cases first : count = 0
    · have ticks := waiting.ticks
      rw [first, BitVec.add_zero] at ticks
      exact ticks ▸ below
    · exact waiting.below (Nat.pos_of_ne_zero first)

theorem Waiting.returned (waiting : Waiting base count machine)
    (runs : Runs 2 machine) :
    ticksRead machine = base.signExtend 64 + 1 := by
  have one := waiting.call.returned Int.one_pos runs.thread runs.code
  obtain rfl : count = 1 := by omega
  rw [ticksRead, waiting.ticks]
  exact signExtend_add_one (waiting.below Nat.one_pos)

/-- A thread on the processor is not asleep. -/
theorem running_of_runs {t : Nat} (good : Good phase machine)
    (runs : Runs t machine) :
    (machine.kernel.procs t).state = .running :=
  running_of_returning good runs.thread
    (Or.inr ((pending_of_thread runs.thread).trans runs.code))

end Sleep

/-! ## The invariant -/

/-- What the timer thread has read, against the counter. -/
def Knows (machine : Machine) : TimerPoint → Prop
  | .start | .firstSleep | .firstTicks => True
  | .sleep lastticks | .update lastticks _ =>
      Runs 2 machine ∧ ticksRead machine = lastticks
  | .readCount lastticks =>
      ∃ base count, lastticks = base.signExtend 64 ∧ Waiting base count machine
  | .readTicks lastticks _ =>
      Runs 2 machine ∧ ticksRead machine = lastticks + 1
  | .check lastticks _ nowticks =>
      Runs 2 machine ∧ ticksRead machine = nowticks ∧ nowticks = lastticks + 1

/-- The points in between are on the processor, but for the call of `sleep`. -/
theorem Knows.cases {machine : Machine} {point : TimerPoint}
    (knows : Knows machine point) :
    hasRead point = false ∨ Runs 2 machine ∨
      ∃ lastticks, point = .readCount lastticks := by
  cases point with
  | start | firstSleep | firstTicks => exact Or.inl rfl
  | readCount lastticks => exact Or.inr (Or.inr ⟨lastticks, rfl⟩)
  | _ => exact Or.inr (Or.inl knows.1)

theorem knows_of_not_hasRead {machine : Machine} {point : TimerPoint}
    (early : hasRead point = false) : Knows machine point := by
  cases point with
  | start | firstSleep | firstTicks => trivial
  | _ => cases early

section Knowledge

variable {layout : Layout} {phase : Phase} {machine machine' : Machine}
variable {point : TimerPoint}

/-- A step of the machine that the timer thread does not take itself. -/
theorem Knows.other {event : Processor.Event} (knows : Knows machine point)
    (good : Good phase machine) (elsewhere : ¬ Runs 2 machine)
    (notTick : event ≠ .tick)
    (notCall : ∀ op, event = .call op → machine.thread ≠ 2)
    (stepped : Processor.step layout event machine = some (.ok machine')) :
    Knows machine' point := by
  rcases knows.cases with early | runs | ⟨lastticks, rfl⟩
  · exact knows_of_not_hasRead early
  · exact absurd runs elsewhere
  · rcases knows with ⟨base, count, last, waiting⟩
    exact ⟨base, count, last, waiting.other good notTick notCall stepped⟩

/-- A timer trap that does not disturb. -/
theorem Knows.tick (knows : Knows machine point) (good : Good phase machine)
    (calm : hasRead point = true →
      (machine.kernel.procs 2).state = .sleeping ∧
        machine.kernel.ticks ≠ intMax)
    (ticked : Processor.step layout .tick machine = some (.ok machine')) :
    Knows machine' point := by
  cases read : hasRead point with
  | false => exact knows_of_not_hasRead read
  | true =>
      rcases calm read with ⟨sleeping, below⟩
      rcases knows.cases with early | runs | ⟨lastticks, rfl⟩
      · rw [early] at read
        cases read
      · -- on the processor it is not asleep, so that the trap would disturb
        rw [running_of_runs good runs] at sleeping
        cases sleeping
      · rcases knows with ⟨base, count, last, waiting⟩
        exact ⟨base, count + 1, last,
          waiting.tick good sleeping below ticked⟩

end Knowledge

structure Timed (system : System) : Prop where
  good : ∃ phase, Good phase system.machine
  knows : Knows system.machine system.timer

section Preservation

variable {layout : Layout} {symbols : Symbols} {before after : System}

theorem good_of_step {event : Processor.Event} {machine machine' : Machine}
    (good : ∃ phase, Good phase machine)
    (stepped : Processor.step layout event machine = some (.ok machine')) :
    ∃ phase, Good phase machine' := by
  rcases good with ⟨phase, good⟩
  rcases (good.step stepped).2 machine' rfl with ⟨phase', good', _⟩
  exact ⟨phase', good'⟩

/-- A call by another thread. -/
theorem Timed.call (timed : Timed before) {t : Nat} (other : t ≠ 2)
    (runs : Runs t before.machine) {op : Processor.Op} {machine : Machine}
    (called : Processor.step layout (.call op) before.machine =
      some (.ok machine)) {main : MainPoint} {master : MasterPoint} :
    Timed { before with machine, main, master } := by
  have elsewhere : before.machine.thread ≠ 2 := runs.thread.symm ▸ other
  rcases timed.good with ⟨phase, good⟩
  exact ⟨good_of_step timed.good called,
    timed.knows.other good (fun here => elsewhere here.thread) (by simp)
      (fun _ _ => elsewhere) called⟩

/-- The timer thread calls `sleep` after a reading. -/
theorem Timed.sleep (timed : Timed before) {lastticks : BitVec 64}
    (runs : Runs 2 before.machine) (point : before.timer = .sleep lastticks)
    {machine : Machine}
    (called : Processor.step layout (.call (.sleep 1)) before.machine =
      some (.ok machine)) :
    Knows machine (.readCount lastticks) := by
  have knows := timed.knows
  rw [point] at knows
  rcases timed.good with ⟨phase, good⟩
  refine ⟨before.machine.kernel.ticks, 0, knows.2.symm,
    sleepCall_of_call good called runs.thread, ?_, nofun⟩
  rw [ticks_of_other (by simp) called]
  exact (BitVec.add_zero _).symm

theorem Timed.step (timed : Timed before) {event : Event}
    (calm : ¬ Disturbs before event)
    (stepped : Minctest.step layout symbols event before = some (.ok after)) :
    Timed after := by
  have knows := timed.knows
  cases step_cases stepped with
  | run ran =>
      rcases timed.good with ⟨phase, good⟩
      refine ⟨good_of_step timed.good ran,
        knows.other good (fun runs => ?_) (by simp) (by simp) ran⟩
      rcases Processor.code_of_run ran with ⟨stmt, rest, code⟩
      rw [runs.code] at code
      cases code
  | tick ticked =>
      rcases timed.good with ⟨phase, good⟩
      refine ⟨good_of_step timed.good ticked,
        knows.tick good (fun read => ?_) ticked⟩
      by_contra other
      rw [not_and_or, not_not] at other
      exact calm ⟨rfl, read, other⟩
  | main runs called => exact timed.call (by decide) runs called
  | spawnTimer runs point called => exact timed.call (by decide) runs called
  | wait runs point called => exact timed.call (by decide) runs called
  | pause runs point called => exact timed.call (by decide) runs called
  | test | evaluate | print => exact ⟨timed.good, knows⟩
  | start => exact ⟨timed.good, trivial⟩
  | firstSleep runs point called =>
      exact ⟨good_of_step timed.good called, trivial⟩
  | firstTicks runs => exact ⟨timed.good, runs, rfl⟩
  | sleep runs point called =>
      exact ⟨good_of_step timed.good called, timed.sleep runs point called⟩
  | readCount runs point =>
      -- the call has returned, so that one trap has come since the last reading
      rw [point] at knows
      rcases knows with ⟨base, count, rfl, waiting⟩
      exact ⟨timed.good, runs, waiting.returned runs⟩
  | readTicks runs point =>
      rw [point] at knows
      exact ⟨timed.good, runs, rfl, knows.2⟩
  | check runs point =>
      rw [point] at knows
      exact ⟨timed.good, runs, knows.2.1⟩
  | update runs point =>
      rw [point] at knows
      exact ⟨timed.good, runs, knows.2⟩

theorem timed_boot (index : Byte) (heap : Kalloc.Heap) (image : Image) :
    Timed (boot layout index heap image) where
  good := ⟨_, good_boot layout index heap image⟩
  knows := trivial

/-- The invariant along a run. -/
theorem timed_of_path {index : Byte} {heap : Kalloc.Heap} {image : Image}
    {steps : List (Event × System)} {system : System}
    (path : Path (step layout symbols) (boot layout index heap image) steps
      system)
    (undisturbed : Undisturbed (boot layout index heap image) steps) :
    Timed system := by
  have calm : Path (calmStep layout symbols) (boot layout index heap image)
      steps system :=
    path.restrict (fun before event after free stepped =>
      (if_neg free).trans stepped) undisturbed
  refine calm.invariant ?_ (timed_boot index heap image)
  intro before event after timed stepped
  rcases calmStep_eq_ok stepped with ⟨free, stepped'⟩
  exact timed.step free stepped'

/-- At the check, the counter has gone on by one. -/
theorem Timed.not_assertion (timed : Timed before) (event : Event)
    (text : String) :
    Minctest.step layout symbols event before ≠
      some (.error (.assertion text)) := by
  intro failed
  cases fault_cases failed with
  | assertion runs point other =>
      have knows := timed.knows
      rw [point] at knows
      exact other knows.2.2

end Preservation

/-! ## Results -/

/--
The assertion holds in every run in which, from the first reading of `ticks` on,
every timer trap finds the timer thread asleep and the counter below its maximum.
-/
theorem timer_assertion_holds {layout : Layout} {symbols : Symbols}
    {index : Byte} {heap : Kalloc.Heap} {image : Image}
    {steps : List (Event × System)} {system : System}
    (path : Path (step layout symbols) (boot layout index heap image) steps
      system)
    (undisturbed : Undisturbed (boot layout index heap image) steps)
    (event : Event) (text : String) :
    step layout symbols event system ≠ some (.error (.assertion text)) :=
  (timed_of_path path undisturbed).not_assertion event text

/-- The timer thread sleeps and wakes up once after its first reading. -/
theorem timer_assertion_holds_once :
    ∃ steps system, Path (step sampleLayout sampleSymbols) sampleStart steps
        system ∧
      Undisturbed sampleStart steps ∧ system.timer = .check 1 9000000 2 ∧
      step sampleLayout sampleSymbols (.own 0) system ≠
        some (.error (.assertion assertText)) := by
  have run : (follow (step sampleLayout sampleSymbols)
      (sampleAwakening ++ .own 9000000 :: sampleCall 0) sampleStart).map
        (fun run => (decide (Undisturbed sampleStart run.1), run.2.timer)) =
      some (true, .check 1 9000000 2) := by
    decide +kernel
  rcases Option.map_eq_some_iff.mp run with ⟨⟨steps, system⟩, followed, same⟩
  rcases Prod.mk.inj same with ⟨calm, point⟩
  have undisturbed := of_decide_eq_true calm
  have path := Path.of_follow followed
  exact ⟨steps, system, path, undisturbed, point,
    timer_assertion_holds path undisturbed _ _⟩

section Failures

variable {layout : Layout} {symbols : Symbols} {system : System}

theorem assertion_fails {lastticks nowcct nowticks : BitVec 64}
    (runs : Runs 2 system.machine)
    (point : system.timer = .check lastticks nowcct nowticks)
    (other : nowticks ≠ lastticks + 1) (cct : BitVec 32) :
    step layout symbols (.own cct) system =
      some (.error (.assertion assertText)) := by
  show ownStep layout symbols cct system = _
  rw [ownStep, runs.code, if_pos List.isEmpty_nil, runs.thread]
  show timerStep layout cct system = _
  rw [timerStep, point]
  exact if_neg other

def withTicks (ticks : BitVec 32) (system : System) : System :=
  { system with
    machine :=
      { system.machine with kernel := { system.machine.kernel with ticks } } }

/-- With no process asleep, a timer trap only counts. -/
theorem step_tick_of_awake
    (interruptible : system.machine.kernel.interruptible = true)
    (awake : ∀ i < system.machine.kernel.nproc,
      (system.machine.kernel.procs i).state ≠ .sleeping) (ticks : BitVec 32) :
    step layout symbols .tick (withTicks ticks system) =
      some (.ok (withTicks (ticks + 1) system)) := by
  have procs : (List.range system.machine.kernel.nproc).foldl tickProc
      system.machine.kernel.procs = system.machine.kernel.procs := by
    funext i
    rw [foldl_tickProc]
    split
    · rename_i inside
      exact if_neg (awake i inside)
    · rfl
  have trap : timerTrap (withTicks ticks system).machine.kernel =
      (withTicks (ticks + 1) system).machine.kernel := by
    unfold timerTrap withTicks
    dsimp only
    rw [procs]
  have on : (withTicks ticks system).machine.kernel.interruptible = true :=
    interruptible
  show (Processor.step layout .tick _).map _ = _
  rw [Processor.step, if_pos on, trap]
  rfl

theorem reaches_withTicks
    (interruptible : system.machine.kernel.interruptible = true)
    (awake : ∀ i < system.machine.kernel.nproc,
      (system.machine.kernel.procs i).state ≠ .sleeping) (more : Nat) :
    Reaches (step layout symbols) system
      (withTicks (system.machine.kernel.ticks + BitVec.ofNat 32 more)
        system) := by
  induction more with
  | zero =>
      rw [BitVec.add_zero]
      exact Reaches.refl system
  | succ more induction =>
      have next := @step_tick_of_awake layout symbols system interruptible awake
        (system.machine.kernel.ticks + BitVec.ofNat 32 more)
      rw [BitVec.add_assoc] at next
      rw [BitVec.ofNat_add]
      exact induction.tail next

end Failures

/-- A run leads to a check of these readings, and the check fails. -/
def FailsAt (lastticks nowticks : BitVec 64) : Prop :=
  ∃ system, Reachable sampleLayout sampleSymbols system ∧
    system.timer = .check lastticks 0 nowticks ∧
    step sampleLayout sampleSymbols (.own 0) system =
      some (.error (.assertion assertText))

/-- Where the timer thread is, and whether it is on the processor. -/
def timerView (system : System) : TimerPoint × Nat × Bool :=
  (system.timer, system.machine.thread, system.machine.code.isEmpty)

theorem failsAt_of_follow {first : System} {events : List Event}
    {lastticks nowticks : BitVec 64}
    (reachable : Reachable sampleLayout sampleSymbols first)
    (ends : (follow (step sampleLayout sampleSymbols) events first).map
      (fun run => timerView run.2) = some (.check lastticks 0 nowticks, 2, true))
    (other : nowticks ≠ lastticks + 1) : FailsAt lastticks nowticks := by
  rcases reachable with ⟨index, heap, image, reaches⟩
  rcases Option.map_eq_some_iff.mp ends with ⟨⟨steps, system⟩, followed, same⟩
  rcases Prod.mk.inj same with ⟨point, same⟩
  rcases Prod.mk.inj same with ⟨thread, empty⟩
  refine ⟨system, ⟨index, heap, image, reaches.trans ⟨_, .of_follow followed⟩⟩,
    point, ?_⟩
  exact assertion_fails ⟨thread, List.isEmpty_iff.mp empty⟩ point other 0

theorem reachable_sampleStart :
    Reachable sampleLayout sampleSymbols sampleStart :=
  ⟨_, _, _, Reaches.refl _⟩

/-- A trap comes after the wake-up and before the reading. -/
def sampleLateReading : List Event :=
  sampleAwakening ++ .tick :: sampleCall 0 ++ sampleCall 0

/-- A trap comes at each end of a period, the tenth of which wakes up the master
as well, and one more while the master prints. -/
def samplePrinting : List Event :=
  sampleAwakening ++
    (List.replicate 7
      (sampleReading 9000000 ++ .tick :: List.replicate 14 .run)).flatten ++
    sampleReading 9000000 ++ .tick :: List.replicate 12 .run ++
    sampleCall 0 ++ sampleCall 0 ++ .tick :: sampleCall 0 ++ sampleCall 23 ++
    sampleCall 0 ++ sampleCall 0

/-- The timer thread has not read `ticks` yet, and both threads are awake. -/
def sampleAwake : List Event :=
  sampleCall 16 ++ sampleCall 13 ++ sampleCall 16 ++ sampleCall 0 ++
    sampleCall 26 ++ sampleCall 0 ++ sampleCall 13 ++ List.replicate 10 .tick

/-- The master goes to sleep again, and the timer thread reads twice, with one
trap in between. -/
def sampleTwoReadings : List Event :=
  List.replicate 12 .run ++ sampleCall 0 ++ sampleCall 23 ++ sampleCall 0 ++
    sampleCall 13 ++ .tick :: List.replicate 14 .run ++ sampleCall 0 ++
    sampleCall 0

/-- No process is asleep. -/
def isAwake (kernel : KernelState) : Bool :=
  (List.range kernel.nproc).all fun i =>
    decide ((kernel.procs i).state ≠ .sleeping)

/-- The readings on the two sides of the wrap. -/
theorem failsAt_wrap : FailsAt 0x7FFFFFFF 0xFFFFFFFF80000000 := by
  have run : (follow (step sampleLayout sampleSymbols) sampleAwake
      sampleStart).map (fun run =>
        ((run.2.machine.kernel.interruptible, isAwake run.2.machine.kernel,
          run.2.machine.kernel.ticks),
        (follow (step sampleLayout sampleSymbols) sampleTwoReadings
          (withTicks intMax run.2)).map fun run => timerView run.2)) =
      some ((true, true, 10),
        some (.check 0x7FFFFFFF 0 0xFFFFFFFF80000000, 2, true)) := by
    decide +kernel
  rcases Option.map_eq_some_iff.mp run with ⟨⟨steps, system⟩, followed, same⟩
  rcases Prod.mk.inj same with ⟨state, ends⟩
  rcases Prod.mk.inj state with ⟨interruptible, state⟩
  rcases Prod.mk.inj state with ⟨awake, ticks⟩
  have notSleeping : ∀ i < system.machine.kernel.nproc,
      (system.machine.kernel.procs i).state ≠ .sleeping := by
    intro i inside
    exact of_decide_eq_true
      (List.all_eq_true.mp awake i (List.mem_range.mpr inside))
  -- the counter goes up to its maximum before the timer thread reads it
  have many := @reaches_withTicks sampleLayout sampleSymbols system
    interruptible notSleeping (2 ^ 31 - 11)
  have full : system.machine.kernel.ticks + BitVec.ofNat 32 (2 ^ 31 - 11) =
      intMax := by
    rw [show system.machine.kernel.ticks = 10 from ticks]
    decide
  rw [full] at many
  have reachable : Reachable sampleLayout sampleSymbols
      (withTicks intMax system) :=
    ⟨_, _, _, Reaches.trans ⟨steps, .of_follow followed⟩ many⟩
  exact failsAt_of_follow reachable ends (by decide)

/--
The assertion fails when a trap comes between the wake-up and the reading, when
one comes while the master prints, and when the only trap between two readings
takes the counter past the largest `int`.
-/
theorem timer_assertion_fails :
    FailsAt 1 3 ∧ FailsAt 9 11 ∧ FailsAt 0x7FFFFFFF 0xFFFFFFFF80000000 :=
  ⟨@failsAt_of_follow sampleStart sampleLateReading 1 3 reachable_sampleStart
      (by decide +kernel) (by decide),
    @failsAt_of_follow sampleStart samplePrinting 9 11 reachable_sampleStart
      (by decide +kernel) (by decide),
    failsAt_wrap⟩

end Rt64.Kapp.MinctestTiming
