import Rt64.Kernel.Lapic
import Rt64.Kernel.Processor

/-!
# The latency test

`main` creates the process of `minctestmain`, which creates that of
`timerthread`, so that they have the entries 1 and 2 of the process table.  The
timer thread sleeps for one tick, reads how far the timer has counted since, and
keeps statistics of that; the master prints them from time to time.  The two
share the statistics without a lock, which cooperative scheduling makes safe.

A `System` is the machine together with the variables of the two threads and the
points where they stand.  A thread takes a step of its own when it is on the
processor and in no kernel function.  Between any two of these steps timer traps
may come, if interrupts are on, so that what a thread computes without calling the
kernel is one step unless it reads `ticks`.
-/

namespace Rt64.Kapp.Minctest

open Rt64.Lib.ByteMemory
open Rt64.Lib.Transition
open Rt64.Include.Defs
open Rt64.Kernel
open Rt64.Kernel.Kalloc
open Rt64.Kernel.Process
open Rt64.Kernel.Processor (Machine Op)
open Rt64.Kernel.Lapic

/-! ## The statistics -/

/-- The static variables. -/
structure Stats where
  min : BitVec 64
  max : BitVec 64
  sum : BitVec 64
  act : BitVec 64
  cycles : BitVec 64
deriving DecidableEq

def Stats.zero : Stats :=
  ⟨0, 0, 0, 0, 0⟩

/-- The assignments at the start of `timerthread`. -/
def Stats.init (stats : Stats) : Stats :=
  { stats with min := 1000000, max := 0, sum := 0, cycles := 0 }

def updatestats (diff : BitVec 64) (stats : Stats) : Stats :=
  let stats := if diff < stats.min then { stats with min := diff } else stats
  let stats := if stats.max < diff then { stats with max := diff } else stats
  { stats with
    sum := stats.sum + diff
    act := diff
    cycles := stats.cycles + 1 }

/-- The arguments of a line. -/
structure Line where
  cycles : BitVec 64
  min : BitVec 64
  act : BitVec 64
  avg : BitVec 64
  max : BitVec 64
deriving DecidableEq

def Stats.line (stats : Stats) : Line where
  cycles := stats.cycles
  min := stats.min
  act := stats.act
  avg := stats.sum / stats.cycles
  max := stats.max

/-! ## The threads -/

/-- Where the boot thread stands in `main`. -/
inductive MainPoint where
  | spawn
  | idlemain
  | idle
deriving DecidableEq

/-- Where `minctestmain` stands. -/
inductive MasterPoint where
  | spawn
  /-- `while (cycles == 0)`. -/
  | test
  | wait
  /-- The arguments of `cprintf`. -/
  | evaluate
  | print (line : Line)
  | pause
deriving DecidableEq

/-- Where `timerthread` stands, with its variables. -/
inductive TimerPoint where
  | start
  | firstSleep
  | firstTicks
  | sleep (lastticks : BitVec 64)
  | readCount (lastticks : BitVec 64)
  | readTicks (lastticks nowcct : BitVec 64)
  | check (lastticks nowcct nowticks : BitVec 64)
  | update (lastticks nowcct : BitVec 64)
deriving DecidableEq

/--
The machine, the statistics and the threads.  `samples` and `lines` record the
differences that have been measured and the lines that have been printed, each
with the samples so far.
-/
structure System where
  machine : Machine
  stats : Stats
  main : MainPoint
  master : MasterPoint
  timer : TimerPoint
  samples : List (BitVec 64)
  lines : List (List (BitVec 64) × Line)

inductive Fault where
  | halt (reason : Halt)
  /-- The `ASSERT` of a thread fails. -/
  | assertion (text : String)
  /-- A division by zero, on which `trap` panics. -/
  | divide

inductive Event where
  /-- The next statement of the kernel function that a thread is in. -/
  | run
  /-- A timer trap. -/
  | tick
  /-- The next step of the thread itself; `cct` is the count of the timer. -/
  | own (cct : BitVec 32)
deriving DecidableEq

/-- The addresses in the descriptions of the two processes. -/
structure Symbols where
  masterName : Addr
  minctestmain : Addr
  timerName : Addr
  timerthread : Addr

def Symbols.masterDesc (symbols : Symbols) : NewProcDesc where
  name := symbols.masterName
  func := symbols.minctestmain
  initarg := 0
  prio := 0

def Symbols.timerDesc (symbols : Symbols) : NewProcDesc where
  name := symbols.timerName
  func := symbols.timerthread
  initarg := 0
  prio := 0

/-- The `int` variable `ticks`, read as a `u64`. -/
def ticksRead (machine : Machine) : BitVec 64 :=
  machine.kernel.ticks.signExtend 64

section Steps

variable (layout : Layout) (symbols : Symbols)

/-- A step of the machine below the threads. -/
def kernelStep (event : Processor.Event) (system : System) :
    Option (Except Fault System) :=
  (Processor.step layout event system.machine).map fun result =>
    match result with
    | .ok machine => .ok { system with machine }
    | .error reason => .error (.halt reason)

def mainStep (system : System) : Option (Except Fault System) :=
  match system.main with
  | .spawn =>
      kernelStep layout (.call (.spawn symbols.masterDesc))
        { system with main := .idlemain }
  | .idlemain =>
      kernelStep layout (.call .idlemain) { system with main := .idle }
  | .idle => none

/-- `minctestmain`.  `spawn` returns the address of an entry, so the `ASSERT`
after it holds. -/
def masterStep (system : System) : Option (Except Fault System) :=
  match system.master with
  | .spawn =>
      kernelStep layout (.call (.spawn symbols.timerDesc))
        { system with master := .test }
  | .test =>
      some (.ok { system with
        master := if system.stats.cycles = 0 then .wait else .evaluate })
  | .wait =>
      kernelStep layout (.call (.sleep 10)) { system with master := .test }
  | .evaluate =>
      if system.stats.cycles = 0 then
        some (.error .divide)
      else
        some (.ok { system with master := .print system.stats.line })
  | .print line =>
      some (.ok { system with
        master := .pause
        lines := system.lines ++ [(system.samples, line)] })
  | .pause =>
      kernelStep layout (.call (.sleep 10)) { system with master := .evaluate }

/-- The text of the `ASSERT` in `timerthread`. -/
abbrev assertText : String :=
  "nowticks == lastticks + LAPIC_SLEEP_TICKS"

/-- `timerthread`.  The count of the timer does not exceed its period. -/
def timerStep (cct : BitVec 32) (system : System) :
    Option (Except Fault System) :=
  match system.timer with
  | .start =>
      some (.ok { system with
        stats := system.stats.init
        timer := .firstSleep })
  | .firstSleep =>
      kernelStep layout (.call (.sleep 1)) { system with timer := .firstTicks }
  | .firstTicks =>
      some (.ok { system with timer := .sleep (ticksRead system.machine) })
  | .sleep lastticks =>
      kernelStep layout (.call (.sleep 1))
        { system with timer := .readCount lastticks }
  | .readCount lastticks =>
      if cct ≤ lapicTimerPeriod then
        some (.ok { system with
          timer := .readTicks lastticks (cct.setWidth 64) })
      else none
  | .readTicks lastticks nowcct =>
      some (.ok { system with
        timer := .check lastticks nowcct (ticksRead system.machine) })
  | .check lastticks nowcct nowticks =>
      if nowticks = lastticks + 1 then
        some (.ok { system with timer := .update nowticks nowcct })
      else
        some (.error (.assertion assertText))
  | .update lastticks nowcct =>
      let nowrem := period - nowcct
      some (.ok { system with
        stats := updatestats nowrem system.stats
        samples := system.samples ++ [nowrem]
        timer := .sleep lastticks })

/-- A step of the thread on the processor. -/
def ownStep (cct : BitVec 32) (system : System) :
    Option (Except Fault System) :=
  if system.machine.code.isEmpty then
    match system.machine.thread with
    | 0 => mainStep layout symbols system
    | 1 => masterStep layout symbols system
    | 2 => timerStep layout cct system
    | _ => none
  else none

/-- One step; `none` if the event cannot happen now. -/
def step : Event → System → Option (Except Fault System)
  | .run, system => kernelStep layout .run system
  | .tick, system => kernelStep layout .tick system
  | .own cct, system => ownStep layout symbols cct system

end Steps

/-- `main` goes on after `uvminit`. -/
def boot (layout : Layout) (index : Byte) (heap : Heap) (image : Image) :
    System where
  machine := Processor.boot layout index heap image
  stats := .zero
  main := .spawn
  master := .spawn
  timer := .start
  samples := []
  lines := []

/-- The states in any run of the test. -/
def Reachable (layout : Layout) (symbols : Symbols) (system : System) : Prop :=
  ∃ index heap image,
    Reaches (step layout symbols) (boot layout index heap image) system

/-! ## What a step does -/

/-- The thread `t` is on the processor, and in no kernel function. -/
structure Runs (t : Nat) (machine : Machine) : Prop where
  thread : machine.thread = t
  code : machine.code = []

/-- The steps as a relation, one case for each point of a thread. -/
inductive Step (layout : Layout) (symbols : Symbols) (before : System) :
    Event → System → Prop where
  | run {machine : Machine}
      (ran : Processor.step layout .run before.machine = some (.ok machine)) :
      Step layout symbols before .run { before with machine }
  | tick {machine : Machine}
      (ticked : Processor.step layout .tick before.machine =
        some (.ok machine)) :
      Step layout symbols before .tick { before with machine }
  | main {cct : BitVec 32} {machine : Machine} {op : Op} {main : MainPoint}
      (runs : Runs 0 before.machine)
      (called : Processor.step layout (.call op) before.machine =
        some (.ok machine)) :
      Step layout symbols before (.own cct) { before with machine, main }
  | spawnTimer {cct : BitVec 32} {machine : Machine}
      (runs : Runs 1 before.machine) (point : before.master = .spawn)
      (called : Processor.step layout (.call (.spawn symbols.timerDesc))
        before.machine = some (.ok machine)) :
      Step layout symbols before (.own cct)
        { before with machine, master := .test }
  | test {cct : BitVec 32}
      (runs : Runs 1 before.machine) (point : before.master = .test) :
      Step layout symbols before (.own cct)
        { before with
          master := if before.stats.cycles = 0 then .wait else .evaluate }
  | wait {cct : BitVec 32} {machine : Machine}
      (runs : Runs 1 before.machine) (point : before.master = .wait)
      (called : Processor.step layout (.call (.sleep 10)) before.machine =
        some (.ok machine)) :
      Step layout symbols before (.own cct)
        { before with machine, master := .test }
  | evaluate {cct : BitVec 32}
      (runs : Runs 1 before.machine) (point : before.master = .evaluate)
      (divisor : before.stats.cycles ≠ 0) :
      Step layout symbols before (.own cct)
        { before with master := .print before.stats.line }
  | print {cct : BitVec 32} {line : Line}
      (runs : Runs 1 before.machine) (point : before.master = .print line) :
      Step layout symbols before (.own cct)
        { before with
          master := .pause
          lines := before.lines ++ [(before.samples, line)] }
  | pause {cct : BitVec 32} {machine : Machine}
      (runs : Runs 1 before.machine) (point : before.master = .pause)
      (called : Processor.step layout (.call (.sleep 10)) before.machine =
        some (.ok machine)) :
      Step layout symbols before (.own cct)
        { before with machine, master := .evaluate }
  | start {cct : BitVec 32}
      (runs : Runs 2 before.machine) (point : before.timer = .start) :
      Step layout symbols before (.own cct)
        { before with stats := before.stats.init, timer := .firstSleep }
  | firstSleep {cct : BitVec 32} {machine : Machine}
      (runs : Runs 2 before.machine) (point : before.timer = .firstSleep)
      (called : Processor.step layout (.call (.sleep 1)) before.machine =
        some (.ok machine)) :
      Step layout symbols before (.own cct)
        { before with machine, timer := .firstTicks }
  | firstTicks {cct : BitVec 32}
      (runs : Runs 2 before.machine) (point : before.timer = .firstTicks) :
      Step layout symbols before (.own cct)
        { before with timer := .sleep (ticksRead before.machine) }
  | sleep {cct : BitVec 32} {machine : Machine} {lastticks : BitVec 64}
      (runs : Runs 2 before.machine) (point : before.timer = .sleep lastticks)
      (called : Processor.step layout (.call (.sleep 1)) before.machine =
        some (.ok machine)) :
      Step layout symbols before (.own cct)
        { before with machine, timer := .readCount lastticks }
  | readCount {cct : BitVec 32} {lastticks : BitVec 64}
      (runs : Runs 2 before.machine)
      (point : before.timer = .readCount lastticks)
      (counts : cct ≤ lapicTimerPeriod) :
      Step layout symbols before (.own cct)
        { before with timer := .readTicks lastticks (cct.setWidth 64) }
  | readTicks {cct : BitVec 32} {lastticks nowcct : BitVec 64}
      (runs : Runs 2 before.machine)
      (point : before.timer = .readTicks lastticks nowcct) :
      Step layout symbols before (.own cct)
        { before with
          timer := .check lastticks nowcct (ticksRead before.machine) }
  | check {cct : BitVec 32} {lastticks nowcct nowticks : BitVec 64}
      (runs : Runs 2 before.machine)
      (point : before.timer = .check lastticks nowcct nowticks)
      (one : nowticks = lastticks + 1) :
      Step layout symbols before (.own cct)
        { before with timer := .update nowticks nowcct }
  | update {cct : BitVec 32} {lastticks nowcct : BitVec 64}
      (runs : Runs 2 before.machine)
      (point : before.timer = .update lastticks nowcct) :
      Step layout symbols before (.own cct)
        { before with
          stats := updatestats (period - nowcct) before.stats
          samples := before.samples ++ [period - nowcct]
          timer := .sleep lastticks }

section Inversion

variable {layout : Layout} {symbols : Symbols} {before after : System}

theorem kernelStep_eq_ok {event : Processor.Event}
    (stepped : kernelStep layout event before = some (.ok after)) :
    ∃ machine, Processor.step layout event before.machine =
      some (.ok machine) ∧ after = { before with machine } := by
  rcases Option.map_eq_some_iff.mp stepped with ⟨result, taken, same⟩
  cases result with
  | error reason => cases same
  | ok machine => exact ⟨machine, taken, (Except.ok.inj same).symm⟩

theorem step_of_mainStep {cct : BitVec 32} (runs : Runs 0 before.machine)
    (stepped : mainStep layout symbols before = some (.ok after)) :
    Step layout symbols before (.own cct) after := by
  unfold mainStep at stepped
  cases point : before.main with
  | spawn =>
      rw [point] at stepped
      rcases kernelStep_eq_ok stepped with ⟨machine, called, rfl⟩
      exact .main runs called
  | idlemain =>
      rw [point] at stepped
      rcases kernelStep_eq_ok stepped with ⟨machine, called, rfl⟩
      exact .main runs called
  | idle =>
      rw [point] at stepped
      cases stepped

theorem step_of_masterStep {cct : BitVec 32} (runs : Runs 1 before.machine)
    (stepped : masterStep layout symbols before = some (.ok after)) :
    Step layout symbols before (.own cct) after := by
  unfold masterStep at stepped
  cases point : before.master with
  | spawn =>
      rw [point] at stepped
      rcases kernelStep_eq_ok stepped with ⟨machine, called, rfl⟩
      exact .spawnTimer runs point called
  | test =>
      rw [point] at stepped
      rcases Except.ok.inj (Option.some.inj stepped) with rfl
      exact .test runs point
  | wait =>
      rw [point] at stepped
      rcases kernelStep_eq_ok stepped with ⟨machine, called, rfl⟩
      exact .wait runs point called
  | evaluate =>
      rw [point] at stepped
      dsimp only at stepped
      split at stepped
      · cases stepped
      · rename_i divisor
        rcases Except.ok.inj (Option.some.inj stepped) with rfl
        exact .evaluate runs point divisor
  | print line =>
      rw [point] at stepped
      rcases Except.ok.inj (Option.some.inj stepped) with rfl
      exact .print runs point
  | pause =>
      rw [point] at stepped
      rcases kernelStep_eq_ok stepped with ⟨machine, called, rfl⟩
      exact .pause runs point called

theorem step_of_timerStep {cct : BitVec 32} (runs : Runs 2 before.machine)
    (stepped : timerStep layout cct before = some (.ok after)) :
    Step layout symbols before (.own cct) after := by
  unfold timerStep at stepped
  cases point : before.timer with
  | start =>
      rw [point] at stepped
      rcases Except.ok.inj (Option.some.inj stepped) with rfl
      exact .start runs point
  | firstSleep =>
      rw [point] at stepped
      rcases kernelStep_eq_ok stepped with ⟨machine, called, rfl⟩
      exact .firstSleep runs point called
  | firstTicks =>
      rw [point] at stepped
      rcases Except.ok.inj (Option.some.inj stepped) with rfl
      exact .firstTicks runs point
  | sleep lastticks =>
      rw [point] at stepped
      rcases kernelStep_eq_ok stepped with ⟨machine, called, rfl⟩
      exact .sleep runs point called
  | readCount lastticks =>
      rw [point] at stepped
      dsimp only at stepped
      split at stepped
      · rename_i counts
        rcases Except.ok.inj (Option.some.inj stepped) with rfl
        exact .readCount runs point counts
      · cases stepped
  | readTicks lastticks nowcct =>
      rw [point] at stepped
      rcases Except.ok.inj (Option.some.inj stepped) with rfl
      exact .readTicks runs point
  | check lastticks nowcct nowticks =>
      rw [point] at stepped
      dsimp only at stepped
      split at stepped
      · rename_i one
        rcases Except.ok.inj (Option.some.inj stepped) with rfl
        exact .check runs point one
      · cases stepped
  | update lastticks nowcct =>
      rw [point] at stepped
      rcases Except.ok.inj (Option.some.inj stepped) with rfl
      exact .update runs point

theorem step_cases {event : Event}
    (stepped : step layout symbols event before = some (.ok after)) :
    Step layout symbols before event after := by
  cases event with
  | run =>
      rcases kernelStep_eq_ok stepped with ⟨machine, ran, rfl⟩
      exact .run ran
  | tick =>
      rcases kernelStep_eq_ok stepped with ⟨machine, ticked, rfl⟩
      exact .tick ticked
  | own cct =>
      change ownStep layout symbols cct before = _ at stepped
      unfold ownStep at stepped
      split at stepped
      · rename_i empty
        have code : before.machine.code = [] := List.isEmpty_iff.mp empty
        split at stepped
        · rename_i thread
          exact step_of_mainStep ⟨thread, code⟩ stepped
        · rename_i thread
          exact step_of_masterStep ⟨thread, code⟩ stepped
        · rename_i thread
          exact step_of_timerStep ⟨thread, code⟩ stepped
        · cases stepped
      · cases stepped

/-- Where a run can end. -/
inductive Faults (before : System) : Fault → Prop where
  | halt (reason : Halt) : Faults before (.halt reason)
  | divide (runs : Runs 1 before.machine) (point : before.master = .evaluate)
      (zero : before.stats.cycles = 0) : Faults before .divide
  | assertion {lastticks nowcct nowticks : BitVec 64}
      (runs : Runs 2 before.machine)
      (point : before.timer = .check lastticks nowcct nowticks)
      (other : nowticks ≠ lastticks + 1) :
      Faults before (.assertion assertText)

theorem kernelStep_eq_error {event : Processor.Event} {first : System}
    {fault : Fault}
    (failed : kernelStep layout event first = some (.error fault)) :
    Faults before fault := by
  rcases Option.map_eq_some_iff.mp failed with ⟨result, _, same⟩
  cases result with
  | error reason =>
      rcases Except.error.inj same with rfl
      exact .halt reason
  | ok machine => cases same

theorem faults_of_masterStep {fault : Fault} (runs : Runs 1 before.machine)
    (failed : masterStep layout symbols before = some (.error fault)) :
    Faults before fault := by
  unfold masterStep at failed
  cases point : before.master with
  | evaluate =>
      rw [point] at failed
      dsimp only at failed
      split at failed
      · rename_i zero
        rcases Except.error.inj (Option.some.inj failed) with rfl
        exact .divide runs point zero
      · cases failed
  | test | print =>
      rw [point] at failed
      cases failed
  | _ =>
      rw [point] at failed
      exact kernelStep_eq_error failed

theorem faults_of_timerStep {cct : BitVec 32} {fault : Fault}
    (runs : Runs 2 before.machine)
    (failed : timerStep layout cct before = some (.error fault)) :
    Faults before fault := by
  unfold timerStep at failed
  cases point : before.timer with
  | firstSleep | sleep =>
      rw [point] at failed
      exact kernelStep_eq_error failed
  | readCount lastticks =>
      rw [point] at failed
      dsimp only at failed
      split at failed
      · cases failed
      · cases failed
  | check lastticks nowcct nowticks =>
      rw [point] at failed
      dsimp only at failed
      split at failed
      · cases failed
      · rename_i other
        rcases Except.error.inj (Option.some.inj failed) with rfl
        exact .assertion runs point other
  | _ =>
      rw [point] at failed
      cases failed

theorem fault_cases {event : Event} {fault : Fault}
    (failed : step layout symbols event before = some (.error fault)) :
    Faults before fault := by
  cases event with
  | run => exact kernelStep_eq_error failed
  | tick => exact kernelStep_eq_error failed
  | own cct =>
      change ownStep layout symbols cct before = _ at failed
      unfold ownStep at failed
      split at failed
      · rename_i empty
        have code : before.machine.code = [] := List.isEmpty_iff.mp empty
        split at failed
        · unfold mainStep at failed
          split at failed
          · exact kernelStep_eq_error failed
          · exact kernelStep_eq_error failed
          · cases failed
        · rename_i thread
          exact faults_of_masterStep ⟨thread, code⟩ failed
        · rename_i thread
          exact faults_of_timerStep ⟨thread, code⟩ failed
        · cases failed
      · cases failed

end Inversion

/-! ## A run -/

def sampleSymbols : Symbols where
  masterName := 0xFFFFFFFF80101008
  minctestmain := 0xFFFFFFFF80110080
  timerName := 0xFFFFFFFF80101010
  timerthread := 0xFFFFFFFF801100C0

def sampleStart : System :=
  boot sampleLayout 0 Processor.sampleHeap
    (KernelState.zero Processor.sampleHeap).image

/-- A step of a thread, and the statements of the kernel after it. -/
def sampleCall (statements : Nat) : List Event :=
  .own 0 :: List.replicate statements .run

/-- Up to the first reading of the timer thread: both threads are created, the
master goes to sleep, and then the timer thread does, twice. -/
def sampleAwakening : List Event :=
  sampleCall 16 ++ sampleCall 13 ++ sampleCall 16 ++ sampleCall 0 ++
    sampleCall 26 ++ sampleCall 0 ++ sampleCall 13 ++
    .tick :: List.replicate 14 .run ++ sampleCall 0 ++ sampleCall 13 ++
    .tick :: List.replicate 14 .run

/-- The timer thread reads, checks and updates, and sleeps again. -/
def sampleReading (cct : BitVec 32) : List Event :=
  .own cct :: sampleCall 0 ++ sampleCall 0 ++ sampleCall 0 ++ sampleCall 13

end Rt64.Kapp.Minctest
