import Rt64.Kernel.Process
import Rt64.Lib.Transition

/-!
# The single-processor machine

One thread is on the processor and works through the statements of a kernel
function; between two functions it runs code of its own.  `swtch` puts the rest
of the statements aside and takes up those of the other context.  Where
interrupts are on, a timer trap may come before any statement.

A running process may call `yield`, `sleep`, `exit`, `spawn` and `spawnuser`, and
a fault in user mode ends in `exit`.  The boot thread creates processes and then
calls `idlemain`.
-/

namespace Rt64.Kernel.Processor

open Rt64.Lib.Transition
open Rt64.Include.Defs
open Rt64.Kernel.Kalloc
open Rt64.Kernel.Process

/--
The kernel together with what is on the processor: the thread, given by the
index of its context, the statements it has left, and the statements that the
other threads go on with when they are switched to.
-/
structure Machine where
  kernel : KernelState
  thread : Nat
  code : List Stmt
  saved : Nat → List Stmt

/-- What `trap` prints about a fault: `tf->trapno`, `curcpu->index`, `tf->rip`
and the address in `cr2`. -/
structure Fault where
  trapno : BitVec 64
  cpu : BitVec 64
  rip : BitVec 64
  cr2 : BitVec 64

/-- What a thread may do when it is not inside a kernel function. -/
inductive Op where
  | idlemain
  | yield
  | sleep (nticks : Int)
  | exit (retval : BitVec 64)
  | spawn (desc : NewProcDesc)
  | spawnuser (desc : NewProcDesc)
  /-- A fault in user mode. -/
  | fault (cause : Fault)

inductive Event where
  /-- The next statement. -/
  | run
  /-- A timer trap. -/
  | tick
  | call (op : Op)

def isRun : Event → Bool
  | .run => true
  | _ => false

/-- The return value of a process that is killed by `trap`. -/
abbrev killed : BitVec 64 := 0xDEADDEADDEADDEAD

/-- The branch of `trap` for a fault in user mode, caused by the process `cur`. -/
def kill (fault : Fault) (cur : Nat) : List Stmt :=
  .cprintf "trap: curproc=%s trapno=%d cpu=%d rip=%p cr2=%x killed\n"
      [.name cur, .word fault.trapno, .word fault.cpu, .word fault.rip,
        .word fault.cr2] ::
    Process.exit killed cur

/-- The statements of the function that an operation calls. -/
def Op.code (layout : Layout) (kernel : KernelState) : Op → List Stmt
  | .idlemain => Process.idlemain
  | .yield => Process.yield kernel.curproc
  | .sleep nticks => Process.sleep nticks kernel.curproc
  | .exit retval => Process.exit retval kernel.curproc
  | .spawn desc => Process.spawn layout desc kernel.nproc
  | .spawnuser desc => Process.spawnuser layout desc kernel.nproc
  | .fault cause => kill cause kernel.curproc

/-- Who may do what: the boot thread is the idle process. -/
def Op.allowed (kernel : KernelState) : Op → Bool
  | .idlemain => kernel.curproc == kernel.idleproc
  | .yield | .exit _ | .fault _ => kernel.curproc != kernel.idleproc
  | .sleep nticks => kernel.curproc != kernel.idleproc && decide (0 < nticks)
  | .spawn _ | .spawnuser _ => decide (kernel.nproc < maxProc)

/-- The entry to `trap` after a fault turns interrupts off. -/
def Op.enter (kernel : KernelState) : Op → KernelState
  | .fault _ => { kernel with interruptible := false }
  | _ => kernel

/-- The next statement of the thread on the processor. -/
def runStmt (machine : Machine) : Option (Except Halt Machine) :=
  match machine.code with
  | [] => none
  | .swtchToIdle old :: rest =>
      let saved := Function.update machine.saved old rest
      some (.ok { machine with
        saved
        thread := machine.kernel.idlectx
        code := saved machine.kernel.idlectx })
  | .swtchFromIdle :: rest =>
      let saved := Function.update machine.saved machine.kernel.idlectx rest
      some (.ok { machine with
        saved
        thread := machine.kernel.curproc
        code := saved machine.kernel.curproc })
  | stmt :: rest =>
      some do
        let (kernel, more) ← stmt.exec machine.kernel
        return { machine with kernel, code := more ++ rest }

/-- One step; `none` if the event cannot happen now. -/
def step (layout : Layout) : Event → Machine → Option (Except Halt Machine)
  | .run, machine => runStmt machine
  | .tick, machine =>
      if machine.kernel.interruptible then
        some (.ok { machine with kernel := timerTrap machine.kernel })
      else none
  | .call op, machine =>
      if machine.code.isEmpty && op.allowed machine.kernel then
        some (.ok { machine with
          kernel := op.enter machine.kernel
          code := op.code layout machine.kernel })
      else none

/-- The switches are not statements of `exec`. -/
def isSwitch : Stmt → Bool
  | .swtchToIdle _ | .swtchFromIdle => true
  | _ => false

theorem runStmt_eq {machine : Machine} {stmt : Stmt} {rest : List Stmt}
    (code : machine.code = stmt :: rest) (notSwitch : isSwitch stmt = false) :
    runStmt machine = some do
      let (kernel, more) ← stmt.exec machine.kernel
      return { machine with kernel, code := more ++ rest } := by
  unfold runStmt
  rw [code]
  cases stmt <;> first | rfl | cases notSwitch

theorem step_tick {layout : Layout} {machine machine' : Machine}
    (ticked : step layout .tick machine = some (.ok machine')) :
    machine.kernel.interruptible = true ∧
      machine' = { machine with kernel := timerTrap machine.kernel } := by
  rw [step] at ticked
  split at ticked
  · rename_i interruptible
    exact ⟨interruptible, (Except.ok.inj (Option.some.inj ticked)).symm⟩
  · cases ticked

/-- Outside the kernel's functions there is no statement to run. -/
theorem code_of_run {layout : Layout} {machine : Machine}
    {result : Except Halt Machine}
    (ran : step layout .run machine = some result) :
    ∃ stmt rest, machine.code = stmt :: rest := by
  rcases code : machine.code with _ | ⟨stmt, rest⟩
  · simp only [step, runStmt, code] at ran
    cases ran
  · exact ⟨stmt, rest, rfl⟩

/-- Inside a function, only its next statement or a timer trap can come. -/
theorem step_of_code {layout : Layout} {event : Event}
    {machine machine' : Machine} {stmt : Stmt} {rest : List Stmt}
    (code : machine.code = stmt :: rest) (notSwitch : isSwitch stmt = false)
    (stepped : step layout event machine = some (.ok machine')) :
    (event = .tick ∧ machine.kernel.interruptible = true ∧
        machine' = { machine with kernel := timerTrap machine.kernel }) ∨
      event = .run ∧ ∃ kernel more,
        stmt.exec machine.kernel = .ok (kernel, more) ∧
          machine' = { machine with kernel, code := more ++ rest } := by
  cases event with
  | tick => exact Or.inl ⟨rfl, step_tick stepped⟩
  | run =>
      rw [step, runStmt_eq code notSwitch, Option.some.injEq,
        bind_eq_ok] at stepped
      rcases stepped with ⟨⟨kernel, more⟩, success, same⟩
      exact Or.inr ⟨rfl, kernel, more, success, (Except.ok.inj same).symm⟩
  | call op =>
      rw [step, code] at stepped
      cases stepped

/-- What a thread calls, it calls outside the kernel's functions. -/
theorem step_call {layout : Layout} {op : Op} {machine machine' : Machine}
    (called : step layout (.call op) machine = some (.ok machine')) :
    machine.code = [] ∧ op.allowed machine.kernel = true ∧
      machine' =
        { machine with
          kernel := op.enter machine.kernel
          code := op.code layout machine.kernel } := by
  rw [step] at called
  split at called
  · rename_i enabled
    rw [Bool.and_eq_true, List.isEmpty_iff] at enabled
    exact ⟨enabled.1, enabled.2,
      (Except.ok.inj (Option.some.inj called)).symm⟩
  · cases called

/-- The machine after `procinit`, whatever the rest of the boot code has left
in the image. -/
def boot (layout : Layout) (index : Lib.ByteMemory.Byte) (heap : Heap)
    (image : Image) : Machine where
  kernel := { procinit layout index (KernelState.zero heap) with image }
  thread := 0
  code := []
  saved _ := []

/-- The states of the machine in any run after `procinit`. -/
def Reachable (layout : Layout) (machine : Machine) : Prop :=
  ∃ index heap image,
    Reaches (step layout) (boot layout index heap image) machine

theorem reachable_of_follow {layout : Layout} {index : Lib.ByteMemory.Byte}
    {heap : Heap} {image : Image} {events : List Event}
    {steps : List (Event × Machine)} {machine : Machine}
    (followed : follow (step layout) events (boot layout index heap image) =
      some (steps, machine)) : Reachable layout machine :=
  ⟨index, heap, image, steps, Path.of_follow followed⟩

theorem Reachable.path {layout : Layout} {machine machine' : Machine}
    {steps : List (Event × Machine)} (reachable : Reachable layout machine)
    (path : Path (step layout) machine steps machine') :
    Reachable layout machine' := by
  rcases reachable with ⟨index, heap, image, reaches⟩
  exact ⟨index, heap, image, reaches.trans ⟨steps, path⟩⟩

/-! ## A sample run -/

def sampleHeap : Heap where
  mem _ := 0
  nfreepages := 0
  freelist := 0

def sampleBoot : Machine :=
  boot sampleLayout 0 sampleHeap (KernelState.zero sampleHeap).image

/-- A fault on a store to the first page. -/
def sampleFault : Fault where
  trapno := 14
  cpu := 0
  rip := 0xFFFFFFFF80112040
  cr2 := 0

/-- One process is created and switched to. -/
def sampleEvents : List Event :=
  .call (.spawn sampleDesc) :: List.replicate 16 .run ++
    .call .idlemain :: List.replicate 13 .run

end Rt64.Kernel.Processor
